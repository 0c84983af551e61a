import RegistryConsole.Client.Download
import RegistryConsole.Http.Agent

/-! # Faults of the client

What a call through the console can end with besides a result. When the console or the registry
refuses a call, the message is taken from the answer as far as it has one. -/

namespace RegistryConsole

/-- Why a call of the client has no result. -/
inductive ClientFault where
  /-- The call was refused. -/
  | refused (status : Status) (message : String)
  | call (fault : CallFault)
  | url (fault : UrlFault)
  | envelope (fault : EnvelopeFault)

namespace ClientFault

/-- The text of a fault. -/
def message : ClientFault → String
  | .refused _ message => message
  | .call f => "HTTP error: " ++ f.message
  | .url f => "Invalid URL: " ++ f.message
  | .envelope (.base64 f) => "Base64 decode error: " ++ f.message
  | .envelope .payloadNotText => "Unexpected payload: base64 payload is not a string"

end ClientFault

namespace Refusal

open Json

/-- The message in a member of an answer, unless it is absent or says nothing. -/
def memberText? : Option Json → Option String
  | none | some .null | some (.bool false) | some (.string "") => none
  | some (.string s) => some s
  | some value => some value.text

/-- The message in a JSON answer: one of two members, or else the whole. -/
def jsonText (body : Json) : String :=
  match memberText? (body.member? "error"), memberText? (body.member? "message") with
  | some text, _ => text
  | none, some text => text
  | none, none => body.text

/-- Whether the text `part` occurs in `cs`. -/
def occursIn (part : List Char) : List Char → Bool
  | [] => part.isEmpty
  | c :: cs => part.isPrefixOf (c :: cs) || occursIn part cs

/-- Whether an answer says that it is JSON. -/
def saysJson (r : Response) : Bool :=
  match r.headers.first? "content-type" with
  | none => false
  | some value =>
    (value.all fun b => b.toNat == 0x09 || (0x20 ≤ b.toNat && b.toNat < 0x7F)) &&
      occursIn "application/json".toList (Bytes.toLatin value)

/-- The message where the answer has none. -/
def fallback (action : String) (status : Status) : String :=
  "Failed to " ++ action ++ ": " ++ status.title

/-- The message of an answer that refuses an action. -/
def message (action : String) (r : Response) : String :=
  match r.body.whole? with
  | none => fallback action r.status
  | some body =>
    if saysJson r then
      match Json.ofBytes? body with
      | .ok value => jsonText value
      | .error _ => fallback action r.status
    else if body = [] then fallback action r.status
    else String.ofList (Utf8.lossy body)

end Refusal

end RegistryConsole
