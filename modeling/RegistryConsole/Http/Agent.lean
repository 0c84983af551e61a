import RegistryConsole.Base64
import RegistryConsole.Http.Network
import RegistryConsole.Http.Target
import RegistryConsole.Url.Parse

/-! # The user agent

Makes calls: completes the header, sends the request, follows redirects, and undoes the coding of
the answer's body. Credentials stay with the host and port that they were meant for. What is assumed
of the client that follows redirects is `Call.AssumedRedirect`. -/

namespace RegistryConsole

/-- What makes calls. -/
structure Agent where
  /-- The name that the agent gives. -/
  name : Option String
  /-- Whether redirects are followed, or handed back. -/
  follows : Bool
  deriving DecidableEq

/-- A call to be made. -/
structure Call where
  method : Method
  url : Url
  headers : Headers
  body : Option Bytes
  deriving DecidableEq

/-- Why a call has no result. -/
inductive CallFault where
  | malformed
  | badUrl (url : Url)
  | notSent (url : Url)
  | redirects (url : Url)
  | unreadable
  deriving DecidableEq

/-- The text of a fault. -/
def CallFault.message : CallFault → String
  | .malformed => "builder error"
  | .badUrl url => "builder error for url (" ++ url.text ++ ")"
  | .notSent url => "error sending request for url (" ++ url.text ++ ")"
  | .redirects url => "error following redirect for url (" ++ url.text ++ ")"
  | .unreadable => "error decoding response body"

namespace Call

/-! ## Before a call is sent -/

/-- A part of a URL with its escapes resolved, if it is a text. -/
def unescaped? (cs : List Char) : Option Bytes :=
  let b := Escape.decode (Utf8.encode cs)
  if (Utf8.decode? b).isSome then some b else none

/-- The name and the password of the user that a URL names, joined by a colon. -/
def credentials? (u : Url) : Option Bytes :=
  match unescaped? u.user, u.password.bind unescaped? with
  | none, _ => none
  | some [], none => none
  | some name, password => some (name ++ 0x3A :: password.getD [])

/-- The call with the user of the URL moved to the header, unless the header has credentials. -/
def withCredentials (c : Call) : Call :=
  match credentials? c.url with
  | none => c
  | some pair =>
    let value := Utf8.ofString "Basic " ++ Base64.encode pair
    { c with
      url := c.url.withoutUser
      headers :=
        if c.headers.has "authorization" then c.headers
        else c.headers ++ [⟨"authorization", value, true⟩] }

/-- The codings that are asked for. -/
def acceptedCodings : Bytes :=
  Utf8.ofString (String.intercalate "," (Coding.names.map (·.1)))

/-- The call with the fields that an agent adds where they are absent. Codings are not asked for
together with a part of a body. -/
def withDefaults (agent : Agent) (c : Call) : Call :=
  let accepting := c.headers.putAbsent "accept" (Utf8.ofString "*/*")
  let named := match agent.name with
    | some name => accepting.putAbsent "user-agent" (Utf8.ofString name)
    | none => accepting
  { c with
    headers :=
      if named.has "range" then named else named.putAbsent "accept-encoding" acceptedCodings }

/-- The call as it is first sent. Only web pages' URLs with a host are called, and only those
whose text may stand in a request. -/
def prepare (agent : Agent) (c : Call) : Except CallFault Call :=
  let c := c.withCredentials
  if !c.url.hasHost || !c.url.isHttp then .error (.badUrl c.url)
  else match RequestTarget.ofBytes? (Utf8.ofString c.url.text) with
    | .error _ => .error (.badUrl c.url)
    | .ok _ => .ok (c.withDefaults agent)

/-- What the first line of a call's request asks for: the path and the query of its URL, or the
server itself if the call is for a tunnel. -/
def target (c : Call) : List Char :=
  if c.method = .connect then c.url.userText ++ c.url.hostText else c.url.target

/-- The request of a call. -/
def wire (c : Call) : WireRequest where
  origin := c.url.origin
  isSecure := c.url.scheme = "https".toList
  method := c.method
  target := c.target
  headers :=
    let named := c.headers.putAbsent "host" (Utf8.encode c.url.hostText)
    match c.body with
    | none | some [] => named
    | some body => named.put ⟨"content-length", Utf8.ofString (toString body.length), false⟩
  body := c.body.getD []

/-! ## Redirects -/

/-- The fields that describe a body. -/
def bodyFields : List String :=
  ["content-type", "content-length", "content-encoding", "transfer-encoding"]

/-- The fields that are only for the host and port they were meant for. -/
def secretFields : List String :=
  ["authorization", "cookie", "cookie2", "proxy-authorization", "www-authenticate"]

/-- The call as a plain request for what it is about. -/
def withoutBody (c : Call) (method : Method) : Call :=
  { c with method, headers := c.headers.without bodyFields, body := none }

/-- Whether a redirect with a given status makes the call a plain request: a 303 does so with every
call, a 301 and a 302 only with a POST. -/
def BecomesPlain (c : Call) (status : Status) : Prop :=
  status.code = 303 ∨ ((status.code = 301 ∨ status.code = 302) ∧ c.method = .post)

instance (c : Call) (status : Status) : Decidable (c.BecomesPlain status) :=
  inferInstanceAs (Decidable (status.code = 303 ∨
    ((status.code = 301 ∨ status.code = 302) ∧ c.method = .post)))

/-- The call as a redirect with a given status asks for it, to the same URL as before. -/
def redirected? (c : Call) (status : Status) : Option Call :=
  if status.IsFollowed then
    some (if c.BecomesPlain status then c.withoutBody (if c.method = .head then .head else .get)
      else c)
  else none

/-- The URL that an answer points to. -/
def location? (c : Call) (r : Response) : Option Url :=
  match (r.headers.first? "location").bind Utf8.decode? with
  | none => none
  | some text =>
    match c.url.join text with
    | .error _ => none
    | .ok url =>
      match RequestTarget.ofBytes? (Utf8.ofString url.text) with
      | .error _ => none
      | .ok _ => some url.withoutFragment

/-- The header for another URL: without secrets if host or port differ, and naming the URL that
led there, except from a secure page to one that is not. -/
def headersFor (c : Call) (next : Url) : Headers :=
  let kept := if next.origin = c.url.origin then c.headers else c.headers.without secretFields
  if next.scheme = "http".toList ∧ c.url.scheme = "https".toList then kept
  else
    kept.put ⟨"referer", Utf8.ofString c.url.withoutUser.withoutFragment.text, false⟩

/-- The call that an answer leads to, if it is a redirect. -/
def next? (c : Call) (r : Response) : Option Call :=
  match c.redirected? r.status, c.location? r with
  | some again, some url => some { again with url, headers := again.headersFor url }
  | _, _ => none

/-- What is assumed of the HTTP client: where redirects are followed, the answer `r` to the call `c`
leads to the call `next`. How redirects are followed is not part of the console. This is what its
client documents of it, and all that is made use of here. -/
structure AssumedRedirect (c : Call) (r : Response) (next : Call) : Prop where
  /-- Five statuses are followed, if the answer points somewhere. -/
  followed : r.status.IsFollowed
  location : c.location? r = some next.url
  /-- A plain request is a GET, or a HEAD after a HEAD, and has no body. -/
  plain : c.BecomesPlain r.status →
    next.method = (if c.method = .head then .head else .get) ∧ next.body = none
  /-- Any other call is made again: at 301 and 302 a PUT is still a PUT, with its body. -/
  again : ¬c.BecomesPlain r.status → next.method = c.method ∧ next.body = c.body
  /-- Secrets go on to the same host and port, and to no other. They are those of the call before:
  once dropped they are dropped for good, even if a later redirect leads back. -/
  secrets : ∀ n ∈ secretFields, next.headers.values n =
    if next.url.origin = c.url.origin then c.headers.values n else []
  /-- Every other field goes on, unless it describes a body that does not. -/
  others : ∀ n, n ∉ secretFields → n ≠ "referer" →
    (c.BecomesPlain r.status → n ∉ bodyFields) → next.headers.values n = c.headers.values n

end Call

namespace Agent

/-! ## Sending -/

/-- How many redirects are followed. -/
def maxRedirects : Nat := 10

/-- The answer as it is read off a connection: some answers have no body. -/
def receive (method : Method) (r : Response) : Response :=
  if Response.IsBare method r.status then { r with body := .streamed [] true }
  else { r with body := .streamed r.body.received r.body.whole?.isSome }

/-- The body before a coding. Nothing is the coding of nothing. -/
def undone (undo : Coding → Bytes → Option Bytes) (coding : Coding) (body : MessageBody) :
    MessageBody :=
  match body.received with
  | [] => body
  | bytes =>
    match undo coding bytes with
    | some plain => .streamed plain body.whole?.isSome
    | none => .streamed [] false

/-- The answer with the coding of its body undone, if it is one that is asked for. -/
def decoded (undo : Coding → Bytes → Option Bytes) (r : Response) : Response :=
  match (r.headers.first? "content-encoding").bind Coding.ofName? with
  | none => r
  | some coding =>
    { r with
      headers := r.headers.without ["content-encoding", "content-length"]
      body := undone undo coding r.body }

/-- Sends a call and, at most `left` times, the one that the answer leads to. -/
def follow {σ : Type} (agent : Agent) (net : Network σ) (first : Url) :
    (left : Nat) → Call → σ → Except CallFault Response × σ
  | left, c, s =>
    match net.deliver c.wire s with
    | (none, s) => (.error (.notSent first), s)
    | (some answer, s) =>
      let r := receive c.method answer
      match if agent.follows then c.next? r else none with
      | none => (.ok (decoded net.undo r), s)
      | some next =>
        match left with
        | 0 => (.error (.redirects c.url.withoutFragment), s)
        | left + 1 =>
          if next.url.isHttp then follow agent net first left next s
          else (.error (.badUrl next.url), s)

/-- Makes a call. -/
def send {σ : Type} (agent : Agent) (net : Network σ) (c : Call) (s : σ) :
    Except CallFault Response × σ :=
  match c.prepare agent with
  | .error f => (.error f, s)
  | .ok c => agent.follow net c.url maxRedirects c s

/-- Makes a call to the URL of a text. -/
def sendTo {σ : Type} (agent : Agent) (net : Network σ) (method : Method) (url : String)
    (headers : Headers) (body : Option Bytes) (s : σ) : Except CallFault Response × σ :=
  match Url.ofText url with
  | .error _ => (.error .malformed, s)
  | .ok url => agent.send net ⟨method, url, headers, body⟩ s

end Agent

end RegistryConsole
