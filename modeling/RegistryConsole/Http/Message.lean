import RegistryConsole.Http.Header
import RegistryConsole.Http.Method
import RegistryConsole.Http.Status

/-! # Messages

Answers, and requests as they go over a connection. -/

namespace RegistryConsole

/-- The body of an answer. A streamed one has no known size, and may break off. -/
inductive MessageBody where
  | sized (bytes : Bytes)
  | streamed (bytes : Bytes) (complete : Bool)
  deriving DecidableEq

namespace MessageBody

/-- The body with nothing in it. -/
def empty : MessageBody := .sized []

/-- The octets of a body, as far as they come. -/
def received : MessageBody → Bytes
  | .sized bytes => bytes
  | .streamed bytes _ => bytes

/-- The octets of a body, unless it breaks off. -/
def whole? : MessageBody → Option Bytes
  | .sized bytes => some bytes
  | .streamed bytes complete => if complete then some bytes else none

end MessageBody

/-- An answer. -/
structure Response where
  status : Status
  headers : Headers
  body : MessageBody
  deriving DecidableEq

namespace Response

/-- Whether the answers with a status to a method have no body, whatever was meant to be one: only a
header or a tunnel was asked for, or the status says so. -/
def IsBare (method : Method) (status : Status) : Prop :=
  method = .head ∨ (method = .connect ∧ status.isSuccess = true) ∨ status.code = 204 ∨
    status.code = 304

instance (method : Method) (status : Status) : Decidable (IsBare method status) :=
  inferInstanceAs (Decidable (method = .head ∨ (method = .connect ∧ status.isSuccess = true) ∨
    status.code = 204 ∨ status.code = 304))

/-- The media type of JSON texts. -/
def jsonType : Bytes := Utf8.ofString "application/json"

/-- An answer with a JSON text. -/
def json (status : Status) (text : Bytes) : Response :=
  ⟨status, [⟨"content-type", jsonType, false⟩], .sized text⟩

/-- The answer with the length of its body in the header, if the length is known. -/
def withLength (r : Response) : Response :=
  match r.body with
  | .sized bytes =>
    let length := Utf8.ofString (toString bytes.length)
    { r with headers := r.headers.putAbsent "content-length" length }
  | .streamed _ _ => r

/-- The answer without its body. -/
def withoutBody (r : Response) : Response :=
  { r with body := .empty }

end Response

/-- What may be wrong with the parts that an answer is put together of: nothing, where they are a
status and a header already. -/
inductive BuildFault where
  deriving DecidableEq

/-- The text of such a fault. -/
def BuildFault.message (f : BuildFault) : String := nomatch f

/-- An answer in the making: its status and its header, or what is wrong with them. -/
structure ResponseBuilder where
  parts : Except BuildFault (Status × Headers)

namespace ResponseBuilder

/-- The start of an answer with a status. -/
def ofStatus (status : Status) : ResponseBuilder := ⟨.ok (status, [])⟩

/-- The answer with a header in place of the one so far. -/
def withHeaders (b : ResponseBuilder) (headers : Headers) : ResponseBuilder :=
  ⟨b.parts.map fun (status, _) => (status, headers)⟩

/-- The answer with a body, if its other parts are there. -/
def build (b : ResponseBuilder) (body : MessageBody) : Except BuildFault Response :=
  b.parts.map fun (status, headers) => ⟨status, headers, body⟩

end ResponseBuilder

end RegistryConsole
