import RegistryConsole.Base64
import RegistryConsole.Registry.Object

/-! # Downloads

The file that an envelope holds: its octets, its media type and its name. -/

namespace RegistryConsole

open Json

/-- A file to be saved. -/
structure Download where
  bytes : Bytes
  contentType : String
  filename : String
  deriving DecidableEq

/-- Why an envelope holds no file. -/
inductive EnvelopeFault where
  | base64 (fault : Base64.Fault)
  | payloadNotText

namespace Download

/-- The characters after the last slash. -/
def afterLastSlash (cs : List Char) : List Char :=
  (cs.reverse.takeWhile fun c => c != '/').reverse

/-- The name of the file of an object: the last part of its key, if there is one. -/
def filenameOf (key : String) : String :=
  match afterLastSlash key.toList with
  | [] => "download"
  | cs => String.ofList cs

/-- The octets and the media type of a payload that is not base64 text. Lists, objects and null
are written in the pretty form; a text stands for itself. -/
def ofPayload (payload : Json) (contentType : String) : Bytes × String :=
  match payload with
  | .array _ | .object _ | .null => (Utf8.encode payload.pretty, "application/json")
  | .string s => (Utf8.ofString s, contentType)
  | .bool _ | .number _ => (payload.bytes, contentType)

/-- The file of an envelope. -/
def ofEnvelope (e : ObjectEnvelope) (key : String) : Except EnvelopeFault Download :=
  let filename := filenameOf key
  if e.isBase64 then
    match e.payload with
    | .string s =>
      match Base64.decode (Utf8.ofString s) with
      | .ok bytes => .ok ⟨bytes, e.metadata.contentType, filename⟩
      | .error f => .error (.base64 f)
    | _ => .error .payloadNotText
  else
    let (bytes, contentType) := ofPayload e.payload e.metadata.contentType
    .ok ⟨bytes, contentType, filename⟩

end Download

end RegistryConsole
