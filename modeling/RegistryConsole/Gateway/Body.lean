import RegistryConsole.Http.Method
import RegistryConsole.Json.Reader

/-! # Bodies of forwarded calls

What is sent on of a request's body: nothing for methods that read, the compact form of a JSON
value, and any other body as it is. -/

namespace RegistryConsole

open Json

/-- A body that is sent on. -/
inductive ForwardBody where
  | structured (value : Json)
  | raw (bytes : Bytes)

namespace ForwardBody

/-- What is sent on of `body` with the method `method`. -/
def classify (method : Method) (body : Bytes) : Option ForwardBody :=
  if method = .get ∨ method = .head then none
  else match Json.ofBytes? body with
    | .ok value => some (.structured value)
    | .error _ => some (.raw body)

/-- Whether the body is a JSON value. -/
def isStructured : ForwardBody → Bool
  | .structured _ => true
  | .raw _ => false

/-- The octets that are sent. -/
def bytes : ForwardBody → Bytes
  | .structured value => value.bytes
  | .raw b => b

/-- Whether a body has octets to send. -/
def isWritable : ForwardBody → Bool
  | .structured value => value.isWritable
  | .raw _ => true

/-- The octets that are sent, if there are any. -/
def written? (body : ForwardBody) : Option Bytes :=
  if body.isWritable then some body.bytes else none

end ForwardBody

end RegistryConsole
