import RegistryConsole.Http.Message
import RegistryConsole.Url.Basic

/-! # Networks

A request goes out and an answer comes back, unless the connection fails. What answers may be
anything that keeps a state: a script of answers, or a server. -/

namespace RegistryConsole

/-- A request as it goes over a connection. -/
structure WireRequest where
  origin : Origin
  /-- Whether the connection is a secure one. -/
  isSecure : Bool
  method : Method
  target : List Char
  headers : Headers
  body : Bytes
  deriving DecidableEq

/-- The codings of bodies that are asked for. -/
inductive Coding where
  | gzip
  | deflate
  | brotli
  deriving DecidableEq

namespace Coding

/-- The names of the codings, in the order in which they are asked for. -/
def names : List (String × Coding) :=
  [("gzip", .gzip), ("deflate", .deflate), ("br", .brotli)]

/-- The coding of a name, letter by letter. -/
def ofName? (name : Bytes) : Option Coding :=
  (names.find? fun n => Utf8.ofString n.1 == name).map (·.2)

end Coding

/-- What calls go through. -/
structure Network (σ : Type) where
  /-- The answer to a request. Without one the connection has failed. -/
  deliver : WireRequest → σ → Option Response × σ
  /-- The octets before a coding, unless they are none in that coding. -/
  undo : Coding → Bytes → Option Bytes

/-- The network while no connection comes about. -/
def Network.cut {σ : Type} (net : Network σ) : Network σ :=
  { net with deliver := fun _ s => (none, s) }

/-- Servers that answer in the order of a script, and what they were sent. -/
structure Backend where
  /-- Whether a connection comes about. -/
  reaches : Origin → Bool
  /-- The answers to come; one that is missing closes the connection. -/
  script : List (Option Response)
  /-- The answer after the script. -/
  standing : Response
  received : List WireRequest

namespace Backend

/-- Answers a request. A request that does not come through leaves no trace. -/
def deliver (request : WireRequest) (backend : Backend) : Option Response × Backend :=
  if backend.reaches request.origin then
    let received := backend.received ++ [request]
    match backend.script with
    | [] => (some backend.standing, { backend with received })
    | answer :: script => (answer, { backend with script, received })
  else (none, backend)

/-- Servers that cannot be reached are not changed. -/
theorem deliver_of_not_reaches {request : WireRequest} {backend : Backend}
    (h : backend.reaches request.origin = false) :
    deliver request backend = (none, backend) := by
  simp [deliver, h]

/-- The network of the servers. -/
def network (undo : Coding → Bytes → Option Bytes) : Network Backend := ⟨deliver, undo⟩

end Backend

end RegistryConsole
