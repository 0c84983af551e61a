import RegistryConsole.Http.Header

/-! # Headers of forwarded calls

Which fields of a request go on to the registry, and which fields of its answer come back. What
concerns only one of the two connections stays there, and the credential is always the console's
own. -/

namespace RegistryConsole.Gateway

/-- The fields of a request that do not go on. -/
def requestOnly : List String :=
  ["host", "content-length", "transfer-encoding", "accept-encoding"]

/-- The fields of an answer that do not come back. -/
def responseOnly : List String :=
  ["content-encoding", "transfer-encoding"]

/-- The value that presents a token. -/
def bearer (token : String) : Bytes :=
  Utf8.ofString ("Bearer " ++ token)

/-- The header that goes on, with the token as the only credential. There is none if the token
has characters that no field may hold. -/
def outbound? (inbound : Headers) (token : String) : Option Headers :=
  if HeaderField.isValue (bearer token) then
    some ((inbound.without requestOnly).put ⟨"authorization", bearer token, true⟩)
  else none

/-- The header that comes back. -/
def relayed (answered : Headers) : Headers :=
  answered.without responseOnly

end RegistryConsole.Gateway
