import RegistryConsole.Json.Record

/-! # Claims

What a registry token asserts about the console. -/

namespace RegistryConsole

open Json

/-- The claims of a registry token. -/
structure Claims where
  issuedAt : Int64
  expires : Int64
  audience : String
  issuer : String
  subject : String
  deriving DecidableEq

namespace Claims

/-- How many seconds a token is valid. -/
def lifetime : Int64 := 900

/-- The claims of a token that is issued at `now`, in seconds. -/
def issuedAtTime (now : Int64) : Claims where
  issuedAt := now
  expires := now + lifetime
  audience := "object-registry"
  issuer := "object-registry-ui"
  subject := "object-registry"

/-- The wire form of claims. -/
def layout : Layout Claims where
  title := "RegistryClaims"
  members :=
    [.required "iat" .int64, .required "exp" .int64, .required "aud" .string,
      .required "iss" .string, .required "sub" .string]
  build v := ⟨v.1, v.2.1, v.2.2.1, v.2.2.2.1, v.2.2.2.2.1⟩
  parts c := (c.issuedAt, c.expires, c.audience, c.issuer, c.subject, PUnit.unit)

end Claims

end RegistryConsole
