import RegistryConsole.Key.KeyFile
import RegistryConsole.Key.Rsa
import RegistryConsole.Registry.Claims

/-! # Registry tokens

Every call to the registry carries a token that the console signs for it, with a fresh time. A
token is three parts joined by dots: what it is, what it asserts, and the signature over both. -/

namespace RegistryConsole

open Json

/-- The key that tokens are signed with, as it is configured. -/
structure SigningKey where
  keyId : String
  pem : String
  deriving DecidableEq

/-- A signing key as logs show it: never the key itself. -/
def SigningKey.redacted (key : SigningKey) : String :=
  "SigningKeyConfig \x7b key_id: " ++ quoted key.keyId ++ ", private_key_pem: \"<redacted>\" \x7d"

/-- Why no token can be issued at all. -/
inductive SetupFault where
  | missingKey
  | invalidKey (fault : KeyFile.Fault)
  deriving DecidableEq

/-- The text of a fault in the setup. -/
def SetupFault.message : SetupFault → String
  | .missingKey =>
    "Missing OBJECT_REGISTRY_KEY_ID or OBJECT_REGISTRY_PRIVATE_KEY environment variables."
  | .invalidKey f => "Invalid OBJECT_REGISTRY_PRIVATE_KEY: " ++ f.message

/-- Why a token is not issued. -/
inductive IssueFault where
  | setup (fault : SetupFault)
  | badKey (fault : Rsa.KeyFault)
  | signing
  deriving DecidableEq

/-- The text of a fault in issuing. -/
def IssueFault.message : IssueFault → String
  | .setup f => f.message
  | .badKey f => "Failed to sign registry token: RSA key invalid: " ++ f.message
  | .signing => "Failed to sign registry token: RsaFailedSigning"

/-- A key that was found, with its name. -/
structure Signer where
  keyId : String
  key : Bytes

/-- What issues tokens, or why none can be issued. -/
structure Issuer where
  signer : Except SetupFault Signer

namespace Issuer

/-- The issuer for a configured key. A key without a name or a text counts as missing. -/
def ofKey (key : Option SigningKey) : Issuer :=
  match key with
  | none => ⟨.error .missingKey⟩
  | some key =>
    if key.keyId = "" ∨ key.pem = "" then ⟨.error .missingKey⟩
    else match KeyFile.rsaKey (Utf8.ofString key.pem) with
      | .ok b => ⟨.ok ⟨key.keyId, b⟩⟩
      | .error f => ⟨.error (.invalidKey f)⟩

/-- Whether a key was found. -/
def isConfigured (issuer : Issuer) : Bool :=
  match issuer.signer with
  | .ok _ => true
  | .error _ => false

/-- The name of the key. -/
def keyId? (issuer : Issuer) : Option String :=
  match issuer.signer with
  | .ok s => some s.keyId
  | .error _ => none

/-- Why no key was found. -/
def fault? (issuer : Issuer) : Option SetupFault :=
  match issuer.signer with
  | .ok _ => none
  | .error f => some f

/-- The issuer as logs show it. -/
def describe (issuer : Issuer) : String :=
  let state := match issuer.signer with
    | .ok s => "kid=" ++ s.keyId
    | .error f => f.message
  "TokenIssuer \x7b signer: " ++ quoted state ++ " \x7d"

end Issuer

namespace Token

/-- What a token is: its type, the kind of its signature, and the name of the key. -/
def header (keyId : String) : Json :=
  .object [("typ", .string "JWT"), ("alg", .string "RS256"), ("kid", .string keyId)]

/-- A value as a part of a token. -/
def part (j : Json) : Bytes :=
  Base64.encodeForUrls j.bytes

/-- The two parts of a token that are signed, with the dot between them. -/
def signedPart (keyId : String) (now : Int64) : Bytes :=
  part (header keyId) ++ 0x2E :: part (Claims.layout.codec.write (.issuedAtTime now))

/-- A token of its signed parts and its signature. -/
def assemble (signed signature : Bytes) : Bytes :=
  signed ++ 0x2E :: Base64.encodeForUrls signature

end Token

/-- Issues a token at the time `now`, in seconds. The key is read and checked here, each time. -/
def Issuer.issue (issuer : Issuer) (now : Int64) : Except IssueFault String :=
  match issuer.signer with
  | .error f => .error (.setup f)
  | .ok s =>
    match Rsa.PrivateKey.ofBytes? s.key with
    | .error f => .error (.badKey f)
    | .ok key =>
      let signed := Token.signedPart s.keyId now
      match key.sign? signed with
      | none => .error .signing
      | some signature =>
        .ok (String.ofList (Bytes.toLatin (Token.assemble signed signature)))

end RegistryConsole
