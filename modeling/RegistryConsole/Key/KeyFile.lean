import RegistryConsole.Key.Asn1

/-! # Finding the RSA key in a key file

The label of the armour says whether the contents are an RSA key or a wrapping that names the kind
of the key it holds. The key itself is not read here, so that a key of no use for signing, such as
a public one, is found as well. -/

namespace RegistryConsole.KeyFile

/-- Why a key file holds no RSA key. -/
inductive Fault where
  | format
  | noKey
  deriving DecidableEq

/-- The text of a fault. -/
def Fault.message : Fault → String
  | .format => "InvalidKeyFormat"
  | .noKey => "InvalidEcdsaKey"

/-- The identifier of RSA keys. -/
def rsaIdentifier : List Nat := [1, 2, 840, 113549, 1, 1, 1]

/-- The identifier of keys on elliptic curves. -/
def curveIdentifier : List Nat := [1, 2, 840, 10045, 2, 1]

/-- The identifier of Ed25519 keys. -/
def edwardsIdentifier : List Nat := [1, 3, 101, 112]

/-- The first identifier of a kind of keys. -/
def kind? (values : List Asn1) : Option (List Nat) :=
  (Asn1.seriesIdentifiers values).find? fun arcs =>
    arcs == rsaIdentifier || arcs == curveIdentifier || arcs == edwardsIdentifier

/-- The labels of a bare RSA key. -/
def bareLabels : List String := ["RSA PRIVATE KEY", "RSA PUBLIC KEY"]

/-- The labels of a wrapped key. -/
def wrappedLabels : List String := ["PRIVATE KEY", "PUBLIC KEY", "CERTIFICATE"]

/-- The octets of the RSA key in an armoured text. -/
def rsaKey (text : Bytes) : Except Fault Bytes :=
  match Pem.parse? text with
  | none => .error .format
  | some block =>
    match Asn1.parse? block.contents with
    | none => .error .format
    | some values =>
      if bareLabels.contains block.label then .ok block.contents
      else if wrappedLabels.contains block.label ∧ kind? values = some rsaIdentifier then
        match Asn1.seriesStrings values with
        | [] => .error .noKey
        | key :: _ => .ok key
      else .error .format

end RegistryConsole.KeyFile
