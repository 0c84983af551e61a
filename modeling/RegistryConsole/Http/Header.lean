import RegistryConsole.Http.Method

/-! # Header fields

The header of a message is a list of fields. Names are written in lower case; fields of one name
keep their order, and the order between different names carries no meaning. -/

namespace RegistryConsole

/-- A header field. A secret one is not shown in logs. -/
structure HeaderField where
  name : String
  value : Bytes
  secret : Bool := false
  deriving DecidableEq

/-- The header of a message. -/
abbrev Headers := List HeaderField

/-- An ASCII letter in lower case; other octets are unchanged. -/
def lowerOctet (b : UInt8) : UInt8 :=
  if 0x41 ≤ b.toNat ∧ b.toNat ≤ 0x5A then b + 0x20 else b

namespace HeaderField

/-- The longest name. -/
def maxNameLength : Nat := 65535

/-- The name that octets spell, if they are a token. -/
def nameOf? (b : Bytes) : Option String :=
  if b ≠ [] ∧ b.all isTokenOctet ∧ b.length ≤ maxNameLength then
    some (String.ofList (Bytes.toLatin (b.map lowerOctet)))
  else none

/-- Whether an octet may stand in a value: no control except the tab. -/
def isValueOctet (b : UInt8) : Bool :=
  (0x20 ≤ b.toNat && b.toNat ≠ 0x7F) || b.toNat == 0x09

/-- Whether octets are the value of a field. -/
def isValue (b : Bytes) : Bool :=
  b.all isValueOctet

end HeaderField

namespace Headers

/-- The values of a name, in order. -/
def values (h : Headers) (name : String) : List Bytes :=
  (h.filter fun f => f.name == name).map (·.value)

/-- The first value of a name. -/
def first? (h : Headers) (name : String) : Option Bytes :=
  (h.find? fun f => f.name == name).map (·.value)

/-- The header without the fields of some names. -/
def without (h : Headers) (names : List String) : Headers :=
  h.filter fun f => !names.contains f.name

/-- Whether there is a field of a name. -/
def has (h : Headers) (name : String) : Bool :=
  h.any fun f => f.name == name

/-- The header with one more field. -/
def add (h : Headers) (name : String) (value : Bytes) : Headers :=
  h ++ [⟨name, value, false⟩]

/-- The header with exactly one field of a name. -/
def put (h : Headers) (field : HeaderField) : Headers :=
  h.without [field.name] ++ [field]

/-- The header with a field of a name, unless it has one. -/
def putAbsent (h : Headers) (name : String) (value : Bytes) : Headers :=
  if h.has name then h else h.add name value

end Headers

end RegistryConsole
