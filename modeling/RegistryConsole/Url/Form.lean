import RegistryConsole.Url.Escape

/-! # Form fields in a query

Names and values joined by `=` and `&`. Letters, digits and `*-._` stand for themselves, a space
is a plus sign, and all other octets are escaped. -/

namespace RegistryConsole.Form

/-- Whether a character stands for itself. -/
def isPlain (c : Char) : Bool :=
  c.isAlphanum || c == '*' || c == '-' || c == '.' || c == '_'

/-- A character of a name or value. -/
def encodeChar (c : Char) : List Char :=
  if c = ' ' then ['+']
  else if isPlain c then [c]
  else (Utf8.encodeChar c).flatMap Escape.octet

/-- A name or value. -/
def encodeText (cs : List Char) : List Char :=
  cs.flatMap encodeChar

/-- A name and a value. -/
def encodePair (p : String × String) : List Char :=
  encodeText p.1.toList ++ '=' :: encodeText p.2.toList

/-- The query with a field added to it. -/
def addPair (query : Option (List Char)) (p : String × String) : Option (List Char) :=
  match query with
  | none => some (encodePair p)
  | some [] => some (encodePair p)
  | some q => some (q ++ '&' :: encodePair p)

/-- Octets with plus signs for spaces. -/
def spaces (b : Bytes) : Bytes :=
  b.map fun x => if x = 0x2B then 0x20 else x

/-- The text of a name or value. -/
def decodeText (b : Bytes) : String :=
  String.ofList (Utf8.lossy (Escape.decode (spaces b)))

/-- The fields of a query. Empty fields do not count; a field without `=` has an empty value. -/
def decode (query : Bytes) : List (String × String) :=
  ((query.splitOnP (· == 0x26)).filter (· ≠ [])).map fun part =>
    let name := part.takeWhile (· != 0x3D)
    (decodeText name, decodeText (part.drop (name.length + 1)))

end RegistryConsole.Form
