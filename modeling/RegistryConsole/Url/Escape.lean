import RegistryConsole.Text.Utf8

/-! # Percent escapes

Octets that may not stand in a part of a URL are written as a percent sign and two digits in
base 16. Which characters these are depends on the part. -/

namespace RegistryConsole.Escape

/-- A digit in base 16, upper case. -/
def hexDigit (n : Nat) : Char :=
  (Nat.digitChar n).toUpper

/-- An escaped octet. -/
def octet (b : UInt8) : List Char :=
  ['%', hexDigit (b.toNat / 16), hexDigit (b.toNat % 16)]

/-- Whether a character is a control character or not ASCII. -/
def isOutside (c : Char) : Bool :=
  c.toNat < 0x20 || 0x7E < c.toNat

/-- What is escaped in a fragment. -/
def inFragment (c : Char) : Bool :=
  isOutside c || c == ' ' || c == '"' || c == '<' || c == '>' || c == '`'

/-- What is escaped in a query. -/
def inQuery (c : Char) : Bool :=
  isOutside c || c == ' ' || c == '"' || c == '#' || c == '<' || c == '>'

/-- What is escaped in the query of a web address. -/
def inWebQuery (c : Char) : Bool :=
  inQuery c || c == '\''

/-- What is escaped in a path. -/
def inPath (c : Char) : Bool :=
  inQuery c || c == '?' || c == '`' || c == '\x7b' || c == '\x7d'

/-- What is escaped in the name and password of a user. -/
def inUser (c : Char) : Bool :=
  inPath c || c == '/' || c == ':' || c == ';' || c == '=' || c == '@' || c == '[' || c == '\\' ||
    c == ']' || c == '^' || c == '|'

/-- A character in a part where the characters of `escaped` are escaped. -/
def char (escaped : Char → Bool) (c : Char) : List Char :=
  if escaped c then (Utf8.encodeChar c).flatMap octet else [c]

/-- A text in a part where the characters of `escaped` are escaped. -/
def text (escaped : Char → Bool) (cs : List Char) : List Char :=
  cs.flatMap (char escaped)

/-- A text whose characters all stand for themselves is not changed. -/
theorem text_eq_self {escaped : Char → Bool} {cs : List Char}
    (h : ∀ c ∈ cs, escaped c = false) : text escaped cs = cs := by
  induction cs with
  | nil => rfl
  | cons c cs ih =>
    have hc : char escaped c = [c] := by simp [char, h c List.mem_cons_self]
    simp only [text, List.flatMap_cons, hc]
    have := ih fun x hx => h x (List.mem_cons_of_mem _ hx)
    simp only [text] at this
    simp [this]

/-- The number of a digit in base 16. -/
def hexValue? (b : UInt8) : Option Nat :=
  let n := b.toNat
  if 0x30 ≤ n ∧ n ≤ 0x39 then some (n - 0x30)
  else if 0x41 ≤ n ∧ n ≤ 0x46 then some (n - 0x37)
  else if 0x61 ≤ n ∧ n ≤ 0x66 then some (n - 0x57)
  else none

/-- The octets of a text with its escapes resolved. A percent sign without two digits after it
stands for itself. -/
def decode : Bytes → Bytes
  | 0x25 :: a :: b :: rest =>
    match hexValue? a, hexValue? b with
    | some x, some y => UInt8.ofNat (x * 16 + y) :: decode rest
    | _, _ => 0x25 :: decode (a :: b :: rest)
  | b :: rest => b :: decode rest
  | [] => []

end RegistryConsole.Escape
