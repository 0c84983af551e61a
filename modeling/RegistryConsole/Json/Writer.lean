import RegistryConsole.Decimal.Shortest
import RegistryConsole.Json.Basic
import RegistryConsole.Text.Quoted
import RegistryConsole.Text.Utf8

/-! # Writing JSON

The compact form has no white space; the pretty form puts every item and member on a line of its
own, two spaces deeper than what it belongs to. -/

namespace RegistryConsole

/-! ## Numbers -/

/-- How decimals are written: positional between two powers of ten, otherwise with an exponent. -/
structure DecimalForm where
  /-- The least position of the point, counted from the first digit, that is positional. -/
  leastPoint : Int
  /-- The greatest position of the point that is positional. -/
  greatestPoint : Int

namespace DecimalForm

/-- A decimal in this form, without sign. Positional numbers keep a point and a digit after it. -/
def write (form : DecimalForm) (d : Decimal) : List Char :=
  let digits := Nat.toDigits 10 d.digits
  let point : Int := digits.length + d.exponent
  if form.leastPoint ≤ point ∧ point ≤ form.greatestPoint then
    if 0 ≤ d.exponent then digits ++ List.replicate d.exponent.toNat '0' ++ ['.', '0']
    else if 0 < point then digits.take point.toNat ++ ['.'] ++ digits.drop point.toNat
    else ['0', '.'] ++ List.replicate (-point).toNat '0' ++ digits
  else
    let power := point - 1
    let fraction := if digits.length = 1 then [] else '.' :: digits.drop 1
    digits.take 1 ++ fraction ++ ['e', if power < 0 then '-' else '+'] ++
      Nat.toDigits 10 power.natAbs

end DecimalForm

namespace Number

/-- Floats are positional from 0.00001 up to below 10¹⁶. -/
def floatForm : DecimalForm := ⟨-4, 16⟩

/-- An integer in decimal digits. -/
def integerText (n : Int) : List Char :=
  if n < 0 then '-' :: Nat.toDigits 10 n.natAbs else Nat.toDigits 10 n.natAbs

/-- A float with the fewest digits that read back. -/
def floatText (x : Binary64) : List Char :=
  (if x.negative then ['-'] else []) ++
    (if x.significand = 0 then ['0', '.', '0'] else floatForm.write x.shortest)

/-- The number as it is written. -/
def text : Number → List Char
  | .integer n _ => integerText n
  | .float x => floatText x

/-- Whether a number can be written: integers always, and fractions if they are numbers of the
format. -/
def IsWritable : Number → Prop
  | .integer _ _ => True
  | .float x => x.IsFormatted

instance (x : Number) : Decidable x.IsWritable :=
  match x with
  | .integer _ _ => isTrue trivial
  | .float x => inferInstanceAs (Decidable x.IsFormatted)

end Number

namespace Json

/-! ## Strings -/

/-- A character inside a JSON string. Quotes, backslashes and the controls below the space are
escaped, all others stand for themselves. -/
def escapedChar (c : Char) : List Char :=
  if c = '"' then ['\\', '"']
  else if c = '\\' then ['\\', '\\']
  else if c = '\x08' then ['\\', 'b']
  else if c = '\x0c' then ['\\', 'f']
  else if c = '\n' then ['\\', 'n']
  else if c = '\r' then ['\\', 'r']
  else if c = '\t' then ['\\', 't']
  else if c.toNat < 0x20 then
    ['\\', 'u', '0', '0', Nat.digitChar (c.toNat / 16), Nat.digitChar (c.toNat % 16)]
  else [c]

/-- A JSON string. -/
def stringText (s : String) : List Char :=
  '"' :: s.toList.flatMap escapedChar ++ ['"']

/-! ## The compact form -/

mutual

/-- The compact form of a value. -/
def compact : Json → List Char
  | .null => ['n', 'u', 'l', 'l']
  | .bool true => ['t', 'r', 'u', 'e']
  | .bool false => ['f', 'a', 'l', 's', 'e']
  | .number n => n.text
  | .string s => stringText s
  | .array items => '[' :: compactItems true items
  | .object members => '\x7b' :: compactMembers true members

/-- The items of an array up to its end; `first` when none is written yet. -/
def compactItems (first : Bool) : List Json → List Char
  | [] => [']']
  | item :: items =>
    (if first then [] else [',']) ++ item.compact ++ compactItems false items

/-- The members of an object up to its end; `first` when none is written yet. -/
def compactMembers (first : Bool) : List (String × Json) → List Char
  | [] => ['\x7d']
  | (name, value) :: members =>
    (if first then [] else [',']) ++ stringText name ++ [':'] ++ value.compact ++
      compactMembers false members

end

/-- The compact form as a string. -/
def text (j : Json) : String :=
  String.ofList j.compact

/-- The compact form in UTF-8. -/
def bytes (j : Json) : Bytes :=
  Utf8.encode j.compact

/-! ## What can be written -/

mutual

/-- Whether all numbers of a value can be written. -/
def isWritable : Json → Bool
  | .number x => decide x.IsWritable
  | .array items => itemsAreWritable items
  | .object members => membersAreWritable members
  | .null => true
  | .bool _ => true
  | .string _ => true

/-- Whether all numbers of the values of a list can be written. -/
def itemsAreWritable : List Json → Bool
  | [] => true
  | item :: items => item.isWritable && itemsAreWritable items

/-- Whether all numbers of the members of an object can be written. -/
def membersAreWritable : List (String × Json) → Bool
  | [] => true
  | (_, value) :: members => value.isWritable && membersAreWritable members

end

/-! ## The pretty form -/

/-- A new line at the given depth. -/
def newLine (depth : Nat) : List Char :=
  '\n' :: List.replicate (2 * depth) ' '

mutual

/-- The pretty form of a value that stands at the given depth. -/
def prettyAt (depth : Nat) : Json → List Char
  | .array [] => ['[', ']']
  | .array (item :: items) => '[' :: prettyItems (depth + 1) true (item :: items)
  | .object [] => ['\x7b', '\x7d']
  | .object (m :: members) => '\x7b' :: prettyMembers (depth + 1) true (m :: members)
  | .null => compact .null
  | .bool b => compact (.bool b)
  | .number n => n.text
  | .string s => stringText s

/-- The items of an array at the given depth, up to its end. -/
def prettyItems (depth : Nat) (first : Bool) : List Json → List Char
  | [] => newLine (depth - 1) ++ [']']
  | item :: items =>
    (if first then [] else [',']) ++ newLine depth ++ prettyAt depth item ++
      prettyItems depth false items

/-- The members of an object at the given depth, up to its end. -/
def prettyMembers (depth : Nat) (first : Bool) : List (String × Json) → List Char
  | [] => newLine (depth - 1) ++ ['\x7d']
  | (name, value) :: members =>
    (if first then [] else [',']) ++ newLine depth ++ stringText name ++ [':', ' '] ++
      prettyAt depth value ++ prettyMembers depth false members

end

/-- The pretty form of a value. -/
def pretty (j : Json) : List Char :=
  j.prettyAt 0

end Json

end RegistryConsole
