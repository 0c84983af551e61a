import RegistryConsole.Text.Lead
import RegistryConsole.Text.Utf8

/-! # Byte ranges

A request may ask for parts of a file: from one octet to another, from one octet to the end, or a
number of octets at the end. -/

namespace RegistryConsole

/-- A part of a file that is asked for. -/
inductive ByteRange where
  | span (first last : Nat)
  | onward (first : Nat)
  | suffix (length : Nat)
  deriving DecidableEq

namespace ByteRange

/-- The greatest number in a range. -/
def maxNumber : Nat := 18446744073709551615

/-- A number without zeros before it. -/
def number? (cs : List Char) : Option Nat :=
  match cs with
  | [] => none
  | '0' :: _ :: _ => none
  | cs =>
    if cs.all Char.isDigit then
      let n := cs.foldl (fun acc c => acc * 10 + (c.toNat - 48)) 0
      if n ≤ maxNumber then some n else none
    else none

/-- The text without a space before it. A text with other white space is no range. -/
def trim? (cs : List Char) : Option (List Char) :=
  let isSpace (c : Char) : Bool := c == ' ' || c == '\t'
  match cs with
  | c :: rest =>
    let text := if isSpace c then rest else cs
    if text.any isSpace || (isSpace c && rest == []) then none else some text
  | [] => some []

/-- The range of a text. -/
def parse? (cs : List Char) : Option ByteRange :=
  match (trim? cs).map fun text => text.splitOnP (· == '-') with
  | some [[], length] =>
    match number? length with
    | some 0 | none => none
    | some n => some (.suffix n)
  | some [first, []] => (number? first).map .onward
  | some [first, last] =>
    match number? first, number? last with
    | some a, some b => some (.span a b)
    | _, _ => none
  | _ => none

/-- The ranges that a header field asks for. -/
def parseAll? (value : Bytes) : Option (List ByteRange) :=
  match dropLead? (Utf8.ofString "bytes=") value with
  | none => none
  | some rest => ((Bytes.toLatin rest).splitOnP (· == ',')).mapM parse?

/-- The first and the last octet of a range in a file with `size` octets. -/
def bounds? (size : Nat) : ByteRange → Option (Nat × Nat)
  | .span first last =>
    if first ≤ last ∧ first < size then some (first, min last (size - 1)) else none
  | .onward first => if first < size then some (first, size - 1) else none
  | .suffix length => if length ≤ size then some (size - length, size - 1) else none

/-- Whether two ranges have an octet in common. -/
def overlaps (a b : Nat × Nat) : Bool :=
  a.1 ≤ b.2 && b.1 ≤ a.2

/-- Whether no two of the ranges have an octet in common. -/
def areDisjoint : List (Nat × Nat) → Bool
  | [] => true
  | a :: rest => rest.all (!overlaps a ·) && areDisjoint rest

/-- The ranges that a header field asks for in a file with `size` octets, if it has them all and
none twice. -/
def requested? (size : Nat) (value : Bytes) : Option (List (Nat × Nat)) :=
  ((parseAll? value).bind fun ranges => ranges.mapM (bounds? size)).filter areDisjoint

end ByteRange

end RegistryConsole
