import RegistryConsole.Base64
import RegistryConsole.Text.Blank
import RegistryConsole.Text.Utf8

/-! # PEM armour

A key is kept as text: base64 between a line that opens it and a line that closes it, both with
the same label. Lines of the form `name: value` and an empty line may come before the base64. -/

namespace RegistryConsole.Pem

/-- The contents of an armoured text and its label. -/
structure Block where
  label : String
  contents : Bytes

/-- How many octets of a text end with the first place where `needle` is read in full. Reading
starts anew after each octet that does not fit, and does not look at that octet again: `wanted` is
what is still to be read, after `seen` octets. -/
def findEnd? (needle : Bytes) : (wanted : Bytes) → (seen : Nat) → Bytes → Option Nat
  | _, _, [] => none
  | [], _, _ => none
  | x :: wanted, n, b :: rest =>
    if b = x then
      if wanted.isEmpty then some (n + 1) else findEnd? needle wanted (n + 1) rest
    else findEnd? needle needle (n + 1) rest

/-- The octets before the first `needle` and those after it. -/
def splitAt? (needle text : Bytes) : Option (Bytes × Bytes) :=
  (findEnd? needle needle 0 text).map fun n => (text.take (n - needle.length), text.drop n)

/-- Whether an octet may stand between the opening line and what it opens. -/
def isGap (b : UInt8) : Bool :=
  b == 0x20 || b == 0x09 || b == 0x0A || b == 0x0D

/-- The name lines before an empty line and the octets after it; without an empty line there are
no name lines. -/
def splitNames (body : Bytes) : Bytes × Bytes :=
  match splitAt? [0x0A, 0x0A] body with
  | some parts => parts
  | none =>
    match splitAt? [0x0D, 0x0A, 0x0D, 0x0A] body with
    | some parts => parts
    | none => ([], body)

/-- The lines of a text; a line end at the very end starts no line. -/
def lines (text : List Char) : List (List Char) :=
  match text.splitOnP (· == '\n') with
  | [] => []
  | parts => if parts.getLast? = some [] then parts.dropLast else parts

/-- Whether every line has a colon. -/
def namesGood (text : List Char) : Bool :=
  (lines text).all fun line => line.contains ':'

/-- The first block of a text. -/
def parse? (text : Bytes) : Option Block := do
  let (_, afterOpening) ← splitAt? (Utf8.ofString "-----BEGIN ") text
  let (label, afterLabel) ← splitAt? (Utf8.ofString "-----") afterOpening
  let (body, afterBody) ← splitAt? (Utf8.ofString "-----END ") (afterLabel.dropWhile isGap)
  let (names, data) := splitNames body
  let (closing, _) ← splitAt? (Utf8.ofString "-----") afterBody
  let label ← Utf8.toString? label
  let closing ← Utf8.toString? closing
  let data ← Utf8.decode? data
  let names ← Utf8.decode? names
  let contents ← (Base64.decode (Utf8.encode (data.filter fun c => !isBlank c))).toOption
  if label ≠ "" ∧ label = closing ∧ namesGood names then some ⟨label, contents⟩ else none

end RegistryConsole.Pem
