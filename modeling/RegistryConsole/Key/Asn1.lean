import RegistryConsole.Key.Pem

/-! # The structure of key files

A key file is a series of tagged values, some of which hold values in turn. This reader is
lenient: it accepts lengths in any form and does not look into values that it has no use for, but
a value that holds others must hold one at least. -/

namespace RegistryConsole

/-- A tagged value, as far as it matters for finding a key. -/
inductive Asn1 where
  | sequence (items : List Asn1)
  | identifier (arcs : List Nat)
  /-- A string of octets, or the octets of a string of bits. -/
  | octets (b : Bytes)
  | other

namespace Asn1

/-- Reads a number in groups of seven bits; the last group has no high bit. -/
def readBase128 (value : Nat) : Bytes → Option (Nat × Bytes)
  | [] => none
  | b :: rest =>
    let value := value * 128 + b.toNat % 128
    if b.toNat < 128 then some (value, rest) else readBase128 value rest

/-- Reads numbers in groups of seven bits up to the end; `fuel` bounds how many there are. -/
def readArcs : (fuel : Nat) → Bytes → Option (List Nat)
  | _, [] => some []
  | 0, _ => none
  | fuel + 1, b => do
    let (n, rest) ← readBase128 0 b
    let more ← readArcs fuel rest
    some (n :: more)

/-- Reads `count` octets as a number. -/
def readNumber : (count : Nat) → (value : Nat) → Bytes → Option (Nat × Bytes)
  | 0, value, b => some (value, b)
  | _ + 1, _, [] => none
  | count + 1, value, x :: rest => readNumber count (value * 256 + x.toNat) rest

/-- Reads the length of a value. -/
def readLength : Bytes → Option (Nat × Bytes)
  | [] => none
  | b :: rest =>
    if b.toNat < 128 then some (b.toNat, rest)
    else if 8 < b.toNat - 128 then none
    else readNumber (b.toNat - 128) 0 rest

/-- Reads a tag: its class, whether it holds other values, and its number. -/
def readTag : Bytes → Option ((Nat × Bool × Nat) × Bytes)
  | [] => none
  | b :: rest =>
    let n := b.toNat
    let holds := n / 32 % 2 == 1
    if n % 32 = 31 then (readBase128 0 rest).map fun (tag, rest) => ((n / 64, holds, tag), rest)
    else some ((n / 64, holds, n % 32), rest)

/-- Reads an object identifier. The first octet holds two numbers. -/
def identifier? : Bytes → Option (List Nat)
  | [] => none
  | b :: rest =>
    let n := b.toNat
    let top := if n < 40 then [0, n] else if n < 80 then [1, n - 40] else [2, n - 80]
    (readArcs rest.length rest).map (top ++ ·)

/-- Whether an octet may stand in a printable string. -/
def isPlain (b : UInt8) : Bool :=
  let n := b.toNat
  (0x30 ≤ n && n ≤ 0x39) || (0x41 ≤ n && n ≤ 0x5A) || (0x61 ≤ n && n ≤ 0x7A) || n == 0x20 ||
    n == 0x27 || n == 0x28 || n == 0x29 || n == 0x2B || n == 0x2C || n == 0x2D || n == 0x2E ||
    n == 0x2F || n == 0x3A || n == 0x3D || n == 0x3F

/-- Whether an octet is a decimal digit. -/
def isDigit (b : UInt8) : Bool :=
  0x30 ≤ b.toNat && b.toNat ≤ 0x39

/-- The numbers of pairs of decimal digits. -/
def digitPairs? : Bytes → Option (List Nat)
  | [] => some []
  | [_] => none
  | a :: b :: rest =>
    if isDigit a && isDigit b then
      (digitPairs? rest).map (((a.toNat - 0x30) * 10 + (b.toNat - 0x30)) :: ·)
    else none

/-- The days of a month. -/
def daysOf (year month : Nat) : Nat :=
  if month = 2 then
    if year % 4 = 0 ∧ (year % 100 ≠ 0 ∨ year % 400 = 0) then 29 else 28
  else if month = 4 ∨ month = 6 ∨ month = 9 ∨ month = 11 then 30
  else 31

/-- Whether numbers are a date and a time of day. -/
def isTime (year month day hour minute second : Nat) : Bool :=
  1 ≤ month && month ≤ 12 && 1 ≤ day && day ≤ daysOf year month && hour < 24 && minute < 60 &&
    second < 60

/-- Whether octets are a time with a year of two digits. -/
def isShortTime (b : Bytes) : Bool :=
  b.getLast? == some 0x5A &&
    match digitPairs? b.dropLast with
    | some [y, month, day, hour, minute, second] =>
      isTime ((if 50 ≤ y then 1900 else 2000) + y) month day hour minute second
    | _ => false

/-- Whether octets are a time with a year of four digits and perhaps a fraction of a second, with
or without a point. -/
def isLongTime (b : Bytes) : Bool :=
  let fraction := (b.drop 14).dropLast
  let digits := if fraction.head? = some 0x2E then fraction.drop 1 else fraction
  15 ≤ b.length && b.getLast? == some 0x5A && digits.all isDigit &&
    match digitPairs? (b.take 14) with
    | some [c, y, month, day, hour, minute, second] =>
      isTime (c * 100 + y) month day hour minute second
    | _ => false

/-- The value of a universal tag, if its content is well formed; `items` are the values that the
content holds, if it is a series of values. -/
def ofContent? (tag : Nat) (content : Bytes) (items : Option (List Asn1)) : Option Asn1 :=
  let othersIf (good : Bool) : Option Asn1 := if good then some .other else none
  match tag with
  | 0x01 => othersIf (content.length == 1)
  | 0x03 =>
    match content with
    | [] => some (.octets [])
    | unused :: bits => if 8 * bits.length < unused.toNat then none else some (.octets bits)
  | 0x04 => some (.octets content)
  | 0x06 => (identifier? content).map .identifier
  | 0x0C | 0x14 => othersIf (Utf8.decode? content).isSome
  | 0x10 => items.map .sequence
  | 0x11 => items.map fun _ => .other
  | 0x13 => othersIf (content.all isPlain)
  | 0x17 => othersIf (isShortTime content)
  | 0x18 => othersIf (isLongTime content)
  | _ => some .other

/-- Reads a series of values, which is not empty. Every value takes two octets at least, so that
`fuel` may be the number of octets. -/
def readSeries : (fuel : Nat) → Bytes → Option (List Asn1)
  | 0, _ => none
  | fuel + 1, text => do
    let ((cls, _, tag), rest) ← readTag text
    let (length, rest) ← readLength rest
    if rest.length < length then none
    else
      let content := rest.take length
      let value ←
        if cls = 0 then ofContent? tag content (readSeries fuel content) else some .other
      let rest := rest.drop length
      if rest.isEmpty then some [value]
      else (readSeries fuel rest).map (value :: ·)

/-- The values of a text, if it is a series of values. -/
def parse? (text : Bytes) : Option (List Asn1) :=
  if text.isEmpty then none else readSeries text.length text

mutual

/-- The object identifiers in sequences, from left to right and from outside to inside. -/
def identifiers : Asn1 → List (List Nat)
  | .sequence items => seriesIdentifiers items
  | .identifier arcs => [arcs]
  | .octets _ => []
  | .other => []

/-- The object identifiers in a series. -/
def seriesIdentifiers : List Asn1 → List (List Nat)
  | [] => []
  | item :: items => item.identifiers ++ seriesIdentifiers items

end

mutual

/-- The strings of octets in sequences, from left to right and from outside to inside. -/
def strings : Asn1 → List Bytes
  | .sequence items => seriesStrings items
  | .identifier _ => []
  | .octets b => [b]
  | .other => []

/-- The strings of octets in a series. -/
def seriesStrings : List Asn1 → List Bytes
  | [] => []
  | item :: items => item.strings ++ seriesStrings items

end

end Asn1

end RegistryConsole
