/-! # Punycode

Labels of host names with characters beyond ASCII are written in ASCII: first the ASCII
characters, then where the others are to be inserted, as differences in a number system whose
digits are letters and decimal digits. -/

namespace RegistryConsole.Punycode

/-- The character of a digit. -/
def digit (d : Nat) : Char :=
  if d < 26 then Char.ofNat (0x61 + d) else Char.ofNat (0x30 + (d - 26))

/-- The digit of a character. -/
def value? (c : Char) : Option Nat :=
  let n := c.toNat
  if 0x61 ≤ n ∧ n ≤ 0x7A then some (n - 0x61)
  else if 0x41 ≤ n ∧ n ≤ 0x5A then some (n - 0x41)
  else if 0x30 ≤ n ∧ n ≤ 0x39 then some (n - 0x30 + 26)
  else none

/-- The digits below this number end a difference. -/
def threshold (place bias : Nat) : Nat :=
  if place ≤ bias then 1 else if bias + 26 ≤ place then 26 else place - bias

theorem threshold_bounds (place bias : Nat) :
    1 ≤ threshold place bias ∧ threshold place bias ≤ 26 := by
  unfold threshold
  split
  · omega
  · split <;> omega

/-- Divides a large difference until it is small, and counts the places. -/
def shrink (delta place : Nat) : Nat × Nat :=
  if h : 455 < delta then shrink (delta / 35) (place + 36) else (delta, place)
termination_by delta
decreasing_by exact Nat.div_lt_self (by omega) (by omega)

/-- The bias after a difference, when `count` characters are there. -/
def adapt (delta count : Nat) (first : Bool) : Nat :=
  let d := if first then delta / 700 else delta / 2
  let (rest, place) := shrink (d + d / count) 0
  place + 36 * rest / (rest + 38)

/-- The digits of a difference. -/
def encodeNumber (bias place q : Nat) : List Char :=
  let t := threshold place bias
  if h : q < t then [digit q]
  else digit (t + (q - t) % (36 - t)) :: encodeNumber bias (place + 36) ((q - t) / (36 - t))
termination_by q
decreasing_by
  have := threshold_bounds place bias
  have := Nat.div_le_self (q - threshold place bias) (36 - threshold place bias)
  omega

/-- Where the encoding of the characters beyond ASCII has got to. -/
structure Progress where
  written : List Char
  delta : Nat
  bias : Nat
  /-- How many characters are written. -/
  count : Nat

/-- One character seen while those with the code `code` are inserted. -/
def seeChar (code basic : Nat) (p : Progress) (c : Char) : Progress :=
  if c.toNat < code then { p with delta := p.delta + 1 }
  else if c.toNat = code then
    ⟨p.written ++ encodeNumber p.bias 36 p.delta, 0,
      adapt p.delta (p.count + 1) (p.count == basic), p.count + 1⟩
  else p

/-- Inserts the characters beyond ASCII, those with the smallest code first. -/
def encodeCodes (label : List Char) (basic : Nat) :
    (codes : List Nat) → (next : Nat) → Progress → List Char
  | [], _, p => p.written
  | code :: codes, next, p =>
    let p := { p with delta := p.delta + (code - next) * (p.count + 1) }
    let p := label.foldl (seeChar code basic) p
    encodeCodes label basic codes (code + 1) { p with delta := p.delta + 1 }

/-- The list with a number in its place. -/
def insertCode (n : Nat) : List Nat → List Nat
  | [] => [n]
  | m :: ms => if n < m then n :: m :: ms else if n = m then m :: ms else m :: insertCode n ms

/-- A label in ASCII, without a mark that says so. -/
def encode (label : List Char) : List Char :=
  let basic := label.filter fun c => c.toNat < 0x80
  let codes := (label.filter fun c => 0x80 ≤ c.toNat).foldr (fun c ms => insertCode c.toNat ms) []
  basic ++ (if basic.isEmpty then [] else ['-']) ++
    encodeCodes label basic.length codes 0x80 ⟨[], 0, 72, basic.length⟩

/-- Reads a difference: the number it leads to from `from`, and what is left. -/
def decodeNumber (bias : Nat) : (place weight start : Nat) → List Char → Option (Nat × List Char)
  | _, _, _, [] => none
  | place, weight, i, c :: rest =>
    match value? c with
    | none => none
    | some d =>
      let t := threshold place bias
      if d < t then some (i + d * weight, rest)
      else decodeNumber bias (place + 36) (weight * (36 - t)) (i + d * weight) rest

/-- Inserts characters as the differences say; `fuel` bounds how many. -/
def decodeCodes : (fuel : Nat) → (bias code start : Nat) → (label rest : List Char) →
    Option (List Char)
  | _, _, _, _, label, [] => some label
  | 0, _, _, _, _, _ => none
  | fuel + 1, bias, code, i, label, rest =>
    match decodeNumber bias 36 1 i rest with
    | none => none
    | some (j, rest) =>
      let count := label.length + 1
      let code := code + j / count
      if 0x10FFFF < code ∨ (0xD800 ≤ code ∧ code ≤ 0xDFFF) then none
      else
        let at_ := j % count
        decodeCodes fuel (adapt (j - i) count (i == 0)) code (at_ + 1)
          (label.take at_ ++ Char.ofNat code :: label.drop at_) rest

/-- The label that was written in ASCII. The last hyphen ends the ASCII characters. -/
def decode? (text : List Char) : Option (List Char) :=
  let tail := (text.reverse.takeWhile (· != '-')).reverse
  let basic := text.take (text.length - tail.length - 1)
  if basic.any fun c => 0x80 ≤ c.toNat then none
  else decodeCodes tail.length 72 0x80 0 basic tail

end RegistryConsole.Punycode
