import RegistryConsole.Json.Cursor

/-! # Reading numbers

The digits of a number are gathered into a significand of at most 64 bits. Digits that no longer
fit are dropped, and those before the point count into the exponent. A number that is not a whole
number of 64 bits is the significand, scaled by a power of ten. -/

namespace RegistryConsole.Json

namespace Cursor

/-- Gathers digits while the significand stays below 2⁶⁴, and counts them. -/
def gatherFrom : (significand count taken : Nat) → (rest : Bytes) → Nat × Nat × Cursor
  | s, k, n, [] => (s, k, ⟨[], n⟩)
  | s, k, n, b :: rest =>
    match digit? b with
    | none => (s, k, ⟨b :: rest, n⟩)
    | some d =>
      if s * 10 + d < 0x10000000000000000 then gatherFrom (s * 10 + d) (k + 1) (n + 1) rest
      else (s, k, ⟨b :: rest, n⟩)

/-- Gathers digits into a significand: the significand, how many digits were gathered, and the
place after them. -/
def gather (c : Cursor) (significand : Nat) : Nat × Nat × Cursor :=
  gatherFrom significand 0 c.taken c.rest

/-- Reads the digits of an exponent. When the exponent does not fit 31 bits, reading stops after
the digit that is too much, and there is no exponent. -/
def exponentFrom : (exponent taken : Nat) → (rest : Bytes) → Option Nat × Cursor
  | e, n, [] => (some e, ⟨[], n⟩)
  | e, n, b :: rest =>
    match digit? b with
    | none => (some e, ⟨b :: rest, n⟩)
    | some d =>
      if e * 10 + d < 0x80000000 then exponentFrom (e * 10 + d) (n + 1) rest
      else (none, ⟨rest, n + 1⟩)

end Cursor

/-- Divides by powers of ten that the format holds, until the exponent is used up or nothing but
zero is left. -/
def scaleDown : (steps : Nat) → Binary64 → (exponent : Nat) → Option Binary64
  | 0, x, _ => some x
  | steps + 1, x, e =>
    if e ≤ 308 then x.divNat? (Nat.pow 10 e)
    else if x.significand = 0 then some x
    else (x.divNat? (Nat.pow 10 308)).bind fun y => scaleDown steps y (e - 308)

/-- The significand scaled by a power of ten; nothing when the result is too large. The
significand is rounded first, then every step. -/
def scaled? (significand : Nat) (exponent : Int) : Option Binary64 :=
  (Binary64.ofRatio? false significand 1).bind fun x =>
    if 0 ≤ exponent then
      if x.significand = 0 then some x
      else if exponent ≤ 308 then x.mulNat? (Nat.pow 10 exponent.toNat)
      else none
    else scaleDown 4 x exponent.natAbs

/-- The number with its sign. -/
def signed (positive : Bool) (x : Binary64) : Number :=
  .float (if positive then x else x.neg)

/-- The number of a significand and an exponent, read up to `c`. -/
def finishFloat (positive : Bool) (significand : Nat) (exponent : Int) (c : Cursor) :
    Except Fault (Number × Cursor) :=
  match scaled? significand exponent with
  | some x => .ok (signed positive x, c)
  | none => c.fault .numberRange

/-- Reads an exponent from its letter on. -/
def readExponent (positive : Bool) (significand : Nat) (exponent : Int) (c : Cursor) :
    Except Fault (Number × Cursor) :=
  let c := c.next
  let up := c.peek? != some 0x2D
  let c := if c.peek? = some 0x2B ∨ c.peek? = some 0x2D then c.next else c
  match c.rest with
  | [] => c.fault .endOfValue
  | b :: _ =>
    match Cursor.digit? b with
    | none => c.next.fault .invalidNumber
    | some _ =>
      match Cursor.exponentFrom 0 c.taken c.rest with
      | (some e, c) =>
        finishFloat positive significand (if up then exponent + e else exponent - e) c
      | (none, c) =>
        if significand ≠ 0 ∧ up then c.fault .numberRange
        else .ok (signed positive .zero, c.skipDigits)

/-- Whether the next octet starts an exponent. -/
def Cursor.atExponent (c : Cursor) : Bool :=
  c.peek? == some 0x65 || c.peek? == some 0x45

/-- Goes on after the last digit: an exponent, or the end of the number. -/
def readScale (positive : Bool) (significand : Nat) (exponent : Int) (c : Cursor) :
    Except Fault (Number × Cursor) :=
  if c.atExponent then readExponent positive significand exponent c
  else finishFloat positive significand exponent c

/-- Reads a fraction from its point on. -/
def readFraction (positive : Bool) (significand : Nat) (exponent : Int) (c : Cursor) :
    Except Fault (Number × Cursor) :=
  let (s, k, c) := c.next.gather significand
  if c.atDigit then readScale positive s (exponent - k) c.skipDigits
  else if k = 0 then
    if c.rest.isEmpty then c.faultNext .endOfValue else c.faultNext .invalidNumber
  else readScale positive s (exponent - k) c

/-- A whole number: an integer when it fits 64 bits, and a negative zero is a float. -/
def wholeNumber (positive : Bool) (significand : Nat) (c : Cursor) :
    Except Fault (Number × Cursor) :=
  let n : Int := if positive then significand else -significand
  if h : (-0x8000000000000000 ≤ n ∧ n < 0x10000000000000000) ∧ (positive = true ∨ n < 0) then
    .ok (.integer n h.1, c)
  else finishFloat positive significand 0 c

/-- Reads a number from its first digit on. -/
def readNumber (positive : Bool) (c : Cursor) : Except Fault (Number × Cursor) :=
  match c.rest with
  | [] => c.fault .endOfValue
  | b :: _ =>
    if (Cursor.digit? b).isNone then c.next.fault .invalidNumber
    else if b = 0x30 ∧ c.next.atDigit then c.next.faultNext .invalidNumber
    else
      let (s, _, after) := c.gather 0
      if after.atDigit then
        let whole := after.skipDigits
        let dropped : Int := whole.taken - after.taken
        if whole.peek? = some 0x2E then readFraction positive s dropped whole
        else readScale positive s dropped whole
      else if after.peek? = some 0x2E then readFraction positive s 0 after
      else if after.atExponent then readExponent positive s 0 after
      else wholeNumber positive s after

end RegistryConsole.Json
