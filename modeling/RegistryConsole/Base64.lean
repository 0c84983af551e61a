import RegistryConsole.Bytes

/-! # Base64

Three octets are four symbols of six bits. The standard form fills the last group up with padding,
and reading accepts no other form; the form for URLs has two other symbols and no padding. -/

namespace RegistryConsole.Base64

/-- The symbol of a number below 62; the last two differ between the forms. -/
def symbol (sixtyTwo sixtyThree : UInt8) (n : Nat) : UInt8 :=
  if n < 26 then UInt8.ofNat (0x41 + n)
  else if n < 52 then UInt8.ofNat (0x61 + (n - 26))
  else if n < 62 then UInt8.ofNat (0x30 + (n - 52))
  else if n = 62 then sixtyTwo
  else sixtyThree

/-- The symbols of the standard form. -/
def standard : Nat → UInt8 := symbol 0x2B 0x2F

/-- The symbols of the form for URLs. -/
def forUrls : Nat → UInt8 := symbol 0x2D 0x5F

/-- The padding octet. -/
def padding : UInt8 := 0x3D

/-- Writes octets in groups of three; `fill` pads the last group. -/
def encodeWith (symbol : Nat → UInt8) (fill : Nat → Bytes) : Bytes → Bytes
  | a :: b :: c :: rest =>
    let n := a.toNat * 65536 + b.toNat * 256 + c.toNat
    symbol (n / 262144) :: symbol (n / 4096 % 64) :: symbol (n / 64 % 64) :: symbol (n % 64) ::
      encodeWith symbol fill rest
  | [a, b] =>
    let n := a.toNat * 1024 + b.toNat * 4
    symbol (n / 4096) :: symbol (n / 64 % 64) :: symbol (n % 64) :: fill 1
  | [a] =>
    let n := a.toNat * 16
    symbol (n / 64) :: symbol (n % 64) :: fill 2
  | [] => []

/-- The standard form. -/
def encode (b : Bytes) : Bytes :=
  encodeWith standard (fun n => List.replicate n padding) b

/-- The form for URLs. -/
def encodeForUrls (b : Bytes) : Bytes :=
  encodeWith forUrls (fun _ => []) b

/-- Why octets are not the standard form of anything. -/
inductive Fault where
  | symbol (b : UInt8) (offset : Nat)
  | length (n : Nat)
  | lastSymbol (b : UInt8) (offset : Nat)
  | padding
  deriving DecidableEq

/-- The text of a fault. -/
def Fault.message : Fault → String
  | .symbol b offset =>
    "Invalid symbol " ++ toString b.toNat ++ ", offset " ++ toString offset ++ "."
  | .length n => "Invalid input length: " ++ toString n
  | .lastSymbol b offset =>
    "Invalid last symbol " ++ toString b.toNat ++ ", offset " ++ toString offset ++ "."
  | .padding => "Invalid padding"

/-- The number of a symbol of the standard form. -/
def value? (b : UInt8) : Option Nat :=
  let n := b.toNat
  if 0x41 ≤ n ∧ n ≤ 0x5A then some (n - 0x41)
  else if 0x61 ≤ n ∧ n ≤ 0x7A then some (n - 0x61 + 26)
  else if 0x30 ≤ n ∧ n ≤ 0x39 then some (n - 0x30 + 52)
  else if n = 0x2B then some 62
  else if n = 0x2F then some 63
  else none

/-- The number of a symbol at an offset. -/
def valueAt (offset : Nat) (b : UInt8) : Except Fault Nat :=
  match value? b with
  | some n => .ok n
  | none => .error (.symbol b offset)

/-- The symbols of the last group with their numbers. `index` octets of the group were read before,
and `firstPad` is where its padding starts, if it has started. -/
def lastSymbols (offset : Nat) :
    (index : Nat) → (firstPad : Option Nat) → Bytes → Except Fault (List (UInt8 × Nat))
  | _, _, [] => .ok []
  | index, firstPad, b :: rest =>
    if b = padding then
      if index < 2 then .error (.symbol b (offset + index))
      else lastSymbols offset (index + 1) (some (firstPad.getD index)) rest
    else match firstPad with
      | some i => .error (.symbol padding (offset + i))
      | none =>
        match valueAt (offset + index) b with
        | .error f => .error f
        | .ok n => (lastSymbols offset (index + 1) none rest).map ((b, n) :: ·)

/-- Reads the last group, of at most four octets. -/
def decodeLast (offset : Nat) (group : Bytes) : Except Fault Bytes :=
  match lastSymbols offset 0 none group with
  | .error f => .error f
  | .ok symbols =>
    match symbols, group.length with
    | [], 0 => .ok []
    | [(_, a), (y, b)], 4 =>
      if b % 16 = 0 then .ok [UInt8.ofNat (a * 4 + b / 16)] else .error (.lastSymbol y (offset + 1))
    | [(_, a), (_, b), (z, c)], 4 =>
      if c % 4 = 0 then
        .ok [UInt8.ofNat (a * 4 + b / 16), UInt8.ofNat (b % 16 * 16 + c / 4)]
      else .error (.lastSymbol z (offset + 2))
    | [(_, a), (_, b), (_, c), (_, d)], 4 =>
      .ok [UInt8.ofNat (a * 4 + b / 16), UInt8.ofNat (b % 16 * 16 + c / 4),
        UInt8.ofNat (c % 4 * 64 + d)]
    | [], _ => .error (.length offset)
    | [_], _ => .error (.length (offset + 1))
    | _, _ => .error .padding

/-- Reads groups of four octets. The last one stands apart, since it may have padding. -/
def decodeFrom (offset : Nat) : Bytes → Except Fault Bytes
  | a :: b :: c :: d :: e :: rest => do
    let a ← valueAt offset a
    let b ← valueAt (offset + 1) b
    let c ← valueAt (offset + 2) c
    let d ← valueAt (offset + 3) d
    let more ← decodeFrom (offset + 4) (e :: rest)
    .ok (UInt8.ofNat (a * 4 + b / 16) :: UInt8.ofNat (b % 16 * 16 + c / 4) ::
      UInt8.ofNat (c % 4 * 64 + d) :: more)
  | last => decodeLast offset last

/-- The octets of a standard form. A wrong octet at the very end that makes a group of one is
reported first. -/
def decode (text : Bytes) : Except Fault Bytes :=
  match text.getLast? with
  | some b =>
    if text.length % 4 = 1 ∧ b ≠ padding ∧ (value? b).isNone then
      .error (.symbol b (text.length - 1))
    else decodeFrom 0 text
  | none => .ok []

end RegistryConsole.Base64
