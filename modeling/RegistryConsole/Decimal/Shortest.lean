import RegistryConsole.Decimal.Binary64

/-! # Shortest decimals

The shortest decimal that reads back as a given binary fraction: of all decimals nearer to it than
to any other binary fraction, one with the fewest digits, and of those the nearest. -/

namespace RegistryConsole

/-- The number `digits · 10 ^ exponent`. -/
structure Decimal where
  digits : Nat
  exponent : Int
  deriving DecidableEq

namespace Decimal

/-- The same number without zeros at the end of the digits; `fuel` bounds how many are cut. -/
def strip : (fuel : Nat) → Decimal → Decimal
  | 0, d => d
  | fuel + 1, d =>
    if d.digits ≠ 0 ∧ d.digits % 10 = 0 then strip fuel ⟨d.digits / 10, d.exponent + 1⟩ else d

end Decimal

namespace Binary64

/-- The power of ten of the first digit of a number that is not zero. -/
def leadingPower (x : Binary64) : Int :=
  let scaled :=
    x.significand * Nat.pow 10 350 * Nat.pow 2 x.exponent.toNat / Nat.pow 2 (-x.exponent).toNat
  ((Nat.toDigits 10 scaled).length : Int) - 351

/-- How far below a number the middle to the next smaller one lies, in quarters of its unit. -/
def gapBelow (x : Binary64) : Nat :=
  if x.significand = Nat.pow 2 52 ∧ leastExponent < x.exponent then 1 else 2

/-- The multiple of `10 ^ k` nearest to `x` among those that read back as `x`. -/
def nearestMultiple? (x : Binary64) (k : Int) : Option Nat :=
  let f := x.exponent - 2
  let a := Nat.pow 10 k.toNat * Nat.pow 2 (-f).toNat
  let b := Nat.pow 2 f.toNat * Nat.pow 10 (-k).toNat
  let value := 4 * x.significand * b
  let low := (4 * x.significand - gapBelow x) * b
  let high := (4 * x.significand + 2) * b
  let readsBack (c : Nat) : Bool :=
    if x.significand % 2 = 0 then low ≤ c * a && c * a ≤ high else low < c * a && c * a < high
  let below := value / a
  let above := below + 1
  match readsBack below, readsBack above with
  | false, false => none
  | true, false => some below
  | false, true => some above
  | true, true =>
    let d := value - below * a
    let u := above * a - value
    some (if d < u || (d == u && below % 2 == 0) then below else above)

/-- The first power of ten, going down from `k`, with a multiple that reads back as `x`. -/
def shortestFrom (x : Binary64) : (fuel : Nat) → (k : Int) → Decimal
  | 0, k => ⟨0, k⟩
  | fuel + 1, k =>
    match nearestMultiple? x k with
    | some c => ⟨c, k⟩
    | none => shortestFrom x fuel (k - 1)

/-- The shortest decimal that reads back as `x`, without its sign. Eighteen powers of ten are
enough, since seventeen digits tell any two numbers apart. -/
def shortest (x : Binary64) : Decimal :=
  if x.significand = 0 then ⟨0, 0⟩
  else (shortestFrom x 19 (leadingPower x + 1)).strip 20

end Binary64

end RegistryConsole
