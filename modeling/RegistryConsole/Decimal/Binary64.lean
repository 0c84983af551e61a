/-! # Binary fractions of 64 bits

The finite numbers of the binary64 format with exact rounding, as sign, significand and power of
two. Every operation computes the exact ratio first and rounds it once, to the nearest number and
from the middle between two to the even one. -/

namespace RegistryConsole

/-- The number `significand · 2 ^ exponent` with a sign; zero has a sign too. The significand has
at most 53 bits, and exactly 53 unless the exponent is the least one, -1074. -/
structure Binary64 where
  negative : Bool
  significand : Nat
  exponent : Int
  deriving DecidableEq

namespace Binary64

/-- The least exponent. -/
def leastExponent : Int := -1074

/-- The greatest exponent. -/
def greatestExponent : Int := 971

/-- Whether a number is one of the format. -/
structure IsFormatted (x : Binary64) : Prop where
  significand : x.significand < 0x20000000000000
  least : leastExponent ≤ x.exponent
  greatest : x.exponent ≤ greatestExponent

instance (x : Binary64) : Decidable x.IsFormatted :=
  decidable_of_iff (x.significand < 0x20000000000000 ∧ leastExponent ≤ x.exponent ∧
    x.exponent ≤ greatestExponent) ⟨fun h => ⟨h.1, h.2.1, h.2.2⟩, fun h => ⟨h.1, h.2, h.3⟩⟩

/-- Zero without a sign. -/
def zero : Binary64 := ⟨false, 0, leastExponent⟩

/-- The number with the opposite sign. -/
def neg (x : Binary64) : Binary64 :=
  { x with negative := !x.negative }

/-- Whether two numbers are equal as numbers: the two zeros are. -/
def sameValue (x y : Binary64) : Bool :=
  x == y || (x.significand == 0 && y.significand == 0)

/-- The whole number nearest to `num / den`, from the middle the even one. -/
def nearestEven (num den : Nat) : Nat :=
  let q := num / den
  let r := num % den
  if 2 * r > den || (2 * r == den && q % 2 == 1) then q + 1 else q

/-- `num / den` in units of `2 ^ e`, as a ratio. -/
def inUnits (num den : Nat) (e : Int) : Nat × Nat :=
  (num * Nat.pow 2 (-e).toNat, den * Nat.pow 2 e.toNat)

/-- The unit in which `num / den` has 53 binary digits before the point, or the least one. -/
def unitOf (num den : Nat) : Int :=
  let guess : Int := (num.log2 : Int) - (den.log2 : Int) - 53
  let scaled := inUnits num den guess
  max leastExponent (if scaled.1 / scaled.2 < Nat.pow 2 53 then guess else guess + 1)

/-- The number nearest to `num / den`, unless it is too large for the format. -/
def ofRatio? (negative : Bool) (num den : Nat) : Option Binary64 :=
  if num = 0 then some ⟨negative, 0, leastExponent⟩
  else
    let e := unitOf num den
    let scaled := inUnits num den e
    let m := nearestEven scaled.1 scaled.2
    let x : Binary64 :=
      if m = Nat.pow 2 53 then ⟨negative, Nat.pow 2 52, e + 1⟩ else ⟨negative, m, e⟩
    if greatestExponent < x.exponent then none else some x

/-- The product of `x` and the number nearest to the whole number `n`. -/
def mulNat? (x : Binary64) (n : Nat) : Option Binary64 :=
  (ofRatio? false n 1).bind fun y =>
    let e := x.exponent + y.exponent
    ofRatio? x.negative (x.significand * y.significand * Nat.pow 2 e.toNat) (Nat.pow 2 (-e).toNat)

/-- The quotient of `x` and the number nearest to the whole number `n`, which is not zero. -/
def divNat? (x : Binary64) (n : Nat) : Option Binary64 :=
  (ofRatio? false n 1).bind fun y =>
    let e := x.exponent - y.exponent
    ofRatio? x.negative (x.significand * Nat.pow 2 e.toNat) (y.significand * Nat.pow 2 (-e).toNat)

end Binary64

end RegistryConsole
