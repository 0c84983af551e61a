import RegistryConsole.Decimal.Shortest
import RegistryConsole.Json.Number

/-! # What rounding gives

The number nearest to a ratio has the sign that it is asked for, at most 53 binary digits, and an
exponent in the range of the format. So has every number that is made of a significand and a power
of ten. -/

namespace RegistryConsole

namespace Binary64

variable {x y : Binary64} {num den : Nat} {negative : Bool}

/-- A ratio in greater units is smaller. -/
theorem inUnits_lt_of_le {num den bound : Nat} {e f : Int} (hle : e ≤ f)
    (h : (inUnits num den e).1 < bound * (inUnits num den e).2) :
    (inUnits num den f).1 < bound * (inUnits num den f).2 := by
  obtain ⟨k, hk⟩ := Int.le.dest hle
  have hsum : f.toNat + (-e).toNat = k + (e.toNat + (-f).toNat) := by omega
  have hpow : 2 ^ f.toNat * 2 ^ (-e).toNat = 2 ^ k * (2 ^ e.toNat * 2 ^ (-f).toNat) := by
    rw [← Nat.pow_add, ← Nat.pow_add, ← Nat.pow_add, hsum]
  have hstep : num * 2 ^ (-e).toNat < bound * (den * 2 ^ e.toNat) := h
  show num * 2 ^ (-f).toNat < bound * (den * 2 ^ f.toNat)
  apply Nat.lt_of_mul_lt_mul_right (a := 2 ^ (-e).toNat)
  calc num * 2 ^ (-f).toNat * 2 ^ (-e).toNat
      = num * 2 ^ (-e).toNat * 2 ^ (-f).toNat := Nat.mul_right_comm _ _ _
    _ < bound * (den * 2 ^ e.toNat) * 2 ^ (-f).toNat :=
        Nat.mul_lt_mul_of_pos_right hstep (Nat.pow_pos (by decide))
    _ = bound * den * (2 ^ e.toNat * 2 ^ (-f).toNat) := by
        rw [← Nat.mul_assoc, Nat.mul_assoc (bound * den)]
    _ ≤ bound * den * (2 ^ k * (2 ^ e.toNat * 2 ^ (-f).toNat)) :=
        Nat.mul_le_mul_left _ (Nat.le_mul_of_pos_left _ (Nat.pow_pos (by decide)))
    _ = bound * (den * 2 ^ f.toNat) * 2 ^ (-e).toNat := by
        rw [← hpow, ← Nat.mul_assoc, ← Nat.mul_assoc]

/-- In its unit a ratio has at most 53 binary digits before the point. -/
theorem inUnits_unitOf_lt (hden : 0 < den) :
    (inUnits num den (unitOf num den)).1 <
      0x20000000000000 * (inUnits num den (unitOf num den)).2 := by
  have hpos : ∀ e : Int, 0 < (inUnits num den e).2 := fun e =>
    Nat.mul_pos hden (Nat.pow_pos (by decide))
  unfold unitOf
  dsimp only
  split
  · next hguess =>
    refine inUnits_lt_of_le (Int.le_max_right _ _) ?_
    exact (Nat.div_lt_iff_lt_mul (hpos _)).1 hguess
  · -- the next unit is enough, whatever the leading digits are
    refine inUnits_lt_of_le (Int.le_max_right _ _) ?_
    generalize he : (num.log2 : Int) - den.log2 - 53 + 1 = e
    have hnum : num < 2 ^ (num.log2 + 1) := Nat.lt_log2_self
    have hlead : 2 ^ den.log2 ≤ den := Nat.log2_self_le (by omega)
    have hsum : num.log2 + 1 + (-e).toNat = 53 + (den.log2 + e.toNat) := by omega
    show num * 2 ^ (-e).toNat < 2 ^ 53 * (den * 2 ^ e.toNat)
    calc num * 2 ^ (-e).toNat
        < 2 ^ (num.log2 + 1) * 2 ^ (-e).toNat :=
          Nat.mul_lt_mul_of_pos_right hnum (Nat.pow_pos (by decide))
      _ = 2 ^ 53 * (2 ^ den.log2 * 2 ^ e.toNat) := by
          rw [← Nat.pow_add, hsum, Nat.pow_add, Nat.pow_add]
      _ ≤ 2 ^ 53 * (den * 2 ^ e.toNat) :=
          Nat.mul_le_mul_left _ (Nat.mul_le_mul_right _ hlead)

theorem nearestEven_le (num den : Nat) : nearestEven num den ≤ num / den + 1 := by
  unfold nearestEven
  dsimp only
  split <;> omega

/-- The number nearest to a ratio has the sign that was asked for, and is one of the format. -/
theorem ofRatio?_ok (h : ofRatio? negative num den = some x) :
    x.negative = negative ∧ x.IsFormatted := by
  unfold ofRatio? at h
  split at h
  · obtain rfl := Option.some.inj h
    exact ⟨rfl, (by decide : 0 < 0x20000000000000), Int.le_refl _,
      (by decide : leastExponent ≤ greatestExponent)⟩
  · dsimp only at h
    have hleast : leastExponent ≤ unitOf num den := Int.le_max_left _ _
    have hsignificand : nearestEven (inUnits num den (unitOf num den)).1
        (inUnits num den (unitOf num den)).2 ≤ 0x20000000000000 := by
      refine Nat.le_trans (nearestEven_le _ _) ?_
      by_cases hden : den = 0
      · have hnone : (inUnits num den (unitOf num den)).2 = 0 := by
          rw [hden]
          exact Nat.zero_mul _
        rw [hnone, Nat.div_zero]
        decide
      · exact Nat.div_lt_of_lt_mul (by
          rw [Nat.mul_comm]
          exact inUnits_unitOf_lt (Nat.pos_of_ne_zero hden))
    -- a significand of 54 digits is a power of two, and carries into the exponent
    split at h
    · split at h
      · exact absurd h nofun
      · next hgreatest =>
        obtain rfl := Option.some.inj h
        exact ⟨rfl, (by decide : 0x10000000000000 < 0x20000000000000),
          Int.le_trans hleast (Int.le_add_of_nonneg_right (by decide)), Int.not_lt.1 hgreatest⟩
    · next hcarry =>
      split at h
      · exact absurd h nofun
      · next hgreatest =>
        obtain rfl := Option.some.inj h
        exact ⟨rfl, Nat.lt_of_le_of_ne hsignificand hcarry, hleast, Int.not_lt.1 hgreatest⟩

theorem mulNat?_ok {n : Nat} (h : x.mulNat? n = some y) :
    y.negative = x.negative ∧ y.IsFormatted := by
  obtain ⟨_, -, hy⟩ := Option.bind_eq_some_iff.1 h
  exact ofRatio?_ok hy

theorem divNat?_ok {n : Nat} (h : x.divNat? n = some y) :
    y.negative = x.negative ∧ y.IsFormatted := by
  obtain ⟨_, -, hy⟩ := Option.bind_eq_some_iff.1 h
  exact ofRatio?_ok hy

/-- The sign of a number plays no part in its digits. -/
theorem shortest_neg (x : Binary64) : x.neg.shortest = x.shortest := by
  have hfrom : ∀ (fuel : Nat) (k : Int), x.neg.shortestFrom fuel k = x.shortestFrom fuel k := by
    intro fuel
    induction fuel with
    | zero => exact fun _ => rfl
    | succ fuel ih =>
      intro k
      have hmultiple : x.neg.nearestMultiple? k = x.nearestMultiple? k := rfl
      rw [shortestFrom, shortestFrom, hmultiple, ih]
  have hleading : x.neg.leadingPower = x.leadingPower := rfl
  have hsignificand : x.neg.significand = x.significand := rfl
  rw [shortest, shortest, hsignificand, hfrom, hleading]

end Binary64

namespace Json

open Binary64

theorem scaleDown_ok {steps e : Nat} {x y : Binary64} (hx : x.IsFormatted)
    (h : scaleDown steps x e = some y) : y.negative = x.negative ∧ y.IsFormatted := by
  induction steps generalizing x e with
  | zero =>
    obtain rfl := Option.some.inj h
    exact ⟨rfl, hx⟩
  | succ steps ih =>
    rw [scaleDown] at h
    split at h
    · exact divNat?_ok h
    · split at h
      · obtain rfl := Option.some.inj h
        exact ⟨rfl, hx⟩
      · obtain ⟨z, hz, hy⟩ := Option.bind_eq_some_iff.1 h
        obtain ⟨hsign, hformatted⟩ := divNat?_ok hz
        exact hsign ▸ ih hformatted hy

/-- What is made of a significand and a power of ten has no sign, and is a number of the format. -/
theorem scaled?_ok {significand : Nat} {exponent : Int} {x : Binary64}
    (h : scaled? significand exponent = some x) : x.negative = false ∧ x.IsFormatted := by
  obtain ⟨y, hy, hx⟩ := Option.bind_eq_some_iff.1 h
  obtain ⟨hsign, hformatted⟩ := ofRatio?_ok hy
  split at hx
  · split at hx
    · obtain rfl := Option.some.inj hx
      exact ⟨hsign, hformatted⟩
    · split at hx
      · exact hsign ▸ mulNat?_ok hx
      · exact absurd hx (by simp)
  · exact hsign ▸ scaleDown_ok hformatted hx

end Json

end RegistryConsole
