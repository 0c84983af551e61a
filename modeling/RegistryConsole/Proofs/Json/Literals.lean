import Mathlib.Algebra.Field.Rat
import RegistryConsole.Json.Writer
import RegistryConsole.Proofs.Json.Integers

/-! # Numbers as they are written

A number that is written has a sign, digits, digits after a point and an exponent, of any length,
and denotes a rational number. What the reader makes of one that is written as an integer is told
here by its digits alone: the integer itself if it fits 64 bits, with or without a sign, and
otherwise the binary fraction that is made of the digits that fit. -/

namespace RegistryConsole

/-- The number that a decimal stands for. -/
def Decimal.value (d : Decimal) : ℚ :=
  d.digits * 10 ^ d.exponent

namespace Json

/-! ## Digits -/

/-- The digits at the start of a text. -/
def digitsOf : Bytes → List Char
  | [] => []
  | b :: rest => if (Cursor.digit? b).isSome then Char.ofNat b.toNat :: digitsOf rest else []

theorem digitsOf_nil_iff {c : Cursor} : digitsOf c.rest = [] ↔ c.atDigit = false := by
  obtain ⟨text, n⟩ := c
  cases text with
  | nil => exact ⟨fun _ => rfl, fun _ => rfl⟩
  | cons b rest =>
    have hat : Cursor.atDigit ⟨b :: rest, n⟩ = (Cursor.digit? b).isSome := rfl
    rw [hat, digitsOf]
    cases (Cursor.digit? b).isSome <;> simp

/-- After its digits a text goes on with something else. -/
theorem skipDigits_of_atDigit_eq_false {c : Cursor} (h : c.atDigit = false) : c.skipDigits = c := by
  obtain ⟨text, n⟩ := c
  cases text with
  | nil => rfl
  | cons b rest =>
    have hb : (Cursor.digit? b).isSome = false := h
    rw [Cursor.skipDigits, Cursor.skipDigitsFrom, if_neg (by simp [hb])]

theorem taken_skipDigitsFrom (n : Nat) (text : Bytes) :
    (Cursor.skipDigitsFrom n text).taken = n + (digitsOf text).length := by
  induction text generalizing n with
  | nil => rfl
  | cons b rest ih =>
    rw [Cursor.skipDigitsFrom, digitsOf]
    split
    · rw [ih, List.length_cons]
      omega
    · rfl

/-- The digit that an octet spells has its value. -/
theorem toNat_of_digit? {b : UInt8} {d : Nat} (h : Cursor.digit? b = some d) :
    (Char.ofNat b.toNat).toNat - 48 = d := by
  unfold Cursor.digit? at h
  split at h
  · obtain rfl := Option.some.inj h
    rw [Utf8.toNat_ofNat_octet]
  · exact absurd h (by simp)

/-- The value of the digits that fit 64 bits after a number, and the digits that are left. -/
def kept (s : Nat) : List Char → Nat × List Char
  | [] => (s, [])
  | c :: cs =>
    if s * 10 + (c.toNat - 48) < 0x10000000000000000 then kept (s * 10 + (c.toNat - 48)) cs
    else (s, c :: cs)

theorem ofDigitChars_cons_ten (c : Char) (cs : List Char) (s : Nat) :
    Nat.ofDigitChars 10 (c :: cs) s = Nat.ofDigitChars 10 cs (s * 10 + (c.toNat - 48)) := by
  rw [Nat.ofDigitChars_cons, Nat.mul_comm]
  rfl

/-- If no digit is left, the value is that of all of them. -/
theorem kept_of_nil {s : Nat} {ds : List Char} (h : (kept s ds).2 = []) :
    (kept s ds).1 = Nat.ofDigitChars 10 ds s := by
  induction ds generalizing s with
  | nil => rfl
  | cons c cs ih =>
    rw [kept] at h ⊢
    rw [ofDigitChars_cons_ten]
    split at h
    · next hfits =>
      rw [if_pos hfits]
      exact ih h
    · exact absurd h (by simp)

/-- Digits are left only if all of them are too much. -/
theorem le_of_kept {s : Nat} {ds : List Char} (h : (kept s ds).2 ≠ []) :
    0x10000000000000000 ≤ Nat.ofDigitChars 10 ds s := by
  induction ds generalizing s with
  | nil => exact absurd rfl h
  | cons c cs ih =>
    rw [kept] at h
    rw [ofDigitChars_cons_ten]
    split at h
    · exact ih h
    · next hlarge => exact Nat.le_trans (by omega) (le_ofDigitChars cs _)

/-- Gathering digits keeps those that fit and stops before the others. -/
theorem gatherFrom_eq (s k n : Nat) (text : Bytes) :
    (Cursor.gatherFrom s k n text).1 = (kept s (digitsOf text)).1 ∧
      digitsOf (Cursor.gatherFrom s k n text).2.2.rest = (kept s (digitsOf text)).2 ∧
      (Cursor.gatherFrom s k n text).2.2.skipDigits = Cursor.skipDigitsFrom n text := by
  induction text generalizing s k n with
  | nil => exact ⟨rfl, rfl, rfl⟩
  | cons b rest ih =>
    rw [Cursor.gatherFrom, digitsOf, Cursor.skipDigitsFrom]
    cases hb : Cursor.digit? b with
    | none =>
      refine ⟨rfl, ?_, ?_⟩
      · show digitsOf (b :: rest) = _
        rw [digitsOf, hb]
        rfl
      · show Cursor.skipDigitsFrom n (b :: rest) = _
        rw [Cursor.skipDigitsFrom, hb]
    | some d =>
      simp only [Option.isSome_some, ↓reduceIte]
      rw [kept, toNat_of_digit? hb]
      by_cases hfits : s * 10 + d < 0x10000000000000000
      · rw [if_pos hfits, if_pos hfits]
        exact ih _ _ _
      · rw [if_neg hfits, if_neg hfits]
        refine ⟨rfl, ?_, ?_⟩
        · show digitsOf (b :: rest) = _
          rw [digitsOf, hb]
          rfl
        · show Cursor.skipDigitsFrom n (b :: rest) = _
          rw [Cursor.skipDigitsFrom, hb]
          rfl

/-! ## Numerals -/

/-- A number as it is written. -/
structure Numeral where
  negative : Bool
  whole : List Char
  /-- The digits after the point, if there is one. -/
  fraction : Option (List Char)
  exponent : Option Int
  deriving DecidableEq

namespace Numeral

/-- Whether a number is written without a point and an exponent. -/
def IsInteger (n : Numeral) : Prop :=
  n.fraction = none ∧ n.exponent = none

/-- The integer that the digits before the point make up. -/
def integer (n : Numeral) : Int :=
  if n.negative then -(Nat.ofDigitChars 10 n.whole 0 : Int) else Nat.ofDigitChars 10 n.whole 0

/-- The number without its sign. -/
def decimal (n : Numeral) : Decimal where
  digits := Nat.ofDigitChars 10 (n.whole ++ n.fraction.getD []) 0
  exponent := n.exponent.getD 0 - (n.fraction.getD []).length

/-- The number that is denoted. -/
def value (n : Numeral) : ℚ :=
  if n.negative then -n.decimal.value else n.decimal.value

/-- An integer denotes itself. -/
theorem value_of_isInteger {n : Numeral} (h : n.IsInteger) : n.value = n.integer := by
  have hdecimal : n.decimal.value = (Nat.ofDigitChars 10 n.whole 0 : ℚ) := by
    rw [Decimal.value, decimal, h.1, h.2]
    simp
  rw [value, integer, hdecimal]
  cases n.negative <;> simp

/-- Whether an integer fits 64 bits, with or without a sign. -/
def Fits (n : Numeral) : Prop :=
  -0x8000000000000000 ≤ n.integer ∧ n.integer < 0x10000000000000000

instance (n : Numeral) : Decidable n.Fits :=
  inferInstanceAs (Decidable (_ ∧ _))

/-! ## What is read off a text -/

/-- Reads the exponent of a number, if there is one. -/
def readExponent (negative : Bool) (whole : List Char) (fraction : Option (List Char))
    (c : Cursor) : Numeral × Cursor :=
  if c.atExponent then
    let down := c.next.peek? == some 0x2D
    let c := if c.next.peek? = some 0x2B ∨ c.next.peek? = some 0x2D then c.next.next else c.next
    let e : Int := Nat.ofDigitChars 10 (digitsOf c.rest) 0
    (⟨negative, whole, fraction, some (if down then -e else e)⟩, c.skipDigits)
  else (⟨negative, whole, fraction, none⟩, c)

/-- Reads a number after its sign. -/
def readUnsigned (negative : Bool) (c : Cursor) : Numeral × Cursor :=
  let point := c.skipDigits
  if point.peek? = some 0x2E then
    readExponent negative (digitsOf c.rest) (some (digitsOf point.next.rest)) point.next.skipDigits
  else readExponent negative (digitsOf c.rest) none point

/-- Reads a number. -/
def read (c : Cursor) : Numeral × Cursor :=
  if c.peek? = some 0x2D then readUnsigned true c.next else readUnsigned false c

/-- What a number that is written as an integer is read as. -/
inductive Reads (n : Numeral) : Number → Prop
  | integer (hfits : n.Fits) (hsign : n.negative = false ∨ n.integer < 0) :
      Reads n (.integer n.integer hfits)
  | float {x : Binary64} (hsign : n.Fits → n.negative = true ∧ n.integer = 0)
      (hscaled : scaled? (kept 0 n.whole).1 (kept 0 n.whole).2.length = some x) :
      Reads n (signed (!n.negative) x)

end Numeral

/-! ## Reader and numerals -/

variable {positive : Bool} {s : Nat} {e : Int} {c after : Cursor} {x : Number}

theorem finishFloat_ok (h : finishFloat positive s e c = .ok (x, after)) :
    ∃ y, scaled? s e = some y ∧ x = signed positive y ∧ after = c := by
  unfold finishFloat at h
  split at h
  · next y hy =>
    obtain ⟨rfl, rfl⟩ := Prod.mk.inj (Except.ok.inj h)
    exact ⟨y, hy, rfl, rfl⟩
  · exact absurd h nofun

/-- The digits of an exponent are passed over, even those that are too much. -/
theorem exponentFrom_eq (e n : Nat) (text : Bytes) :
    ((Cursor.exponentFrom e n text).1.isSome →
      (Cursor.exponentFrom e n text).2 = Cursor.skipDigitsFrom n text) ∧
      (Cursor.exponentFrom e n text).2.skipDigits = Cursor.skipDigitsFrom n text := by
  induction text generalizing e n with
  | nil => exact ⟨fun _ => rfl, rfl⟩
  | cons b rest ih =>
    rw [Cursor.exponentFrom, Cursor.skipDigitsFrom]
    cases hb : Cursor.digit? b with
    | none =>
      refine ⟨fun _ => rfl, ?_⟩
      show Cursor.skipDigitsFrom n (b :: rest) = _
      rw [Cursor.skipDigitsFrom, hb]
    | some d =>
      simp only [Option.isSome_some, ↓reduceIte]
      split
      · exact ih _ _
      · exact ⟨fun hsome => absurd hsome (by simp), rfl⟩

/-- An exponent is read up to the end of its digits. -/
theorem readExponent_ok (h : readExponent positive s e c = .ok (x, after))
    (hc : c.atExponent = true) (negative : Bool) (whole : List Char)
    (fraction : Option (List Char)) :
    ∃ exponent, Numeral.readExponent negative whole fraction c =
      (⟨negative, whole, fraction, some exponent⟩, after) := by
  unfold Numeral.readExponent
  rw [if_pos hc]
  refine ⟨_, Prod.ext rfl ?_⟩
  dsimp only
  unfold readExponent at h
  dsimp only at h
  generalize (if c.next.peek? = some 0x2B ∨ c.next.peek? = some 0x2D then c.next.next
    else c.next) = start at h ⊢
  split at h
  · exact absurd h nofun
  · split at h
    · exact absurd h nofun
    · obtain ⟨hsome, hskip⟩ := exponentFrom_eq 0 start.taken start.rest
      split at h
      · next e' stop hexponent =>
        rw [hexponent] at hsome
        obtain ⟨_, _, _, rfl⟩ := finishFloat_ok h
        exact (hsome rfl).symm
      · next stop hexponent =>
        rw [hexponent] at hskip
        split at h
        · exact absurd h nofun
        · rw [← (Prod.mk.inj (Except.ok.inj h)).2]
          exact hskip.symm

/-- What follows the last digit is an exponent, or nothing that belongs to the number. -/
theorem readScale_ok (h : readScale positive s e c = .ok (x, after)) (negative : Bool)
    (whole : List Char) (fraction : Option (List Char)) :
    ∃ exponent, Numeral.readExponent negative whole fraction c =
        (⟨negative, whole, fraction, exponent⟩, after) ∧
      (exponent = none → finishFloat positive s e c = .ok (x, after)) := by
  unfold readScale at h
  split at h
  · next hc =>
    obtain ⟨exponent, hread⟩ := readExponent_ok h hc negative whole fraction
    exact ⟨some exponent, hread, fun hnone => absurd hnone (by simp)⟩
  · next hc =>
    refine ⟨none, ?_, fun _ => h⟩
    rw [Numeral.readExponent, if_neg hc, ← (finishFloat_ok h).choose_spec.2.2]

/-- A fraction is read up to its last digit, and then its exponent. -/
theorem readFraction_ok (h : readFraction positive s e c = .ok (x, after)) (negative : Bool)
    (whole fraction : List Char) :
    ∃ exponent, Numeral.readExponent negative whole (some fraction) c.next.skipDigits =
      (⟨negative, whole, some fraction, exponent⟩, after) := by
  obtain ⟨-, -, hskip⟩ := gatherFrom_eq s 0 c.next.taken c.next.rest
  have hgather : (c.next.gather s).2.2.skipDigits = c.next.skipDigits := hskip
  unfold readFraction at h
  generalize c.next.gather s = gathered at h hgather
  obtain ⟨t, k, stop⟩ := gathered
  dsimp only at h hgather
  rw [← hgather]
  split at h
  · obtain ⟨exponent, hread, -⟩ := readScale_ok h negative whole (some fraction)
    exact ⟨exponent, hread⟩
  · next hdigit =>
    rw [skipDigits_of_atDigit_eq_false (by simpa using hdigit)]
    split at h
    · split at h <;> exact absurd h faultNext_ne_ok
    · obtain ⟨exponent, hread, -⟩ := readScale_ok h negative whole (some fraction)
      exact ⟨exponent, hread⟩

/-- A whole number that fits is an integer, unless it is a zero with a sign. -/
theorem wholeNumber_ok {k : Int} (hk : (if positive = true then (s : Int) else -s) = k)
    (h : wholeNumber positive s c = .ok (x, after)) :
    (∃ hfits, (positive = true ∨ k < 0) ∧ x = .integer k hfits ∧ after = c) ∨
      ((-0x8000000000000000 ≤ k ∧ k < 0x10000000000000000 → positive = false ∧ k = 0) ∧
        finishFloat positive s 0 c = .ok (x, after)) := by
  rw [wholeNumber] at h
  simp only [hk] at h
  split at h
  · next hfits =>
    obtain ⟨rfl, rfl⟩ := Prod.mk.inj (Except.ok.inj h)
    exact Or.inl ⟨hfits.1, hfits.2, rfl, rfl⟩
  · next hfits =>
    refine Or.inr ⟨fun hrange => ?_, h⟩
    obtain ⟨hpositive, hneg⟩ := not_or.1 (not_and.1 hfits hrange)
    rw [Bool.not_eq_true] at hpositive
    rw [hpositive, if_neg (by simp)] at hk
    exact ⟨hpositive, by omega⟩

/-- With digits left, an integer is read as a fraction: it is too long for 64 bits. -/
theorem reads_of_kept_ne_nil {n : Numeral} (hsign : n.negative = !positive)
    (hmore : (kept 0 n.whole).2 ≠ []) {y : Binary64}
    (hy : scaled? (kept 0 n.whole).1 (kept 0 n.whole).2.length = some y) :
    n.Reads (signed positive y) := by
  have hlarge := le_of_kept hmore
  have hnot : ¬n.Fits := by
    intro hfits
    unfold Numeral.Fits Numeral.integer at hfits
    split at hfits <;> omega
  have hread := Numeral.Reads.float (fun hfits => absurd hfits hnot) hy
  rwa [hsign, Bool.not_not] at hread

/-- An integer of which no digit is left is read as a whole number. -/
theorem reads_of_wholeNumber {whole : List Char} (hall : (kept 0 whole).2 = [])
    (h : wholeNumber positive (kept 0 whole).1 c = .ok (x, after)) :
    after = c ∧ Numeral.Reads ⟨!positive, whole, none, none⟩ x := by
  have hinteger : (if positive = true then ((kept 0 whole).1 : Int) else -(kept 0 whole).1) =
      Numeral.integer ⟨!positive, whole, none, none⟩ := by
    rw [Numeral.integer, kept_of_nil hall]
    cases positive <;> rfl
  rcases wholeNumber_ok hinteger h with ⟨hfits, hsign, rfl, rfl⟩ | ⟨hsign, hfinish⟩
  · refine ⟨rfl, .integer hfits (hsign.imp (fun hpositive => ?_) id)⟩
    rw [hpositive]
    rfl
  · obtain ⟨y, hy, rfl, rfl⟩ := finishFloat_ok hfinish
    have hread := Numeral.Reads.float (n := ⟨!positive, whole, none, none⟩)
      (fun hfits => ?_) (by rw [hall]; exact hy)
    · rw [Bool.not_not] at hread
      exact ⟨rfl, hread⟩
    · obtain ⟨hnegative, hzero⟩ := hsign hfits
      exact ⟨by rw [hnegative]; rfl, hzero⟩

/-- A number that is read is the one that is written, and an integer is read by its digits. -/
theorem readNumber_ok (h : readNumber positive c = .ok (x, after)) :
    ∃ n, Numeral.readUnsigned (!positive) c = (n, after) ∧ (n.IsInteger → n.Reads x) := by
  obtain ⟨hsignificand, hleft, hskip⟩ := gatherFrom_eq 0 0 c.taken c.rest
  have hgather : (c.gather 0).1 = (kept 0 (digitsOf c.rest)).1 := hsignificand
  have hleft : digitsOf (c.gather 0).2.2.rest = (kept 0 (digitsOf c.rest)).2 := hleft
  have hskip : (c.gather 0).2.2.skipDigits = c.skipDigits := hskip
  unfold readNumber at h
  split at h
  · exact absurd h nofun
  split at h
  · exact absurd h nofun
  split at h
  · exact absurd h faultNext_ne_ok
  generalize c.gather 0 = gathered at h hgather hleft hskip
  obtain ⟨s, k, stop⟩ := gathered
  dsimp only at h hgather hleft hskip
  subst hgather
  unfold Numeral.readUnsigned
  dsimp only
  split at h
  · next hdigit =>
    -- not all digits fit
    have hmore : (kept 0 (digitsOf c.rest)).2 ≠ [] := by
      rw [← hleft, ne_eq, digitsOf_nil_iff, hdigit]
      simp
    rw [hskip] at h
    split at h
    · next hpoint =>
      rw [if_pos hpoint]
      obtain ⟨exponent, hread⟩ := readFraction_ok h (!positive) (digitsOf c.rest)
        (digitsOf c.skipDigits.next.rest)
      exact ⟨_, hread, fun hinteger => absurd hinteger.1 (by simp)⟩
    · next hpoint =>
      rw [if_neg hpoint]
      obtain ⟨exponent, hread, hfinish⟩ := readScale_ok h (!positive) (digitsOf c.rest) none
      refine ⟨_, hread, fun hinteger => ?_⟩
      obtain ⟨y, hy, rfl, -⟩ := finishFloat_ok (hfinish hinteger.2)
      have hdropped : (c.skipDigits.taken : Int) - stop.taken =
          (kept 0 (digitsOf c.rest)).2.length := by
        rw [← hskip, Cursor.skipDigits, taken_skipDigitsFrom, hleft]
        omega
      rw [hdropped] at hy
      exact reads_of_kept_ne_nil rfl hmore hy
  · next hdigit =>
    have hnone : digitsOf stop.rest = [] := digitsOf_nil_iff.2 (by simpa using hdigit)
    rw [skipDigits_of_atDigit_eq_false (by simpa using hdigit)] at hskip
    rw [hskip] at h
    split at h
    · next hpoint =>
      rw [if_pos hpoint]
      obtain ⟨exponent, hread⟩ := readFraction_ok h (!positive) (digitsOf c.rest)
        (digitsOf c.skipDigits.next.rest)
      exact ⟨_, hread, fun hinteger => absurd hinteger.1 (by simp)⟩
    next hpoint =>
    rw [if_neg hpoint]
    split at h
    · next hexponent =>
      obtain ⟨exponent, hread⟩ := readExponent_ok h hexponent (!positive) (digitsOf c.rest) none
      exact ⟨_, hread, fun hinteger => absurd hinteger.2 (by simp)⟩
    · next hexponent =>
      obtain ⟨rfl, hreads⟩ := reads_of_wholeNumber (hleft ▸ hnone) h
      exact ⟨_, if_neg hexponent, fun _ => hreads⟩

end Json

end RegistryConsole
