import RegistryConsole.Proofs.Json.Literals

/-! # How numbers are written

An integer is written with its digits, and a binary fraction as the shortest decimal that reads back
as it. Whatever the form, what is written denotes exactly that integer or that decimal, and is found
again by a reader, whatever follows. -/

namespace RegistryConsole

/-- What is written for a decimal. -/
def DecimalForm.numeral (form : DecimalForm) (negative : Bool) (d : Decimal) : Json.Numeral :=
  let digits := Nat.toDigits 10 d.digits
  let point : Int := digits.length + d.exponent
  if form.leastPoint ≤ point ∧ point ≤ form.greatestPoint then
    if 0 ≤ d.exponent then
      ⟨negative, digits ++ List.replicate d.exponent.toNat '0', some ['0'], none⟩
    else if 0 < point then
      ⟨negative, digits.take point.toNat, some (digits.drop point.toNat), none⟩
    else ⟨negative, ['0'], some (List.replicate (-point).toNat '0' ++ digits), none⟩
  else
    ⟨negative, digits.take 1, if digits.length = 1 then none else some (digits.drop 1),
      some (point - 1)⟩

/-- What is written for a number. -/
def Number.numeral : Number → Json.Numeral
  | .integer k _ => ⟨decide (k < 0), Nat.toDigits 10 k.natAbs, none, none⟩
  | .float x =>
    if x.significand = 0 then ⟨x.negative, ['0'], some ['0'], none⟩
    else floatForm.numeral x.negative x.shortest

namespace Json.Numeral

/-! ## Texts -/

/-- The text of a fraction. -/
def fractionText : Option (List Char) → List Char
  | none => []
  | some ds => '.' :: ds

/-- The text of an exponent, which always has a sign. -/
def exponentText : Option Int → List Char
  | none => []
  | some e => 'e' :: (if e < 0 then '-' else '+') :: Nat.toDigits 10 e.natAbs

/-- The text of a number. -/
def text (n : Numeral) : List Char :=
  (if n.negative then ['-'] else []) ++ n.whole ++ fractionText n.fraction ++
    exponentText n.exponent

/-- Whether all that should be digits are digits, and there is one before the point. -/
structure IsPlain (n : Numeral) : Prop where
  whole : ∀ c ∈ n.whole, c.isDigit = true
  starts : n.whole ≠ []
  fraction : ∀ ds ∈ n.fraction, ∀ c ∈ ds, c.isDigit = true

end Json.Numeral

open Json

theorem isDigit_toDigits (m : Nat) : ∀ c ∈ Nat.toDigits 10 m, c.isDigit = true :=
  fun _ hc => Nat.isDigit_of_mem_toDigits (by decide) (by decide) hc

theorem isDigit_zeros (k : Nat) : ∀ c ∈ List.replicate k '0', c.isDigit = true := by
  intro c hc
  rw [List.eq_of_mem_replicate hc]
  rfl

theorem DecimalForm.isPlain_numeral (form : DecimalForm) (negative : Bool) (d : Decimal) :
    (form.numeral negative d).IsPlain := by
  have hdigits := isDigit_toDigits d.digits
  have hsome : Nat.toDigits 10 d.digits ≠ [] := Nat.toDigits_ne_nil
  have htake : ∀ k, 0 < k → (Nat.toDigits 10 d.digits).take k ≠ [] := by
    intro k hk hnil
    rcases List.take_eq_nil_iff.1 hnil with hk' | hnil
    · omega
    · exact hsome hnil
  unfold numeral
  dsimp only
  split
  · split
    · have hwhole := List.forall_mem_append.2 ⟨hdigits, isDigit_zeros d.exponent.toNat⟩
      refine ⟨hwhole, List.append_ne_nil_of_left_ne_nil hsome _, fun ds hds => ?_⟩
      obtain rfl := Option.some.inj hds
      exact isDigit_zeros 1
    · split
      · refine ⟨fun c hc => hdigits c (List.mem_of_mem_take hc), htake _ (by omega), ?_⟩
        intro ds hds c hc
        obtain rfl := Option.some.inj hds
        exact hdigits c (List.mem_of_mem_drop hc)
      · refine ⟨isDigit_zeros 1, List.cons_ne_nil _ _, fun ds hds => ?_⟩
        obtain rfl := Option.some.inj hds
        exact List.forall_mem_append.2 ⟨isDigit_zeros _, hdigits⟩
  · refine ⟨fun c hc => hdigits c (List.mem_of_mem_take hc), htake 1 (by decide), ?_⟩
    intro ds hds c hc
    dsimp only at hds
    split at hds
    · exact absurd hds (by simp)
    · obtain rfl := Option.some.inj hds
      exact hdigits c (List.mem_of_mem_drop hc)

/-- What is written for a decimal is its text in the form. -/
theorem DecimalForm.text_numeral (form : DecimalForm) (negative : Bool) (d : Decimal) :
    (form.numeral negative d).text = (if negative then ['-'] else []) ++ form.write d := by
  unfold numeral write
  dsimp only
  split
  · split
    · simp [Numeral.text, Numeral.fractionText, Numeral.exponentText]
    · split
      · simp [Numeral.text, Numeral.fractionText, Numeral.exponentText]
      · simp [Numeral.text, Numeral.fractionText, Numeral.exponentText]
  · by_cases hone : (Nat.toDigits 10 d.digits).length = 1
    · simp [Numeral.text, Numeral.fractionText, Numeral.exponentText, hone]
    · simp [Numeral.text, Numeral.fractionText, Numeral.exponentText, hone]

/-- Zeros after a number make it that many times ten. -/
theorem ofDigitChars_replicate (k m : Nat) :
    Nat.ofDigitChars 10 (List.replicate k '0') m = m * Nat.pow 10 k := by
  induction k generalizing m with
  | zero => exact (Nat.mul_one m).symm
  | succ k ih =>
    rw [List.replicate_succ, ofDigitChars_cons_ten, ih]
    show (m * 10 + 0) * Nat.pow 10 k = m * (Nat.pow 10 k * 10)
    rw [Nat.add_zero, Nat.mul_assoc, Nat.mul_comm 10]

theorem Decimal.value_of_zero {d : Decimal} (h : d.digits = 0) : d.value = 0 := by
  rw [value, h, Nat.cast_zero, zero_mul]

/-- Digits are as many tenths with one more zero. -/
theorem Decimal.value_tenths (m k : Nat) :
    (Decimal.mk (m * Nat.pow 10 (k + 1)) (-1)).value = (Decimal.mk m k).value := by
  have hpow : ((Nat.pow 10 (k + 1) : ℕ) : ℚ) = 10 ^ (k + 1) := by
    rw [Nat.pow_eq, Nat.cast_pow]
    rfl
  have hten : (10 : ℚ) ≠ 0 := by decide
  calc (Decimal.mk (m * Nat.pow 10 (k + 1)) (-1)).value
      = (m : ℚ) * 10 ^ (k + 1) * 10⁻¹ := by
        rw [value, Nat.cast_mul, hpow, zpow_neg_one]
    _ = (m : ℚ) * 10 ^ k := by
        rw [pow_succ, mul_assoc, mul_assoc, mul_inv_cancel₀ hten, mul_one]
    _ = (Decimal.mk m k).value := by
        rw [value, zpow_natCast]

/-- A numeral is a decimal if it has its digits, and the point is where its exponent puts it. -/
theorem Json.Numeral.decimal_eq {n : Numeral} {d : Decimal}
    (hdigits : Nat.ofDigitChars 10 (n.whole ++ n.fraction.getD []) 0 = d.digits)
    (hexponent : n.exponent.getD 0 - (n.fraction.getD []).length = d.exponent) :
    n.decimal = d := by
  rw [decimal, hdigits, hexponent]

theorem DecimalForm.negative_numeral (form : DecimalForm) (negative : Bool) (d : Decimal) :
    (form.numeral negative d).negative = negative := by
  unfold numeral
  dsimp only
  split
  · split
    · rfl
    · split <;> rfl
  · rfl

/-- Whatever the form, a decimal is written as what it is. -/
theorem DecimalForm.value_numeral (form : DecimalForm) (negative : Bool) (d : Decimal) :
    (form.numeral negative d).value = if negative then -d.value else d.value := by
  suffices h : (form.numeral negative d).decimal.value = d.value by
    rw [Numeral.value, negative_numeral, h]
  have hdigits : Nat.ofDigitChars 10 (Nat.toDigits 10 d.digits) 0 = d.digits :=
    Nat.ofDigitChars_ten_toDigits
  have hpositive : 0 < (Nat.toDigits 10 d.digits).length :=
    List.length_pos_iff.2 Nat.toDigits_ne_nil
  unfold numeral
  dsimp only
  split
  · split
    · next hexponent =>
      -- the digit after the point makes the digits ten times as much
      have hdecimal : Numeral.decimal ⟨negative,
          Nat.toDigits 10 d.digits ++ List.replicate d.exponent.toNat '0', some ['0'], none⟩ =
          ⟨d.digits * Nat.pow 10 (d.exponent.toNat + 1), -1⟩ := by
        refine Numeral.decimal_eq ?_ rfl
        have hzeros : List.replicate d.exponent.toNat '0' ++ ['0'] =
            List.replicate (d.exponent.toNat + 1) '0' := List.replicate_succ'.symm
        rw [Option.getD_some, List.append_assoc, hzeros, Nat.ofDigitChars_append, hdigits,
          ofDigitChars_replicate]
      rw [hdecimal, Decimal.value_tenths, Int.toNat_of_nonneg hexponent]
    · next hexponent =>
      split
      · next hpoint =>
        refine congrArg Decimal.value (Numeral.decimal_eq ?_ ?_)
        · rw [Option.getD_some, List.take_append_drop, hdigits]
        · rw [Option.getD_some, Option.getD_none, List.length_drop]
          omega
      · next hpoint =>
        refine congrArg Decimal.value (Numeral.decimal_eq ?_ ?_)
        · rw [Option.getD_some, List.singleton_append, ← List.cons_append, ← List.replicate_succ,
            Nat.ofDigitChars_append, ofDigitChars_replicate, Nat.zero_mul, hdigits]
        · rw [Option.getD_some, Option.getD_none, List.length_append, List.length_replicate]
          omega
  · have hdrop : (if (Nat.toDigits 10 d.digits).length = 1 then none
        else some ((Nat.toDigits 10 d.digits).drop 1)).getD [] =
        (Nat.toDigits 10 d.digits).drop 1 := by
      split
      · next hone => exact (List.drop_eq_nil_of_le (by omega)).symm
      · rfl
    refine congrArg Decimal.value (Numeral.decimal_eq ?_ ?_)
    · rw [hdrop, List.take_append_drop, hdigits]
    · rw [hdrop, Option.getD_some, List.length_drop]
      omega

/-! ## What is written for a number -/

namespace Number

theorem isPlain_numeral (x : Number) : x.numeral.IsPlain := by
  cases x with
  | integer k hfits => exact ⟨isDigit_toDigits _, Nat.toDigits_ne_nil, nofun⟩
  | float x =>
    rw [numeral]
    split
    · refine ⟨isDigit_zeros 1, List.cons_ne_nil _ _, fun ds hds => ?_⟩
      obtain rfl := Option.some.inj hds
      exact isDigit_zeros 1
    · exact floatForm.isPlain_numeral x.negative x.shortest

/-- The text of a number is what is written for it. -/
theorem text_numeral (x : Number) : x.numeral.text = x.text := by
  cases x with
  | integer k hfits =>
    show Numeral.text _ = integerText k
    unfold integerText
    by_cases hneg : k < 0
    · simp [numeral, Numeral.text, Numeral.fractionText, Numeral.exponentText, hneg]
    · simp [numeral, Numeral.text, Numeral.fractionText, Numeral.exponentText, hneg]
  | float x =>
    show (numeral (.float x)).text = floatText x
    rw [numeral, floatText]
    split
    · simp [Numeral.text, Numeral.fractionText, Numeral.exponentText]
    · exact floatForm.text_numeral x.negative x.shortest

/-- An integer is written as itself. -/
theorem value_numeral_integer (k : Int)
    (hfits : -0x8000000000000000 ≤ k ∧ k < 0x10000000000000000) :
    (numeral (.integer k hfits)).value = k := by
  rw [Numeral.value_of_isInteger ⟨rfl, rfl⟩]
  refine congrArg (Int.cast : Int → ℚ) ?_
  unfold numeral Numeral.integer
  dsimp only
  rw [Nat.ofDigitChars_ten_toDigits]
  by_cases hneg : k < 0
  · rw [if_pos (decide_eq_true hneg)]
    omega
  · rw [if_neg (by simpa using hneg)]
    omega

/-- A binary fraction is written as its shortest decimal. -/
theorem value_numeral_float (x : Binary64) :
    (numeral (.float x)).value =
      if x.negative then -x.shortest.value else x.shortest.value := by
  rw [numeral]
  split
  · next hzero =>
    have hshortest : x.shortest = ⟨0, 0⟩ := if_pos hzero
    have hdigits : (Numeral.mk x.negative ['0'] (some ['0']) none).decimal.digits = 0 := rfl
    rw [hshortest, Numeral.value, Decimal.value_of_zero hdigits, Decimal.value_of_zero rfl]
  · exact floatForm.value_numeral x.negative x.shortest

end Number

/-! ## Reading back what is written -/

namespace Json

/-- Digits are found before what is no digit. -/
theorem digitsOf_append {ds : List Char} (hds : ∀ c ∈ ds, c.isDigit = true) {rest : Bytes}
    (hrest : ∀ b ∈ rest.head?, Cursor.digit? b = none) (n : Nat) :
    digitsOf (Utf8.encode ds ++ rest) = ds ∧
      Cursor.skipDigitsFrom n (Utf8.encode ds ++ rest) =
        ⟨rest, n + (Utf8.encode ds).length⟩ := by
  induction ds generalizing n with
  | nil =>
    rw [Utf8.encode_nil, List.nil_append]
    cases rest with
    | nil => exact ⟨rfl, rfl⟩
    | cons b rest =>
      have hb := hrest b rfl
      rw [digitsOf, Cursor.skipDigitsFrom, hb]
      exact ⟨rfl, rfl⟩
  | cons c ds ih =>
    have hc := hds c List.mem_cons_self
    obtain ⟨hoctet, hdigit⟩ := encodeChar_isDigit hc
    obtain ⟨hrange, hmax⟩ := toNat_range_of_isDigit hc
    obtain ⟨hof, hskip⟩ := ih (fun x hx => hds x (List.mem_cons_of_mem c hx)) (n + 1)
    rw [Utf8.encode_cons, hoctet, List.append_assoc, List.singleton_append, digitsOf,
      Cursor.skipDigitsFrom, hdigit]
    simp only [Option.isSome_some, ↓reduceIte]
    refine ⟨?_, ?_⟩
    · rw [hof, Utf8.toNat_octet (by omega), Char.ofNat_toNat]
    · rw [hskip, List.length_append, List.length_singleton, Nat.add_assoc]

namespace Numeral

/-- What follows the digits of a number that is written is no digit, and no point either, unless it
is that of the fraction. -/
theorem head?_exponentText (exponent : Option Int) {rest : Bytes} (hrest : EndsNumber rest) :
    ∀ b ∈ (Utf8.encode (exponentText exponent) ++ rest).head?,
      Cursor.digit? b = none ∧ b ≠ 0x2E := by
  intro b hb
  cases exponent with
  | none =>
    obtain ⟨hdigit, hpoint, -⟩ := hrest b hb
    exact ⟨Option.isNone_iff_eq_none.1 hdigit, hpoint⟩
  | some e =>
    obtain rfl : (0x65 : UInt8) = b := Option.some.inj hb
    decide

/-- After its letter and a sign, an exponent goes on as long as there are digits. -/
theorem readExponent_sign {b : UInt8} (hb : b = 0x2B ∨ b = 0x2D) (negative : Bool)
    (whole : List Char) (fraction : Option (List Char)) (text : Bytes) (n : Nat) :
    readExponent negative whole fraction ⟨0x65 :: b :: text, n⟩ =
      (⟨negative, whole, fraction, some (
          if b = 0x2D then -(Nat.ofDigitChars 10 (digitsOf text) 0 : Int)
          else Nat.ofDigitChars 10 (digitsOf text) 0)⟩,
        Cursor.skipDigitsFrom (n + 2) text) := by
  rcases hb with rfl | rfl <;> rfl

/-- An exponent that is written is read back. -/
theorem readExponent_text (negative : Bool) (whole : List Char) (fraction : Option (List Char))
    (exponent : Option Int) {rest : Bytes} (hrest : EndsNumber rest) (n : Nat) :
    readExponent negative whole fraction ⟨Utf8.encode (exponentText exponent) ++ rest, n⟩ =
      (⟨negative, whole, fraction, exponent⟩,
        ⟨rest, n + (Utf8.encode (exponentText exponent)).length⟩) := by
  cases exponent with
  | none =>
    have hnone : Cursor.atExponent ⟨rest, n⟩ = false := by
      cases rest with
      | nil => rfl
      | cons b rest =>
        obtain ⟨-, -, hlower, hupper⟩ := hrest b rfl
        simp [Cursor.atExponent, Cursor.peek?, hlower, hupper]
    have htext : Utf8.encode (exponentText none) ++ rest = rest := rfl
    rw [htext, readExponent, if_neg (by simp [hnone])]
    rfl
  | some e =>
    have hnext : ∀ b ∈ rest.head?, Cursor.digit? b = none :=
      fun b hb => Option.isNone_iff_eq_none.1 (hrest b hb).1
    obtain ⟨hof, hskip⟩ := digitsOf_append (isDigit_toDigits e.natAbs) hnext (n + 2)
    have hvalue : Nat.ofDigitChars 10 (Nat.toDigits 10 e.natAbs) 0 = e.natAbs :=
      Nat.ofDigitChars_ten_toDigits
    let sign : UInt8 := if e < 0 then 0x2D else 0x2B
    have hsign : sign = 0x2B ∨ sign = 0x2D := by
      by_cases hneg : e < 0
      · exact Or.inr (if_pos hneg)
      · exact Or.inl (if_neg hneg)
    have hexponent : (if sign = 0x2D then -(e.natAbs : Int) else e.natAbs) = e := by
      by_cases hneg : e < 0
      · rw [if_pos (if_pos hneg)]
        omega
      · have hplus : sign = 0x2B := if_neg hneg
        rw [hplus, if_neg (by decide)]
        omega
    have htext : Utf8.encode (exponentText (some e)) =
        0x65 :: sign :: Utf8.encode (Nat.toDigits 10 e.natAbs) := by
      rw [exponentText]
      dsimp only [sign]
      split <;> rfl
    rw [htext, List.cons_append, List.cons_append, readExponent_sign hsign, hof, hskip, hvalue,
      hexponent]
    refine Prod.ext rfl ?_
    simp only [List.length_cons, Cursor.mk.injEq, true_and]
    omega

/-- A number without its sign is read back. -/
theorem readUnsigned_text {n : Numeral} (hn : n.IsPlain) {rest : Bytes} (hrest : EndsNumber rest)
    (k : Nat) :
    let text := n.whole ++ fractionText n.fraction ++ exponentText n.exponent
    readUnsigned n.negative ⟨Utf8.encode text ++ rest, k⟩ =
      (n, ⟨rest, k + (Utf8.encode text).length⟩) := by
  obtain ⟨negative, whole, fraction, exponent⟩ := n
  intro text
  have htext : Utf8.encode text ++ rest = Utf8.encode whole ++
      (Utf8.encode (fractionText fraction) ++ (Utf8.encode (exponentText exponent) ++ rest)) := by
    rw [Utf8.encode_append, Utf8.encode_append, List.append_assoc, List.append_assoc]
  have hlength : (Utf8.encode text).length = (Utf8.encode whole).length +
      (Utf8.encode (fractionText fraction)).length +
      (Utf8.encode (exponentText exponent)).length := by
    rw [Utf8.encode_append, Utf8.encode_append, List.length_append, List.length_append]
  have hexponent := head?_exponentText exponent hrest
  have hfraction : ∀ b ∈ (Utf8.encode (fractionText fraction) ++
      (Utf8.encode (exponentText exponent) ++ rest)).head?, Cursor.digit? b = none := by
    cases fraction with
    | none => exact fun b hb => (hexponent b hb).1
    | some ds =>
      intro b hb
      obtain rfl : (0x2E : UInt8) = b := Option.some.inj hb
      rfl
  obtain ⟨hof, hskip⟩ := digitsOf_append hn.whole hfraction k
  have hskip' : Cursor.skipDigits ⟨Utf8.encode text ++ rest, k⟩ = ⟨_, _⟩ :=
    (congrArg (Cursor.skipDigitsFrom k) htext).trans hskip
  rw [readUnsigned]
  dsimp only
  rw [hskip', htext, hof, hlength]
  cases fraction with
  | none =>
    have hread := readExponent_text negative whole none exponent hrest
      (k + (Utf8.encode whole).length)
    have hnone : Utf8.encode (fractionText none) = [] := rfl
    have hnopoint : ∀ k, Cursor.peek? ⟨Utf8.encode (exponentText exponent) ++ rest, k⟩ ≠
        some 0x2E := fun _ hpoint => (hexponent _ hpoint).2 rfl
    rw [hnone, List.nil_append, if_neg (hnopoint _), hread, List.length_nil, Nat.add_zero,
      Nat.add_assoc]
  | some ds =>
    obtain ⟨hof', hskip'⟩ := digitsOf_append (hn.fraction ds rfl) (fun b hb => (hexponent b hb).1)
      (k + (Utf8.encode whole).length + 1)
    have hread := readExponent_text negative whole (some ds) exponent hrest
      (k + (Utf8.encode whole).length + 1 + (Utf8.encode ds).length)
    have hsome : Utf8.encode (fractionText (some ds)) = 0x2E :: Utf8.encode ds := rfl
    have hpoint : ∀ (text : Bytes) (k : Nat), Cursor.peek? ⟨0x2E :: text, k⟩ = some 0x2E :=
      fun _ _ => rfl
    rw [hsome, List.cons_append, if_pos (hpoint _ _)]
    dsimp only [Cursor.next, Cursor.skipDigits]
    rw [hof', hskip', hread]
    refine Prod.ext rfl ?_
    simp only [List.length_cons, Cursor.mk.injEq, true_and]
    omega

/-- What is written for a number is found again. -/
theorem read_text {n : Numeral} (hn : n.IsPlain) {rest : Bytes} (hrest : EndsNumber rest)
    (k : Nat) :
    read ⟨Utf8.encode n.text ++ rest, k⟩ = (n, ⟨rest, k + (Utf8.encode n.text).length⟩) := by
  have hunsigned := readUnsigned_text hn hrest
  cases hnegative : n.negative with
  | true =>
    have htext : Utf8.encode n.text = 0x2D ::
        Utf8.encode (n.whole ++ fractionText n.fraction ++ exponentText n.exponent) := by
      rw [text, hnegative]
      rfl
    have hsign : ∀ (text : Bytes) (k : Nat),
        read ⟨0x2D :: text, k⟩ = readUnsigned true ⟨text, k + 1⟩ := fun _ _ => rfl
    rw [hnegative] at hunsigned
    rw [htext, List.cons_append, hsign, hunsigned, List.length_cons, Nat.add_assoc, Nat.add_comm 1]
  | false =>
    have htext : n.text = n.whole ++ fractionText n.fraction ++ exponentText n.exponent := by
      rw [text, hnegative]
      rfl
    have hfirst : Cursor.peek? ⟨Utf8.encode n.text ++ rest, k⟩ ≠ some 0x2D := by
      cases hwhole : n.whole with
      | nil => exact absurd hwhole hn.starts
      | cons c cs =>
        obtain ⟨hoctet, hdigit⟩ := encodeChar_isDigit (hn.whole c (hwhole ▸ List.mem_cons_self))
        rw [htext, hwhole]
        simp only [List.cons_append, Utf8.encode_cons, hoctet, Cursor.peek?, List.head?_cons]
        intro hminus
        have hnone : Cursor.digit? 0x2D = none := by decide
        rw [Option.some.inj hminus, hnone] at hdigit
        exact absurd hdigit (by simp)
    rw [hnegative] at hunsigned
    rw [read, if_neg hfirst, htext, hunsigned]

end Numeral

end Json

end RegistryConsole
