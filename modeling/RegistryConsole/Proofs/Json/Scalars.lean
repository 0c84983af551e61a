import RegistryConsole.Json.Reader
import RegistryConsole.Proofs.Utf8

/-! # Reading scalars back

What the writer writes for a string or an integer is what the reader reads it from. The text is read
off the start of any octets, as long as they do not go on with a number. -/

namespace RegistryConsole

namespace Json

/-! ## Strings -/

/-- Octets that stand for themselves are copied. -/
theorem readContent_plain {bs : Bytes}
    (hbs : ∀ b ∈ bs, b ≠ 0x22 ∧ b ≠ 0x5C ∧ 0x20 ≤ b.toNat) (known : Bytes) (n : Nat)
    (rest : Bytes) :
    readContent .plain known n (bs ++ rest) =
      readContent .plain (bs.reverse ++ known) (n + bs.length) rest := by
  induction bs generalizing known n with
  | nil => rfl
  | cons b bs ih =>
    obtain ⟨hquote, hslash, hcontrol⟩ := hbs b List.mem_cons_self
    have hstep : stringStep .plain b = .go .plain [b] := by
      rw [stringStep, if_neg hquote, if_neg hslash, if_neg (by omega)]
    rw [List.cons_append, readContent, hstep]
    dsimp only
    rw [ih fun x hx => hbs x (List.mem_cons_of_mem b hx)]
    simp [Nat.add_assoc, Nat.add_comm 1]

/-- A digit in base 16 has its value. -/
theorem hexValue?_digitChar {d : Nat} (hd : d < 16) :
    hexValue? (UInt8.ofNat (Nat.digitChar d).toNat) = some d := by
  have hall : ∀ d < 16, hexValue? (UInt8.ofNat (Nat.digitChar d).toNat) = some d := by decide
  exact hall d hd

/-- The escape of a control character is read back. -/
theorem readContent_control {c : Char} (hc : c.toNat < 0x20) (known : Bytes) (n : Nat)
    (rest : Bytes) :
    readContent .plain known n
      (0x5C :: 0x75 :: 0x30 :: 0x30 :: UInt8.ofNat (Nat.digitChar (c.toNat / 16)).toNat ::
        UInt8.ofNat (Nat.digitChar (c.toNat % 16)).toNat :: rest) =
      readContent .plain ((Utf8.encodeChar c).reverse ++ known) (n + 6) rest := by
  have hhigh := hexValue?_digitChar (d := c.toNat / 16) (by omega)
  have hlow := hexValue?_digitChar (d := c.toNat % 16) (by omega)
  have hzero : hexValue? 0x30 = some 0 := by decide
  have hvalue : c.toNat / 16 * 16 + c.toNat % 16 = c.toNat := by omega
  have hfinish : finishDigits none c.toNat = .go .plain (Utf8.encodeChar c) := by
    rw [finishDigits, if_neg (by omega), if_neg (by omega), Char.ofNat_toNat]
  simp [readContent, stringStep, hhigh, hlow, hzero, hvalue, hfinish]

/-- What is written for a character of a string is read as that character. -/
theorem readContent_escapedChar (c : Char) (known : Bytes) (n : Nat) (rest : Bytes) :
    readContent .plain known n (Utf8.encode (escapedChar c) ++ rest) =
      readContent .plain ((Utf8.encodeChar c).reverse ++ known)
        (n + (Utf8.encode (escapedChar c)).length) rest := by
  unfold escapedChar
  split
  · next h => subst h; rfl
  split
  · next h => subst h; rfl
  split
  · next h => subst h; rfl
  split
  · next h => subst h; rfl
  split
  · next h => subst h; rfl
  split
  · next h => subst h; rfl
  split
  · next h => subst h; rfl
  split
  · next hc =>
    have hdigit : ∀ d < 16, Utf8.encodeChar (Nat.digitChar d) =
        [UInt8.ofNat (Nat.digitChar d).toNat] := by decide
    have hhigh := hdigit (c.toNat / 16) (by omega)
    have hlow := hdigit (c.toNat % 16) (by omega)
    simp only [Utf8.encode_cons, Utf8.encode_nil, hhigh, hlow]
    exact readContent_control hc known n rest
  · next hquote hslash _ _ _ _ _ hcontrol =>
    rw [Utf8.encode_cons, Utf8.encode_nil, List.append_nil]
    -- no octet of the character is one that the reader takes for more than itself
    apply readContent_plain _ known n rest
    intro b hb
    by_cases hascii : c.toNat < 0x80
    · rw [Utf8.encodeChar_ascii hascii, List.mem_singleton] at hb
      have hb' : b.toNat = c.toNat := by
        rw [hb]
        exact Utf8.toNat_octet (by omega)
      refine ⟨?_, ?_, by omega⟩
      · rintro rfl
        exact hquote (Char.toNat_inj.1 hb'.symm)
      · rintro rfl
        exact hslash (Char.toNat_inj.1 hb'.symm)
    · have hb' := Utf8.le_of_mem_encodeChar (by omega) hb
      refine ⟨?_, ?_, by omega⟩
      · rintro rfl
        exact absurd hb' (by decide)
      · rintro rfl
        exact absurd hb' (by decide)

/-- What is written for the characters of a string is read as these characters. -/
theorem readContent_escaped (cs : List Char) (known : Bytes) (n : Nat) (rest : Bytes) :
    readContent .plain known n (Utf8.encode (cs.flatMap escapedChar) ++ 0x22 :: rest) =
      .ok (known.reverse ++ Utf8.encode cs,
        ⟨rest, n + (Utf8.encode (cs.flatMap escapedChar)).length + 1⟩) := by
  induction cs generalizing known n with
  | nil => simp [readContent, stringStep]
  | cons c cs ih =>
    rw [List.flatMap_cons, Utf8.encode_append, List.append_assoc, readContent_escapedChar, ih,
      List.reverse_append, List.reverse_reverse, List.append_assoc, Utf8.encode_cons,
      List.length_append, Nat.add_assoc n]

/-- A string that was written is read back. -/
theorem readString_stringText (s : String) (n : Nat) (rest : Bytes) :
    readString ⟨Utf8.encode (s.toList.flatMap escapedChar) ++ 0x22 :: rest, n⟩ =
      .ok (s, ⟨rest, n + (Utf8.encode (s.toList.flatMap escapedChar)).length + 1⟩) := by
  rw [readString, readContent_escaped]
  dsimp only
  rw [List.reverse_nil, List.nil_append, Utf8.toString?, Utf8.decode?_encode]
  dsimp only [Option.map_some]
  rw [String.ofList_toList]

/-- The octets of a string: its content between two quotes. -/
theorem encode_stringText (s : String) :
    Utf8.encode (stringText s) =
      0x22 :: (Utf8.encode (s.toList.flatMap escapedChar) ++ [0x22]) := by
  rw [stringText, Utf8.encode_append, Utf8.encode_cons]
  rfl

/-! ## Integers -/

/-- Whether what follows a number does not go on with it. -/
def EndsNumber (rest : Bytes) : Prop :=
  ∀ b ∈ rest.head?, (Cursor.digit? b).isNone ∧ b ≠ 0x2E ∧ b ≠ 0x65 ∧ b ≠ 0x45

theorem toNat_range_of_isDigit {c : Char} (hc : c.isDigit = true) :
    48 ≤ c.toNat ∧ c.toNat ≤ 57 := by
  simp only [Char.isDigit, Bool.and_eq_true, decide_eq_true_eq] at hc
  exact ⟨UInt32.le_iff_toNat_le.1 hc.1, UInt32.le_iff_toNat_le.1 hc.2⟩

/-- A decimal digit is an octet of its own, with its value. -/
theorem encodeChar_isDigit {c : Char} (hc : c.isDigit = true) :
    Utf8.encodeChar c = [UInt8.ofNat c.toNat] ∧
      Cursor.digit? (UInt8.ofNat c.toNat) = some (c.toNat - 48) := by
  have hrange := toNat_range_of_isDigit hc
  refine ⟨Utf8.encodeChar_ascii (by omega), ?_⟩
  rw [Cursor.digit?, Utf8.toNat_octet (by omega), if_pos (by omega)]

theorem le_ofDigitChars (ds : List Char) (s : Nat) : s ≤ Nat.ofDigitChars 10 ds s := by
  rw [Nat.ofDigitChars_eq_ofDigitChars_zero]
  have hpow : 0 < 10 ^ ds.length := Nat.pow_pos (by decide)
  exact Nat.le_trans (Nat.le_mul_of_pos_left s hpow) (Nat.le_add_right _ _)

/-- Digits whose value fits are all gathered. -/
theorem gatherFrom_digits {ds : List Char} (hds : ∀ c ∈ ds, c.isDigit = true) {s : Nat}
    (hfits : Nat.ofDigitChars 10 ds s < 0x10000000000000000) {rest : Bytes}
    (hrest : EndsNumber rest) (k n : Nat) :
    Cursor.gatherFrom s k n (Utf8.encode ds ++ rest) =
      (Nat.ofDigitChars 10 ds s, k + ds.length, ⟨rest, n + (Utf8.encode ds).length⟩) := by
  induction ds generalizing s k n with
  | nil =>
    rw [Utf8.encode_nil, List.nil_append, Nat.ofDigitChars_nil]
    cases rest with
    | nil => rfl
    | cons b rest =>
      have hnone := Option.isNone_iff_eq_none.1 (hrest b rfl).1
      simp [Cursor.gatherFrom, hnone]
  | cons c ds ih =>
    obtain ⟨hoctet, hdigit⟩ := encodeChar_isDigit (hds c List.mem_cons_self)
    rw [Nat.ofDigitChars_cons] at hfits ⊢
    have hvalue : s * 10 + (c.toNat - 48) = 10 * s + (c.toNat - '0'.toNat) := by
      rw [Nat.mul_comm]
      rfl
    have hlt : s * 10 + (c.toNat - 48) < 0x10000000000000000 := by
      rw [hvalue]
      exact Nat.lt_of_le_of_lt (le_ofDigitChars ds _) hfits
    rw [Utf8.encode_cons, hoctet, List.append_assoc, List.singleton_append, Cursor.gatherFrom,
      hdigit]
    dsimp only
    rw [if_pos hlt, hvalue, ih (fun x hx => hds x (List.mem_cons_of_mem c hx)) hfits]
    simp [Nat.add_assoc, Nat.add_comm 1]

/-- A zero at the start of the digits of a number is the only one. -/
theorem eq_nil_of_toDigits_eq {m : Nat} {cs : List Char} (h : Nat.toDigits 10 m = '0' :: cs) :
    cs = [] := by
  induction m using Nat.strongRecOn generalizing cs with
  | ind m ih =>
    by_cases hsmall : m < 10
    · rw [Nat.toDigits_of_lt_base hsmall] at h
      exact (List.cons.inj h).2.symm
    · rw [Nat.toDigits_of_base_le (by decide) (by omega)] at h
      cases hfront : Nat.toDigits 10 (m / 10) with
      | nil => exact absurd hfront Nat.toDigits_ne_nil
      | cons c front =>
        rw [hfront, List.cons_append] at h
        obtain ⟨rfl, rfl⟩ := List.cons.inj h
        -- the digits before the last one would be a single zero, but a tenth is no zero
        obtain rfl := ih (m / 10) (by omega) hfront
        have hvalue := Nat.ofDigitChars_ten_toDigits (n := m / 10)
        rw [hfront] at hvalue
        simp [Nat.ofDigitChars] at hvalue
        omega

/-- The digits of a number below 2⁶⁴ are read as a whole number. -/
theorem readNumber_toDigits (positive : Bool) {m : Nat} (hm : m < 0x10000000000000000)
    {rest : Bytes} (hrest : EndsNumber rest) (n : Nat) :
    readNumber positive ⟨Utf8.encode (Nat.toDigits 10 m) ++ rest, n⟩ =
      wholeNumber positive m ⟨rest, n + (Utf8.encode (Nat.toDigits 10 m)).length⟩ := by
  have hall : ∀ c ∈ Nat.toDigits 10 m, c.isDigit = true :=
    fun c hc => Nat.isDigit_of_mem_toDigits (by decide) (by decide) hc
  have hgather : Cursor.gather ⟨Utf8.encode (Nat.toDigits 10 m) ++ rest, n⟩ 0 =
      (m, 0 + (Nat.toDigits 10 m).length,
        ⟨rest, n + (Utf8.encode (Nat.toDigits 10 m)).length⟩) := by
    rw [Cursor.gather, gatherFrom_digits hall (by rwa [Nat.ofDigitChars_ten_toDigits]) hrest,
      Nat.ofDigitChars_ten_toDigits]
  have hend : ∀ t : Nat, Cursor.atDigit ⟨rest, t⟩ = false ∧
      Cursor.peek? ⟨rest, t⟩ ≠ some 0x2E ∧ Cursor.atExponent ⟨rest, t⟩ = false := by
    intro t
    cases rest with
    | nil => exact ⟨rfl, by simp [Cursor.peek?], rfl⟩
    | cons b rest =>
      obtain ⟨hdigit, hpoint, he, hE⟩ := hrest b rfl
      rw [Option.isNone_iff_eq_none] at hdigit
      simp [Cursor.atDigit, Cursor.peek?, Cursor.atExponent, hdigit, hpoint, he, hE]
  cases hdigits : Nat.toDigits 10 m with
  | nil => exact absurd hdigits Nat.toDigits_ne_nil
  | cons c cs =>
    rw [hdigits] at hgather hall
    obtain ⟨hoctet, hdigit⟩ := encodeChar_isDigit (hall c List.mem_cons_self)
    -- a zero at the start is the only digit, and none follows
    have hzero : ¬(UInt8.ofNat c.toNat = 0x30 ∧
        (Cursor.next ⟨UInt8.ofNat c.toNat :: (Utf8.encode cs ++ rest), n⟩).atDigit = true) := by
      rintro ⟨h30, hmore⟩
      have hc : c = '0' := by
        have hrange := toNat_range_of_isDigit (hall c List.mem_cons_self)
        have hcode := congrArg UInt8.toNat h30
        rw [Utf8.toNat_octet (by omega)] at hcode
        exact Char.toNat_inj.1 hcode
      rw [hc] at hdigits
      obtain rfl := eq_nil_of_toDigits_eq hdigits
      exact absurd hmore (by
        show ¬ Cursor.atDigit ⟨rest, n + 1⟩ = true
        rw [(hend _).1]
        simp)
    have hsplit : Utf8.encode (c :: cs) ++ rest =
        UInt8.ofNat c.toNat :: (Utf8.encode cs ++ rest) := by
      rw [Utf8.encode_cons, hoctet]
      rfl
    rw [hsplit] at hgather ⊢
    obtain ⟨hnodigit, hnopoint, hnoexp⟩ := hend (n + (Utf8.encode (c :: cs)).length)
    unfold readNumber
    dsimp only
    rw [if_neg (by rw [hdigit]; simp), if_neg hzero, hgather]
    dsimp only
    rw [if_neg (by rw [hnodigit]; simp), if_neg hnopoint, if_neg (by rw [hnoexp]; simp)]

/-- A whole number that fits 64 bits is an integer, except for a negative zero. -/
theorem wholeNumber_of_fits {positive : Bool} {m : Nat} {k : Int}
    (hk : (if positive = true then (m : Int) else -m) = k)
    (hfits : -0x8000000000000000 ≤ k ∧ k < 0x10000000000000000)
    (hsign : positive = true ∨ k < 0) (c : Cursor) :
    wholeNumber positive m c = .ok (.integer k hfits, c) := by
  subst hk
  rw [wholeNumber]
  exact dif_pos ⟨hfits, hsign⟩

/-! ## Tokens -/

/-- Nothing is passed over before an octet that is no white space. -/
theorem skipSpace_of_not_space {b : UInt8} (hb : Cursor.isSpace b = false) (rest : Bytes)
    (n : Nat) : Cursor.skipSpace ⟨b :: rest, n⟩ = ⟨b :: rest, n⟩ := by
  rw [Cursor.skipSpace, Cursor.skipFrom, hb]
  rfl

/-- A quote starts a string. -/
theorem readToken_quote (rest : Bytes) (n : Nat) :
    readToken ⟨0x22 :: rest, n⟩ =
      (readString ⟨rest, n + 1⟩).map fun p => (.string p.1, p.2) := rfl

/-- A minus sign starts a negative number. -/
theorem readToken_minus (rest : Bytes) (n : Nat) :
    readToken ⟨0x2D :: rest, n⟩ =
      (readNumber false ⟨rest, n + 1⟩).map fun p => (.number p.1, p.2) := rfl

/-- A digit starts a number without a sign. -/
theorem readToken_digit {b : UInt8} (hb : (Cursor.digit? b).isSome = true) (rest : Bytes)
    (n : Nat) :
    readToken ⟨b :: rest, n⟩ =
      (readNumber true ⟨b :: rest, n⟩).map fun p => (.number p.1, p.2) := by
  have hother : ∀ x : UInt8, Cursor.digit? x = none → b ≠ x := by
    rintro x hx rfl
    rw [hx] at hb
    exact absurd hb (by simp)
  have hspace : Cursor.isSpace b = false := by
    simp [Cursor.isSpace, hother 0x20 (by decide), hother 0x0A (by decide),
      hother 0x09 (by decide), hother 0x0D (by decide)]
  rw [readToken, skipSpace_of_not_space hspace]
  dsimp only [Cursor.rest]
  rw [if_neg (hother 0x5B (by decide)), if_neg (hother 0x7B (by decide)),
    if_neg (hother 0x22 (by decide)), if_neg (hother 0x2D (by decide)), if_pos hb]

/-- A string that was written is read back. -/
theorem readToken_stringText (s : String) (rest : Bytes) (n : Nat) :
    readToken ⟨Utf8.encode (stringText s) ++ rest, n⟩ =
      .ok (.string s, ⟨rest, n + (Utf8.encode (stringText s)).length⟩) := by
  rw [encode_stringText, List.cons_append, List.append_assoc, List.singleton_append,
    readToken_quote, readString_stringText]
  simp [Except.map, Nat.add_assoc, Nat.add_comm 1]

/-- An integer that was written is read back. -/
theorem readToken_integer {k : Int}
    (hfits : -0x8000000000000000 ≤ k ∧ k < 0x10000000000000000) {rest : Bytes}
    (hrest : EndsNumber rest) (n : Nat) :
    readToken ⟨Utf8.encode (Number.integerText k) ++ rest, n⟩ =
      .ok (.number (.integer k hfits),
        ⟨rest, n + (Utf8.encode (Number.integerText k)).length⟩) := by
  unfold Number.integerText
  split
  · next hneg =>
    have hminus : Utf8.encodeChar '-' = [0x2D] := rfl
    have hk : (if false = true then (k.natAbs : Int) else -k.natAbs) = k := by
      rw [if_neg (by simp)]
      omega
    rw [Utf8.encode_cons, hminus, List.append_assoc, List.singleton_append, readToken_minus,
      readNumber_toDigits false (by omega) hrest, wholeNumber_of_fits hk hfits (Or.inr hneg)]
    simp [Except.map, Nat.add_assoc, Nat.add_comm 1]
  · next hpos =>
    have hk : (if true = true then (k.natAbs : Int) else -k.natAbs) = k := by
      rw [if_pos rfl]
      omega
    have hnumber := readNumber_toDigits true (m := k.natAbs) (by omega) hrest n
    rw [wholeNumber_of_fits hk hfits (Or.inl rfl)] at hnumber
    cases hdigits : Nat.toDigits 10 k.natAbs with
    | nil => exact absurd hdigits Nat.toDigits_ne_nil
    | cons c cs =>
      have hc : c.isDigit = true :=
        Nat.isDigit_of_mem_toDigits (b := 10) (by decide) (by decide)
          (by rw [hdigits]; exact List.mem_cons_self)
      obtain ⟨hoctet, hdigit⟩ := encodeChar_isDigit hc
      rw [hdigits, Utf8.encode_cons, hoctet, List.append_assoc, List.singleton_append] at hnumber
      rw [Utf8.encode_cons, hoctet, List.append_assoc, List.singleton_append,
        readToken_digit (by rw [hdigit]; rfl), hnumber]
      rfl

end Json

end RegistryConsole
