import RegistryConsole.Text.Utf8

/-! # Decoding UTF-8 is exact

Octets that decode to a text are the encoding of that text: no character has a second, overlong
spelling, and nothing decodes to the code of no character. -/

namespace RegistryConsole

/-- An octet is the one of its number. -/
theorem ofNat_eq_of_toNat {b : UInt8} {n : Nat} (h : n = b.toNat) : UInt8.ofNat n = b := by
  rw [h, UInt8.ofNat_toNat]

namespace Utf8

/-! ## Octets and characters -/

/-- The character of a code has that code, unless the code is that of no character. -/
theorem toNat_ofNat_of_valid {n : Nat} (h : n < 0xD800 ∨ 0xDFFF < n ∧ n < 0x110000) :
    (Char.ofNat n).toNat = n := by
  rw [Char.ofNat, dif_pos h]
  rfl

/-- The character of an octet has its code. -/
theorem toNat_ofNat_octet (b : UInt8) : (Char.ofNat b.toNat).toNat = b.toNat := by
  have hbound := b.toNat_lt
  exact toNat_ofNat_of_valid (by omega)

/-- An ASCII character is one octet. -/
theorem encodeChar_ascii {c : Char} (hc : c.toNat < 0x80) :
    encodeChar c = [UInt8.ofNat c.toNat] := by
  rw [encodeChar]
  exact if_pos hc

/-- The octets of other characters lie above the ASCII ones. -/
theorem le_of_mem_encodeChar {c : Char} (hc : 0x80 ≤ c.toNat) {b : UInt8}
    (hb : b ∈ encodeChar c) : 0x80 ≤ b.toNat := by
  have hscalar := toNat_scalar c
  have hlow : ∀ n : Nat, 0x80 ≤ (UInt8.ofNat (0x80 + n % 64)).toNat := by
    intro n
    rw [toNat_octet (by omega)]
    omega
  unfold encodeChar at hb
  dsimp only at hb
  rw [if_neg (by omega)] at hb
  split at hb
  · rcases List.mem_cons.1 hb with rfl | hb
    · rw [toNat_octet (by omega)]
      omega
    · rw [List.mem_singleton.1 hb]
      exact hlow _
  · split at hb
    · rcases List.mem_cons.1 hb with rfl | hb
      · rw [toNat_octet (by omega)]
        omega
      · rcases List.mem_cons.1 hb with rfl | hb
        · exact hlow _
        · rw [List.mem_singleton.1 hb]
          exact hlow _
    · rcases List.mem_cons.1 hb with rfl | hb
      · rw [toNat_octet (by omega)]
        omega
      · rcases List.mem_cons.1 hb with rfl | hb
        · exact hlow _
        · rcases List.mem_cons.1 hb with rfl | hb
          · exact hlow _
          · rw [List.mem_singleton.1 hb]
            exact hlow _

/-- An octet that is an ASCII character is that character of the text. -/
theorem mem_of_mem_encode {cs : List Char} {c : Char} (hc : c.toNat < 0x80)
    (h : UInt8.ofNat c.toNat ∈ encode cs) : c ∈ cs := by
  obtain ⟨x, hx, hoctet⟩ := List.mem_flatMap.1 h
  by_cases hascii : x.toNat < 0x80
  · rw [encodeChar_ascii hascii, List.mem_singleton] at hoctet
    have hcode := congrArg UInt8.toNat hoctet
    rw [toNat_octet (by omega), toNat_octet (by omega)] at hcode
    rwa [Char.toNat_inj.1 hcode]
  · have hlarge := le_of_mem_encodeChar (Nat.not_lt.1 hascii) hoctet
    rw [toNat_octet (by omega)] at hlarge
    omega

/-- ASCII octets are the octets of the characters that they are. -/
theorem encode_toLatin {bs : Bytes} (hbs : ∀ b ∈ bs, b.toNat < 0x80) :
    encode (Bytes.toLatin bs) = bs := by
  induction bs with
  | nil => rfl
  | cons b bs ih =>
    have hb := hbs b List.mem_cons_self
    have hcode := toNat_ofNat_octet b
    have ih := ih fun x hx => hbs x (List.mem_cons_of_mem b hx)
    show encodeChar (Char.ofNat b.toNat) ++ encode (Bytes.toLatin bs) = b :: bs
    rw [encodeChar_ascii (by omega), hcode, UInt8.ofNat_toNat, ih]
    rfl

/-! ## Octets that are one character -/

variable {a b c d : UInt8}

theorem encodeChar_of_one (ha : a.toNat < 0x80) : encodeChar (Char.ofNat a.toNat) = [a] := by
  unfold encodeChar
  rw [toNat_ofNat_of_valid (by omega)]
  dsimp only
  rw [if_pos ha, UInt8.ofNat_toNat]

theorem encodeChar_of_two (ha : 0xC2 ≤ a.toNat) (ha' : a.toNat < 0xE0) (hb : 0x80 ≤ b.toNat)
    (hb' : b.toNat ≤ 0xBF) :
    encodeChar (Char.ofNat ((a.toNat - 0xC0) * 64 + (b.toNat - 0x80))) = [a, b] := by
  unfold encodeChar
  rw [toNat_ofNat_of_valid (by omega)]
  dsimp only
  rw [if_neg (by omega), if_pos (by omega), ofNat_eq_of_toNat (b := a) (by omega),
    ofNat_eq_of_toNat (b := b) (by omega)]

theorem encodeChar_of_three (ha : 0xE0 ≤ a.toNat) (ha' : a.toNat < 0xF0) (hb : 0x80 ≤ b.toNat)
    (hb' : b.toNat ≤ 0xBF) (hlong : a.toNat = 0xE0 → 0xA0 ≤ b.toNat)
    (hscalar : a.toNat = 0xED → b.toNat ≤ 0x9F) (hc : 0x80 ≤ c.toNat) (hc' : c.toNat ≤ 0xBF) :
    encodeChar (Char.ofNat (((a.toNat - 0xE0) * 64 + (b.toNat - 0x80)) * 64 +
      (c.toNat - 0x80))) = [a, b, c] := by
  unfold encodeChar
  rw [toNat_ofNat_of_valid (by omega)]
  dsimp only
  rw [if_neg (by omega), if_neg (by omega), if_pos (by omega),
    ofNat_eq_of_toNat (b := a) (by omega), ofNat_eq_of_toNat (b := b) (by omega),
    ofNat_eq_of_toNat (b := c) (by omega)]

theorem encodeChar_of_four (ha : 0xF0 ≤ a.toNat) (ha' : a.toNat ≤ 0xF4) (hb : 0x80 ≤ b.toNat)
    (hb' : b.toNat ≤ 0xBF) (hlong : a.toNat = 0xF0 → 0x90 ≤ b.toNat)
    (hlast : a.toNat = 0xF4 → b.toNat ≤ 0x8F) (hc : 0x80 ≤ c.toNat) (hc' : c.toNat ≤ 0xBF)
    (hd : 0x80 ≤ d.toNat) (hd' : d.toNat ≤ 0xBF) :
    encodeChar (Char.ofNat ((((a.toNat - 0xF0) * 64 + (b.toNat - 0x80)) * 64 +
      (c.toNat - 0x80)) * 64 + (d.toNat - 0x80))) = [a, b, c, d] := by
  unfold encodeChar
  rw [toNat_ofNat_of_valid (by omega)]
  dsimp only
  rw [if_neg (by omega), if_neg (by omega), if_neg (by omega),
    ofNat_eq_of_toNat (b := a) (by omega), ofNat_eq_of_toNat (b := b) (by omega),
    ofNat_eq_of_toNat (b := c) (by omega), ofNat_eq_of_toNat (b := d) (by omega)]

/-! ## Octets that are a text -/

variable {text : Bytes} {cs : List Char}

/-- In the middle of a character the next octet is one that is allowed there, and it ends the
character if it is the last one owed. -/
theorem exists_of_decodeFrom_some {p : Pending} (h : decodeFrom (some p) text = some cs) :
    ∃ x rest, text = x :: rest ∧ p.low ≤ x.toNat ∧ x.toNat ≤ p.high ∧
      (p.owed ≤ 1 → ∃ more, decodeFrom none rest = some more ∧
        cs = Char.ofNat (p.value * 64 + (x.toNat - 0x80)) :: more) ∧
      (1 < p.owed → decodeFrom
        (some ⟨p.owed - 1, 0x80, 0xBF, p.value * 64 + (x.toNat - 0x80)⟩) rest = some cs) := by
  cases text with
  | nil => exact absurd h (by simp [decodeFrom])
  | cons x rest =>
    rw [decodeFrom, step, Pending.push] at h
    by_cases hx : p.low ≤ x.toNat ∧ x.toNat ≤ p.high
    · rw [if_pos hx] at h
      refine ⟨x, rest, rfl, hx.1, hx.2, ?_, ?_⟩
      · intro howed
        simp only [if_pos howed, Option.map_eq_some_iff] at h
        obtain ⟨more, hmore, rfl⟩ := h
        exact ⟨more, hmore, rfl⟩
      · intro howed
        simpa only [if_neg (Nat.not_le.2 howed)] using h
    · rw [if_neg hx] at h
      exact absurd h (by simp)

/-- After the first octet of a character, what is known of the octet. -/
theorem opening_eq_start {p : Pending} (h : opening a = .start p) :
    (p = ⟨1, 0x80, 0xBF, a.toNat - 0xC0⟩ ∧ 0xC2 ≤ a.toNat ∧ a.toNat < 0xE0) ∨
    (∃ low high, p = ⟨2, low, high, a.toNat - 0xE0⟩ ∧ 0xE0 ≤ a.toNat ∧ a.toNat < 0xF0 ∧
      0x80 ≤ low ∧ high ≤ 0xBF ∧ (a.toNat = 0xE0 → 0xA0 ≤ low) ∧
      (a.toNat = 0xED → high ≤ 0x9F)) ∨
    ∃ low high, p = ⟨3, low, high, a.toNat - 0xF0⟩ ∧ 0xF0 ≤ a.toNat ∧ a.toNat ≤ 0xF4 ∧
      0x80 ≤ low ∧ high ≤ 0xBF ∧ (a.toNat = 0xF0 → 0x90 ≤ low) ∧
      (a.toNat = 0xF4 → high ≤ 0x8F) := by
  have hbound : a.toNat < 256 := a.toNat_lt
  simp only [opening] at h
  repeat' split at h
  all_goals cases h
  · exact Or.inl ⟨rfl, by omega, by omega⟩
  · have hvalue : 0 = a.toNat - 0xE0 := by omega
    exact Or.inr (Or.inl ⟨_, _, congrArg (Pending.mk 2 0xA0 0xBF) hvalue,
      by omega, by omega, by omega, by omega, by omega, by omega⟩)
  · have hvalue : 0xD = a.toNat - 0xE0 := by omega
    exact Or.inr (Or.inl ⟨_, _, congrArg (Pending.mk 2 0x80 0x9F) hvalue,
      by omega, by omega, by omega, by omega, by omega, by omega⟩)
  · exact Or.inr (Or.inl ⟨_, _, rfl, by omega, by omega, by omega, by omega, by omega, by omega⟩)
  · have hvalue : 0 = a.toNat - 0xF0 := by omega
    exact Or.inr (Or.inr ⟨_, _, congrArg (Pending.mk 3 0x90 0xBF) hvalue,
      by omega, by omega, by omega, by omega, by omega, by omega⟩)
  · exact Or.inr (Or.inr ⟨_, _, rfl, by omega, by omega, by omega, by omega, by omega, by omega⟩)
  · have hvalue : 4 = a.toNat - 0xF0 := by omega
    exact Or.inr (Or.inr ⟨_, _, congrArg (Pending.mk 3 0x80 0x8F) hvalue,
      by omega, by omega, by omega, by omega, by omega, by omega⟩)

/-- The first character of a text, its octets, and the octets of the rest. -/
theorem exists_of_decodeFrom_cons (h : decodeFrom none (a :: text) = some cs) :
    ∃ c more rest, cs = c :: more ∧ decodeFrom none rest = some more ∧
      a :: text = encodeChar c ++ rest ∧ rest.length ≤ text.length := by
  rw [decodeFrom, step] at h
  cases hopening : opening a with
  | whole c =>
    have hc : a.toNat < 0x80 ∧ c = Char.ofNat a.toNat := by
      simp only [opening] at hopening
      repeat' split at hopening
      all_goals cases hopening
      exact ⟨‹_›, rfl⟩
    rw [hopening] at h
    obtain ⟨more, hmore, rfl⟩ := Option.map_eq_some_iff.1 h
    refine ⟨c, more, text, rfl, hmore, ?_, Nat.le_refl _⟩
    rw [hc.2, encodeChar_of_one hc.1]
    rfl
  | bad =>
    rw [hopening] at h
    exact absurd h (by simp)
  | start p =>
    rw [hopening] at h
    obtain ⟨b, rest, rfl, hb, hb', hend, hnext⟩ := exists_of_decodeFrom_some h
    rcases opening_eq_start hopening with ⟨rfl, ha, ha'⟩ |
      ⟨low, high, rfl, ha, ha', hlow, hhigh, hlong, hscalar⟩ |
      ⟨low, high, rfl, ha, ha', hlow, hhigh, hlong, hlast⟩
    · obtain ⟨more, hmore, rfl⟩ := hend (Nat.le_refl _)
      refine ⟨_, more, rest, rfl, hmore, ?_, Nat.le_succ _⟩
      rw [encodeChar_of_two ha ha' hb hb']
      rfl
    · obtain ⟨c, rest, rfl, hc, hc', hend, -⟩ := exists_of_decodeFrom_some (hnext (by simp))
      obtain ⟨more, hmore, rfl⟩ := hend (Nat.le_refl _)
      refine ⟨_, more, rest, rfl, hmore, ?_, by simp only [List.length_cons]; omega⟩
      rw [encodeChar_of_three ha ha' (Nat.le_trans hlow hb) (Nat.le_trans hb' hhigh)
        (fun h => Nat.le_trans (hlong h) hb) (fun h => Nat.le_trans hb' (hscalar h)) hc hc']
      rfl
    · obtain ⟨c, rest, rfl, hc, hc', -, hnext⟩ := exists_of_decodeFrom_some (hnext (by simp))
      obtain ⟨d, rest, rfl, hd, hd', hend, -⟩ := exists_of_decodeFrom_some (hnext (by simp))
      obtain ⟨more, hmore, rfl⟩ := hend (Nat.le_refl _)
      refine ⟨_, more, rest, rfl, hmore, ?_, by simp only [List.length_cons]; omega⟩
      rw [encodeChar_of_four ha ha' (Nat.le_trans hlow hb) (Nat.le_trans hb' hhigh)
        (fun h => Nat.le_trans (hlong h) hb) (fun h => Nat.le_trans hb' (hlast h)) hc hc' hd hd']
      rfl

/-- A text is read as itself also where octets that are none are made up for. -/
theorem lossyFrom_of_decodeFrom {state : Option Pending} (h : decodeFrom state text = some cs) :
    lossyFrom state text = cs := by
  induction text generalizing state cs with
  | nil =>
    cases state with
    | none => exact Option.some.inj h
    | some p => exact absurd h (by simp [decodeFrom])
  | cons b text ih =>
    rw [decodeFrom] at h
    cases hstep : step state b with
    | whole c =>
      rw [hstep] at h
      obtain ⟨more, hmore, rfl⟩ := Option.map_eq_some_iff.1 h
      cases state <;> rw [lossyFrom, hstep] <;> exact congrArg (c :: ·) (ih hmore)
    | start p =>
      rw [hstep] at h
      cases state <;> rw [lossyFrom, hstep] <;> exact ih h
    | bad =>
      rw [hstep] at h
      exact absurd h (by simp)

theorem lossy_encode (cs : List Char) : lossy (encode cs) = cs :=
  lossyFrom_of_decodeFrom (decode?_encode cs)

/-- Octets that decode to a text are its encoding. -/
theorem encode_of_decode? (h : decode? text = some cs) : encode cs = text := by
  rw [decode?] at h
  -- a character may take several octets, so the induction is on how many are left
  induction hlength : text.length using Nat.strongRecOn generalizing text cs with
  | _ length ih =>
    cases text with
    | nil =>
      rw [← Option.some.inj h]
      rfl
    | cons a text =>
      obtain ⟨c, more, rest, rfl, hmore, htext, hshorter⟩ := exists_of_decodeFrom_cons h
      rw [List.length_cons] at hlength
      rw [encode_cons, ih rest.length (by omega) hmore rfl, htext]

/-- An ASCII character of a text is one of its octets. -/
theorem mem_of_decode? (h : decode? text = some cs) {c : Char} (hc : c ∈ cs)
    (hascii : c.toNat < 0x80) : UInt8.ofNat c.toNat ∈ text := by
  rw [← encode_of_decode? h, encode, List.mem_flatMap]
  refine ⟨c, hc, ?_⟩
  rw [encodeChar_ascii hascii]
  exact List.mem_singleton_self _

/-- What is true of the codes of all octets of a string, and of all codes beyond ASCII, is true of
the codes of its characters. -/
theorem toNat_of_toString? {p : Nat → Prop} {s : String} (hbeyond : ∀ n, 0x80 ≤ n → p n)
    (htext : ∀ b ∈ text, p b.toNat) (h : toString? text = some s) :
    ∀ c ∈ s.toList, p c.toNat := by
  obtain ⟨cs, hcs, rfl⟩ := Option.map_eq_some_iff.1 h
  intro c hc
  rw [String.toList_ofList] at hc
  by_cases hascii : c.toNat < 0x80
  · have hoctet := htext _ (mem_of_decode? hcs hc hascii)
    rwa [toNat_octet (by omega)] at hoctet
  · exact hbeyond _ (by omega)

end Utf8

end RegistryConsole
