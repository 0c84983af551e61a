import RegistryConsole.Bytes

/-! # UTF-8

Encoding is character by character. Decoding is a machine that reads one octet at a time and
remembers the character it is in the middle of. -/

namespace RegistryConsole.Utf8

/-- The octets of one character. -/
def encodeChar (c : Char) : Bytes :=
  let n := c.toNat
  if n < 0x80 then [UInt8.ofNat n]
  else if n < 0x800 then [UInt8.ofNat (0xC0 + n / 64), UInt8.ofNat (0x80 + n % 64)]
  else if n < 0x10000 then
    [UInt8.ofNat (0xE0 + n / 4096), UInt8.ofNat (0x80 + n / 64 % 64), UInt8.ofNat (0x80 + n % 64)]
  else
    [UInt8.ofNat (0xF0 + n / 262144), UInt8.ofNat (0x80 + n / 4096 % 64),
      UInt8.ofNat (0x80 + n / 64 % 64), UInt8.ofNat (0x80 + n % 64)]

/-- The octets of a text. -/
def encode (cs : List Char) : Bytes :=
  cs.flatMap encodeChar

@[simp] theorem encode_nil : encode [] = [] := rfl

@[simp] theorem encode_cons (c : Char) (cs : List Char) :
    encode (c :: cs) = encodeChar c ++ encode cs := rfl

theorem encode_append (a b : List Char) : encode (a ++ b) = encode a ++ encode b := by
  simp [encode]

/-- The octets of a string. -/
def ofString (s : String) : Bytes :=
  encode s.toList

/-- A character of which some octets are read: how many are owed, the range of the next one, and
the value of the bits so far. -/
structure Pending where
  owed : Nat
  low : Nat
  high : Nat
  value : Nat
  deriving DecidableEq

/-- What an octet says between two characters. -/
inductive Opening where
  /-- The octet is a character. -/
  | whole (c : Char)
  /-- The octet starts a longer character. -/
  | start (p : Pending)
  /-- No character starts so. -/
  | bad
  deriving DecidableEq

/-- The first octet of a character. Overlong forms, surrogates and values above U+10FFFF are ruled
out here and by the range of the second octet. -/
def opening (b : UInt8) : Opening :=
  let n := b.toNat
  if n < 0x80 then .whole (Char.ofNat n)
  else if n < 0xC2 then .bad
  else if n < 0xE0 then .start ⟨1, 0x80, 0xBF, n - 0xC0⟩
  else if n = 0xE0 then .start ⟨2, 0xA0, 0xBF, 0⟩
  else if n = 0xED then .start ⟨2, 0x80, 0x9F, 0xD⟩
  else if n < 0xF0 then .start ⟨2, 0x80, 0xBF, n - 0xE0⟩
  else if n = 0xF0 then .start ⟨3, 0x90, 0xBF, 0⟩
  else if n < 0xF4 then .start ⟨3, 0x80, 0xBF, n - 0xF0⟩
  else if n = 0xF4 then .start ⟨3, 0x80, 0x8F, 4⟩
  else .bad

/-- The next octet of a character, if it may follow: the character, or what is still owed. -/
def Pending.push (p : Pending) (b : UInt8) : Opening :=
  if p.low ≤ b.toNat ∧ b.toNat ≤ p.high then
    let value := p.value * 64 + (b.toNat - 0x80)
    if p.owed ≤ 1 then .whole (Char.ofNat value)
    else .start ⟨p.owed - 1, 0x80, 0xBF, value⟩
  else .bad

/-- The character that `b` finishes, starts or rules out. -/
def step : Option Pending → UInt8 → Opening
  | none, b => opening b
  | some p, b => p.push b

/-- The text of `b`, read on from `state`; nothing when `b` is not UTF-8. -/
def decodeFrom : Option Pending → Bytes → Option (List Char)
  | none, [] => some []
  | some _, [] => none
  | state, b :: rest =>
    match step state b with
    | .whole c => (decodeFrom none rest).map (c :: ·)
    | .start p => decodeFrom (some p) rest
    | .bad => none

/-- The text of `b`, if `b` is UTF-8. -/
def decode? (b : Bytes) : Option (List Char) :=
  decodeFrom none b

/-- The string of `b`, if `b` is UTF-8. -/
def toString? (b : Bytes) : Option String :=
  (decode? b).map String.ofList

/-- The length of the longest start of `b` that is UTF-8: `good` octets end at a character, and
`seen` are read in all. -/
def validLengthFrom : Option Pending → (good seen : Nat) → Bytes → Nat
  | _, good, _, [] => good
  | state, good, seen, b :: rest =>
    match step state b with
    | .whole _ => validLengthFrom none (seen + 1) (seen + 1) rest
    | .start p => validLengthFrom (some p) good (seen + 1) rest
    | .bad => good

/-- The length of the longest start of `b` that is UTF-8. -/
def validLength (b : Bytes) : Nat :=
  validLengthFrom none 0 0 b

/-- The character that stands for octets that are no UTF-8. -/
def replacement : Char := '\ufffd'

/-- The text of `b` read on from `state`, with one replacement character for each longest run of
octets that starts a character and does not finish it, and for each octet that starts none. -/
def lossyFrom : Option Pending → Bytes → List Char
  | none, [] => []
  | some _, [] => [replacement]
  | state, b :: rest =>
    match step state b with
    | .whole c => c :: lossyFrom none rest
    | .start p => lossyFrom (some p) rest
    | .bad =>
      match state with
      | none => replacement :: lossyFrom none rest
      | some _ =>
        match opening b with
        | .whole c => replacement :: c :: lossyFrom none rest
        | .start p => replacement :: lossyFrom (some p) rest
        | .bad => replacement :: replacement :: lossyFrom none rest

/-- The text of `b`, with replacement characters where `b` is not UTF-8. -/
def lossy (b : Bytes) : List Char :=
  lossyFrom none b

/-- An octet written from a number below 256 is that number. -/
theorem toNat_octet {n : Nat} (h : n < 256) : (UInt8.ofNat n).toNat = n := by
  simp [UInt8.toNat_ofNat', Nat.mod_eq_of_lt h]

/-- The code of a character is no surrogate and at most U+10FFFF. -/
theorem toNat_scalar (c : Char) : c.toNat < 0xD800 ∨ 0xDFFF < c.toNat ∧ c.toNat < 0x110000 :=
  c.valid

/-- The first octet of a three-octet character allows its second one. -/
theorem opening_three {n : Nat} (h : 0x800 ≤ n) (h' : n < 0x10000)
    (hs : n < 0xD800 ∨ 0xDFFF < n) :
    ∃ lo hi, opening (UInt8.ofNat (0xE0 + n / 4096)) = .start ⟨2, lo, hi, n / 4096⟩ ∧
      lo ≤ 0x80 + n / 64 % 64 ∧ 0x80 + n / 64 % 64 ≤ hi := by
  have e : (UInt8.ofNat (0xE0 + n / 4096)).toNat = 0xE0 + n / 4096 := toNat_octet (by omega)
  have a1 : ¬ 0xE0 + n / 4096 < 0x80 := by omega
  have a2 : ¬ 0xE0 + n / 4096 < 0xC2 := by omega
  have a3 : ¬ 0xE0 + n / 4096 < 0xE0 := by omega
  simp only [opening, e, if_neg a1, if_neg a2, if_neg a3, Nat.add_sub_cancel_left]
  by_cases h0 : 0xE0 + n / 4096 = 0xE0
  · refine ⟨0xA0, 0xBF, ?_, by omega, by omega⟩
    rw [if_pos h0]
    congr 2
    omega
  · by_cases hd : 0xE0 + n / 4096 = 0xED
    · refine ⟨0x80, 0x9F, ?_, by omega, by omega⟩
      rw [if_neg h0, if_pos hd]
      congr 2
      omega
    · refine ⟨0x80, 0xBF, ?_, by omega, by omega⟩
      rw [if_neg h0, if_neg hd, if_pos (by omega)]

/-- The first octet of a four-octet character allows its second one. -/
theorem opening_four {n : Nat} (h : 0x10000 ≤ n) (h' : n < 0x110000) :
    ∃ lo hi, opening (UInt8.ofNat (0xF0 + n / 262144)) = .start ⟨3, lo, hi, n / 262144⟩ ∧
      lo ≤ 0x80 + n / 4096 % 64 ∧ 0x80 + n / 4096 % 64 ≤ hi := by
  have e : (UInt8.ofNat (0xF0 + n / 262144)).toNat = 0xF0 + n / 262144 := toNat_octet (by omega)
  have a1 : ¬ 0xF0 + n / 262144 < 0x80 := by omega
  have a2 : ¬ 0xF0 + n / 262144 < 0xC2 := by omega
  have a3 : ¬ 0xF0 + n / 262144 < 0xE0 := by omega
  have a4 : ¬ 0xF0 + n / 262144 = 0xE0 := by omega
  have a5 : ¬ 0xF0 + n / 262144 = 0xED := by omega
  have a6 : ¬ 0xF0 + n / 262144 < 0xF0 := by omega
  simp only [opening, e, if_neg a1, if_neg a2, if_neg a3, if_neg a4, if_neg a5, if_neg a6,
    Nat.add_sub_cancel_left]
  by_cases h0 : 0xF0 + n / 262144 = 0xF0
  · refine ⟨0x90, 0xBF, ?_, by omega, by omega⟩
    rw [if_pos h0]
    congr 2
    omega
  · by_cases hd : 0xF0 + n / 262144 < 0xF4
    · refine ⟨0x80, 0xBF, ?_, by omega, by omega⟩
      rw [if_neg h0, if_pos hd]
    · refine ⟨0x80, 0x8F, ?_, by omega, by omega⟩
      rw [if_neg h0, if_neg hd, if_pos (by omega)]
      congr 2
      omega

/-- A following octet that is allowed adds its six low bits. -/
theorem push_low_bits {owed lo hi value x : Nat} (hx : x < 64) (hlo : lo ≤ 0x80 + x)
    (hhi : 0x80 + x ≤ hi) :
    (Pending.mk owed lo hi value).push (UInt8.ofNat (0x80 + x)) =
      if owed ≤ 1 then .whole (Char.ofNat (value * 64 + x))
      else .start ⟨owed - 1, 0x80, 0xBF, value * 64 + x⟩ := by
  have e : (UInt8.ofNat (0x80 + x)).toNat = 0x80 + x := toNat_octet (by omega)
  simp only [Pending.push, e, if_pos (And.intro hlo hhi), Nat.add_sub_cancel_left]

/-- Decoding undoes the encoding of one character. -/
theorem decodeFrom_encodeChar (c : Char) (rest : Bytes) :
    decodeFrom none (encodeChar c ++ rest) = (decodeFrom none rest).map (c :: ·) := by
  have hc := toNat_scalar c
  have hof : Char.ofNat c.toNat = c := Char.ofNat_toNat c
  unfold encodeChar
  generalize c.toNat = n at hc hof
  simp only []
  split
  · rename_i h1
    have e : (UInt8.ofNat n).toNat = n := toNat_octet (by omega)
    simp [decodeFrom, step, opening, e, h1, hof]
  · split
    · rename_i h1 h2
      have e1 : (UInt8.ofNat (0xC0 + n / 64)).toNat = 0xC0 + n / 64 := toNat_octet (by omega)
      have e2 : (UInt8.ofNat (0x80 + n % 64)).toNat = 0x80 + n % 64 := toNat_octet (by omega)
      have o : opening (UInt8.ofNat (0xC0 + n / 64)) = .start ⟨1, 0x80, 0xBF, n / 64⟩ := by
        have a1 : ¬ 0xC0 + n / 64 < 0x80 := by omega
        have a2 : ¬ 0xC0 + n / 64 < 0xC2 := by omega
        have a3 : 0xC0 + n / 64 < 0xE0 := by omega
        simp only [opening, e1, if_neg a1, if_neg a2, if_pos a3, Nat.add_sub_cancel_left]
      have b : n / 64 * 64 + (0x80 + n % 64 - 0x80) = n := by omega
      have r : 0x80 ≤ 0x80 + n % 64 ∧ 0x80 + n % 64 ≤ 0xBF := by omega
      simp only [List.cons_append, List.nil_append, decodeFrom, step, o, Pending.push, e2, if_pos r,
        b, hof]
      rfl
    · split
      · rename_i h2 h3
        obtain ⟨lo, hi, ho, hl, hh⟩ := opening_three (by omega) h3 (by omega)
        have b : (n / 4096 * 64 + n / 64 % 64) * 64 + n % 64 = n := by omega
        simp only [List.cons_append, List.nil_append, decodeFrom, step, ho,
          push_low_bits (Nat.mod_lt (n / 64) (by decide)) hl hh, Nat.reduceLeDiff, if_false,
          Nat.reduceSub, push_low_bits (Nat.mod_lt n (by decide)) (Nat.le_add_right 0x80 (n % 64))
            (show 0x80 + n % 64 ≤ 0xBF by omega), if_true, b, hof, Nat.le_refl]
      · rename_i h3
        obtain ⟨lo, hi, ho, hl, hh⟩ := opening_four (n := n) (by omega) (by omega)
        have b : ((n / 262144 * 64 + n / 4096 % 64) * 64 + n / 64 % 64) * 64 + n % 64 = n := by
          omega
        simp only [List.cons_append, List.nil_append, decodeFrom, step, ho,
          push_low_bits (Nat.mod_lt (n / 4096) (by decide)) hl hh, Nat.reduceLeDiff, if_false,
          Nat.reduceSub, push_low_bits (Nat.mod_lt (n / 64) (by decide))
            (Nat.le_add_right 0x80 (n / 64 % 64)) (show 0x80 + n / 64 % 64 ≤ 0xBF by omega),
          push_low_bits (Nat.mod_lt n (by decide)) (Nat.le_add_right 0x80 (n % 64))
            (show 0x80 + n % 64 ≤ 0xBF by omega), if_true, b, hof, Nat.le_refl]

theorem decode?_encode (cs : List Char) : decode? (encode cs) = some cs := by
  induction cs with
  | nil => rfl
  | cons c cs ih =>
    simp only [decode?, encode_cons, decodeFrom_encodeChar] at ih ⊢
    simp [ih]

end RegistryConsole.Utf8
