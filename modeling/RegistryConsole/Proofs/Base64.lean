import RegistryConsole.Base64
import RegistryConsole.Proofs.Utf8

/-! # Base64, read back

The reader of the standard form accepts what the writer writes and nothing else: no other symbol, no
missing or additional padding, and no bits behind the last octet. So every list of octets has one
standard form, and it is read as just those octets. -/

namespace RegistryConsole.Base64

/-! ## Symbols -/

/-- The octets that are read as a number of six bits are the symbols of these numbers. -/
theorem value?_eq_some_iff {b : UInt8} {n : Nat} : value? b = some n ↔ n < 64 ∧ b = standard n := by
  constructor
  · intro h
    unfold value? at h
    dsimp only at h
    unfold standard symbol
    split at h
    · obtain rfl := Option.some.inj h
      rw [if_pos (by omega)]
      exact ⟨by omega, (ofNat_eq_of_toNat (by omega)).symm⟩
    split at h
    · obtain rfl := Option.some.inj h
      rw [if_neg (by omega), if_pos (by omega)]
      exact ⟨by omega, (ofNat_eq_of_toNat (by omega)).symm⟩
    split at h
    · obtain rfl := Option.some.inj h
      rw [if_neg (by omega), if_neg (by omega), if_pos (by omega)]
      exact ⟨by omega, (ofNat_eq_of_toNat (by omega)).symm⟩
    split at h
    · next hcode =>
      obtain rfl := Option.some.inj h
      exact ⟨by decide, UInt8.toNat_inj.1 hcode⟩
    split at h
    · next hcode =>
      obtain rfl := Option.some.inj h
      exact ⟨by decide, UInt8.toNat_inj.1 hcode⟩
    · exact absurd h (by simp)
  · rintro ⟨hn, rfl⟩
    have hall : ∀ n < 64, value? (standard n) = some n := by decide
    exact hall n hn

theorem valueAt_eq_ok_iff {offset : Nat} {b : UInt8} {n : Nat} :
    valueAt offset b = .ok n ↔ n < 64 ∧ b = standard n := by
  rw [← value?_eq_some_iff, valueAt]
  cases value? b with
  | none => simp
  | some m => simp

/-- Padding is no symbol. -/
theorem standard_ne_padding {n : Nat} (hn : n < 64) : standard n ≠ padding := by
  have hall : ∀ n < 64, standard n ≠ padding := by decide
  exact hall n hn

/-- The symbols in the order of their numbers. -/
example : (List.range 64).map standard =
    Utf8.ofString "ABCDEFGHIJKLMNOPQRSTUVWXYZabcdefghijklmnopqrstuvwxyz0123456789+/" := by
  decide

/-! ## The last group -/

/-- Symbols with their numbers. -/
def symbols (ns : List Nat) : List (UInt8 × Nat) :=
  ns.map fun n => (standard n, n)

/-- After padding there is only padding. -/
theorem lastSymbols_some {offset index i : Nat} {group : Bytes} {read : List (UInt8 × Nat)}
    (h : lastSymbols offset index (some i) group = .ok read) :
    read = [] ∧ ∃ k, group = List.replicate k padding := by
  induction group generalizing index i with
  | nil => exact ⟨(Except.ok.inj h).symm, 0, rfl⟩
  | cons b rest ih =>
    rw [lastSymbols] at h
    split at h
    · next hb =>
      split at h
      · exact absurd h (by simp)
      · obtain ⟨hread, k, hrest⟩ := ih h
        exact ⟨hread, k + 1, by rw [hb, hrest, List.replicate_succ]⟩
    · exact absurd h (by simp)

/-- What is read of the last group are its symbols, and all else in it is padding behind them. -/
theorem lastSymbols_ok {offset index : Nat} {group : Bytes} {read : List (UInt8 × Nat)}
    (h : lastSymbols offset index none group = .ok read) :
    ∃ ns k, read = symbols ns ∧ group = ns.map standard ++ List.replicate k padding ∧
      ∀ n ∈ ns, n < 64 := by
  induction group generalizing index read with
  | nil =>
    obtain rfl := Except.ok.inj h
    exact ⟨[], 0, rfl, rfl, fun n hn => absurd hn List.not_mem_nil⟩
  | cons b rest ih =>
    rw [lastSymbols] at h
    split at h
    · next hb =>
      split at h
      · exact absurd h (by simp)
      · obtain ⟨rfl, k, rfl⟩ := lastSymbols_some h
        exact ⟨[], k + 1, rfl, by rw [hb, List.replicate_succ]; rfl,
          fun n hn => absurd hn List.not_mem_nil⟩
    · split at h
      · exact absurd h (by simp)
      · next n hvalue =>
        obtain ⟨hn, rfl⟩ := valueAt_eq_ok_iff.1 hvalue
        cases hrest : lastSymbols offset (index + 1) none rest with
        | error f =>
          rw [hrest] at h
          exact absurd h (by simp [Except.map])
        | ok more =>
          rw [hrest] at h
          obtain rfl := Except.ok.inj h
          obtain ⟨ns, k, rfl, rfl, hns⟩ := ih hrest
          exact ⟨n :: ns, k, rfl, rfl, List.forall_mem_cons.2 ⟨hn, hns⟩⟩

/-- Padding is passed over from the third octet of the group on. -/
theorem lastSymbols_padding (offset : Nat) {index : Nat} (hindex : 2 ≤ index)
    (firstPad : Option Nat) (k : Nat) :
    lastSymbols offset index firstPad (List.replicate k padding) = .ok [] := by
  induction k generalizing index firstPad with
  | zero => rfl
  | succ k ih =>
    rw [List.replicate_succ, lastSymbols.eq_def]
    dsimp only
    rw [if_pos rfl, if_neg (by omega)]
    exact ih (by omega) _

/-- The symbols of the last group are read, with padding behind them or without. -/
theorem lastSymbols_symbols (offset : Nat) (ns : List Nat) {i k : Nat} (hns : ∀ n ∈ ns, n < 64)
    (hk : k = 0 ∨ 2 ≤ i + ns.length) :
    lastSymbols offset i none (ns.map standard ++ List.replicate k padding) =
      .ok (symbols ns) := by
  induction ns generalizing i with
  | nil =>
    rcases hk with rfl | hk
    · rfl
    · exact lastSymbols_padding offset hk none k
  | cons n ns ih =>
    obtain ⟨hn, hns⟩ := List.forall_mem_cons.1 hns
    rw [List.map_cons, List.cons_append, lastSymbols, if_neg (standard_ne_padding hn)]
    rw [valueAt_eq_ok_iff.2 ⟨hn, rfl⟩]
    dsimp only
    rw [ih hns (by rw [List.length_cons] at hk; omega)]
    rfl

/-! ## Octets and numbers of six bits -/

/-- The standard form of three octets and more. -/
theorem encode_cons_three (a b c : UInt8) (rest : Bytes) :
    encode (a :: b :: c :: rest) =
      [(a.toNat * 65536 + b.toNat * 256 + c.toNat) / 262144,
        (a.toNat * 65536 + b.toNat * 256 + c.toNat) / 4096 % 64,
        (a.toNat * 65536 + b.toNat * 256 + c.toNat) / 64 % 64,
        (a.toNat * 65536 + b.toNat * 256 + c.toNat) % 64].map standard ++ encode rest := rfl

/-- The standard form of two octets. -/
theorem encode_two (a b : UInt8) :
    encode [a, b] = [(a.toNat * 1024 + b.toNat * 4) / 4096,
      (a.toNat * 1024 + b.toNat * 4) / 64 % 64, (a.toNat * 1024 + b.toNat * 4) % 64].map standard ++
        List.replicate 1 padding := rfl

/-- The standard form of one octet. -/
theorem encode_one (a : UInt8) :
    encode [a] = [a.toNat * 16 / 64, a.toNat * 16 % 64].map standard ++
      List.replicate 2 padding := rfl

variable {w x y z : Nat}

/-- Four numbers are those of the three octets that they make up. -/
theorem encode_octets (hw : w < 64) (hx : x < 64) (hy : y < 64) (hz : z < 64) (rest : Bytes) :
    encode (UInt8.ofNat (w * 4 + x / 16) :: UInt8.ofNat (x % 16 * 16 + y / 4) ::
        UInt8.ofNat (y % 4 * 64 + z) :: rest) =
      [w, x, y, z].map standard ++ encode rest := by
  rw [encode_cons_three, Utf8.toNat_octet (by omega), Utf8.toNat_octet (by omega),
    Utf8.toNat_octet (by omega)]
  congr 2
  simp only [List.cons.injEq, and_true]
  omega

/-- Three numbers are those of the two octets that they make up, if no bits are left. -/
theorem encode_octets_two (hw : w < 64) (hx : x < 64) (hy : y < 64) (hleft : y % 4 = 0) :
    encode [UInt8.ofNat (w * 4 + x / 16), UInt8.ofNat (x % 16 * 16 + y / 4)] =
      [w, x, y].map standard ++ List.replicate 1 padding := by
  rw [encode_two, Utf8.toNat_octet (by omega), Utf8.toNat_octet (by omega)]
  congr 2
  simp only [List.cons.injEq, and_true]
  omega

/-- Two numbers are those of the octet that they make up, if no bits are left. -/
theorem encode_octets_one (hw : w < 64) (hx : x < 64) (hleft : x % 16 = 0) :
    encode [UInt8.ofNat (w * 4 + x / 16)] =
      [w, x].map standard ++ List.replicate 2 padding := by
  rw [encode_one, Utf8.toNat_octet (by omega)]
  congr 2
  simp only [List.cons.injEq, and_true]
  omega

/-- Three octets are made up of four numbers. -/
theorem exists_numbers (a b c : UInt8) :
    ∃ w x y z, (w < 64 ∧ x < 64 ∧ y < 64 ∧ z < 64) ∧ UInt8.ofNat (w * 4 + x / 16) = a ∧
      UInt8.ofNat (x % 16 * 16 + y / 4) = b ∧ UInt8.ofNat (y % 4 * 64 + z) = c := by
  have ha := a.toNat_lt
  have hb := b.toNat_lt
  have hc := c.toNat_lt
  exact ⟨a.toNat / 4, a.toNat % 4 * 16 + b.toNat / 16, b.toNat % 16 * 4 + c.toNat / 64,
    c.toNat % 64, by omega, ofNat_eq_of_toNat (by omega), ofNat_eq_of_toNat (by omega),
    ofNat_eq_of_toNat (by omega)⟩

/-- Two octets are made up of three numbers, with no bits left. -/
theorem exists_numbers_two (a b : UInt8) :
    ∃ w x y, (w < 64 ∧ x < 64 ∧ y < 64 ∧ y % 4 = 0) ∧ UInt8.ofNat (w * 4 + x / 16) = a ∧
      UInt8.ofNat (x % 16 * 16 + y / 4) = b := by
  have ha := a.toNat_lt
  have hb := b.toNat_lt
  exact ⟨a.toNat / 4, a.toNat % 4 * 16 + b.toNat / 16, b.toNat % 16 * 4, by omega,
    ofNat_eq_of_toNat (by omega), ofNat_eq_of_toNat (by omega)⟩

/-- One octet is made up of two numbers, with no bits left. -/
theorem exists_numbers_one (a : UInt8) :
    ∃ w x, (w < 64 ∧ x < 64 ∧ x % 16 = 0) ∧ UInt8.ofNat (w * 4 + x / 16) = a := by
  have ha := a.toNat_lt
  exact ⟨a.toNat / 4, a.toNat % 4 * 16, by omega, ofNat_eq_of_toNat (by omega)⟩

/-! ## What is read -/

/-- Every group that is read has four octets, unless it has none. -/
theorem length_of_decodeLast {offset : Nat} {group bs : Bytes}
    (h : decodeLast offset group = .ok bs) : group = [] ∧ bs = [] ∨ group.length = 4 := by
  unfold decodeLast at h
  split at h
  · exact absurd h (by simp)
  · split at h
    · next hempty _ => exact Or.inl ⟨List.length_eq_zero_iff.1 hempty, (Except.ok.inj h).symm⟩
    · next hfour _ => exact Or.inr hfour
    · next hfour _ => exact Or.inr hfour
    · next hfour _ => exact Or.inr hfour
    all_goals exact absurd h (by simp)

section

variable {offset : Nat} {group : Bytes}

/-- Two symbols are one octet. -/
theorem decodeLast_two (hread : lastSymbols offset 0 none group = .ok (symbols [w, x]))
    (hfour : group.length = 4) :
    decodeLast offset group =
      if x % 16 = 0 then .ok [UInt8.ofNat (w * 4 + x / 16)]
      else .error (.lastSymbol (standard x) (offset + 1)) := by
  simp only [decodeLast, hread, hfour, symbols, List.map_cons, List.map_nil]

/-- Three symbols are two octets. -/
theorem decodeLast_three (hread : lastSymbols offset 0 none group = .ok (symbols [w, x, y]))
    (hfour : group.length = 4) :
    decodeLast offset group =
      if y % 4 = 0 then
        .ok [UInt8.ofNat (w * 4 + x / 16), UInt8.ofNat (x % 16 * 16 + y / 4)]
      else .error (.lastSymbol (standard y) (offset + 2)) := by
  simp only [decodeLast, hread, hfour, symbols, List.map_cons, List.map_nil]

/-- Four symbols are three octets. -/
theorem decodeLast_four (hread : lastSymbols offset 0 none group = .ok (symbols [w, x, y, z]))
    (hfour : group.length = 4) :
    decodeLast offset group = .ok [UInt8.ofNat (w * 4 + x / 16),
      UInt8.ofNat (x % 16 * 16 + y / 4), UInt8.ofNat (y % 4 * 64 + z)] := by
  simp only [decodeLast, hread, hfour, symbols, List.map_cons, List.map_nil]

/-- A last group that is read is the standard form of what is read of it. -/
theorem eq_encode_of_decodeLast {bs : Bytes} (h : decodeLast offset group = .ok bs) :
    group = encode bs := by
  rcases length_of_decodeLast h with ⟨rfl, rfl⟩ | hfour
  · rfl
  · cases hread : lastSymbols offset 0 none group with
    | error f => exact absurd h (by simp [decodeLast, hread])
    | ok read =>
      obtain ⟨ns, k, rfl, hgroup, hns⟩ := lastSymbols_ok hread
      -- padding fills the group up to four octets
      have hk : ns.length + k = 4 := by
        rw [← hfour, hgroup, List.length_append, List.length_map, List.length_replicate]
      rw [hgroup]
      match ns with
      | [] => exact absurd h (by simp [decodeLast, hread, hfour, symbols])
      | [_] => exact absurd h (by simp [decodeLast, hread, symbols])
      | [w, x] =>
        obtain rfl : k = 2 := by simp only [List.length_cons, List.length_nil] at hk; omega
        rw [decodeLast_two hread hfour] at h
        split at h
        · next hleft =>
          obtain rfl := Except.ok.inj h
          exact (encode_octets_one (hns w (by simp)) (hns x (by simp)) hleft).symm
        · exact absurd h (by simp)
      | [w, x, y] =>
        obtain rfl : k = 1 := by simp only [List.length_cons, List.length_nil] at hk; omega
        rw [decodeLast_three hread hfour] at h
        split at h
        · next hleft =>
          obtain rfl := Except.ok.inj h
          exact (encode_octets_two (hns w (by simp)) (hns x (by simp)) (hns y (by simp))
            hleft).symm
        · exact absurd h (by simp)
      | [w, x, y, z] =>
        obtain rfl : k = 0 := by simp only [List.length_cons, List.length_nil] at hk; omega
        rw [decodeLast_four hread hfour] at h
        obtain rfl := Except.ok.inj h
        exact (encode_octets (hns w (by simp)) (hns x (by simp)) (hns y (by simp))
          (hns z (by simp)) []).symm
      | _ :: _ :: _ :: _ :: _ :: _ => exact absurd h (by simp [decodeLast, hread, symbols])

end

/-- The standard form of at most three octets is read as a last group. -/
theorem decodeLast_encode (offset : Nat) {b : Bytes} (hb : b.length ≤ 3) :
    decodeLast offset (encode b) = .ok b := by
  match b with
  | [] => rfl
  | [a] =>
    obtain ⟨w, x, ⟨hw, hx, hleft⟩, rfl⟩ := exists_numbers_one a
    have hread := lastSymbols_symbols offset [w, x] (i := 0) (k := 2) (by simp [hw, hx])
      (Or.inr (by simp))
    rw [encode_octets_one hw hx hleft, decodeLast_two hread rfl, if_pos hleft]
  | [a, b] =>
    obtain ⟨w, x, y, ⟨hw, hx, hy, hleft⟩, rfl, rfl⟩ := exists_numbers_two a b
    have hread := lastSymbols_symbols offset [w, x, y] (i := 0) (k := 1) (by simp [hw, hx, hy])
      (Or.inr (by simp))
    rw [encode_octets_two hw hx hy hleft, decodeLast_three hread rfl, if_pos hleft]
  | [a, b, c] =>
    obtain ⟨w, x, y, z, ⟨hw, hx, hy, hz⟩, rfl, rfl, rfl⟩ := exists_numbers a b c
    have hread := lastSymbols_symbols offset [w, x, y, z] (i := 0) (k := 0)
      (by simp [hw, hx, hy, hz]) (Or.inl rfl)
    rw [encode_octets hw hx hy hz]
    exact decodeLast_four hread rfl
  | _ :: _ :: _ :: _ :: _ => exact absurd hb (by simp)

/-! ## Whole texts -/

/-- What is read is the standard form of what is read of it. -/
theorem eq_encode_of_decodeFrom {offset : Nat} {text bs : Bytes}
    (h : decodeFrom offset text = .ok bs) : text = encode bs := by
  fun_induction decodeFrom offset text generalizing bs with
  | case1 offset a b c d e rest ih =>
    simp only [bind, Except.bind] at h
    split at h
    · exact absurd h (by simp)
    split at h
    · exact absurd h (by simp)
    split at h
    · exact absurd h (by simp)
    split at h
    · exact absurd h (by simp)
    split at h
    · exact absurd h (by simp)
    · next _ w ha _ x hb _ y hc _ z hd _ more hmore =>
      obtain rfl := Except.ok.inj h
      obtain ⟨hw, rfl⟩ := valueAt_eq_ok_iff.1 ha
      obtain ⟨hx, rfl⟩ := valueAt_eq_ok_iff.1 hb
      obtain ⟨hy, rfl⟩ := valueAt_eq_ok_iff.1 hc
      obtain ⟨hz, rfl⟩ := valueAt_eq_ok_iff.1 hd
      rw [encode_octets hw hx hy hz, ← ih hmore]
      rfl
  | case2 offset last => exact eq_encode_of_decodeLast h

/-- Some octets have a standard form that is some. -/
theorem exists_encode_eq_cons {bs : Bytes} (h : bs ≠ []) : ∃ e rest, encode bs = e :: rest := by
  match bs with
  | [] => exact absurd rfl h
  | [a] => exact ⟨_, _, encode_one a⟩
  | [a, b] => exact ⟨_, _, encode_two a b⟩
  | a :: b :: c :: rest => exact ⟨_, _, encode_cons_three a b c rest⟩

/-- Four octets and less are the last group. -/
theorem decodeFrom_of_length (offset : Nat) {text : Bytes} (h : text.length ≤ 4) :
    decodeFrom offset text = decodeLast offset text := by
  match text with
  | [] | [_] | [_, _] | [_, _, _] | [_, _, _, _] => rfl
  | _ :: _ :: _ :: _ :: _ :: _ => exact absurd h (by simp)

/-- Four symbols before others are three octets. -/
theorem decodeFrom_cons {offset : Nat} (hw : w < 64) (hx : x < 64) (hy : y < 64) (hz : z < 64)
    {e : UInt8} {rest more : Bytes} (h : decodeFrom (offset + 4) (e :: rest) = .ok more) :
    decodeFrom offset ([w, x, y, z].map standard ++ e :: rest) =
      .ok (UInt8.ofNat (w * 4 + x / 16) :: UInt8.ofNat (x % 16 * 16 + y / 4) ::
        UInt8.ofNat (y % 4 * 64 + z) :: more) := by
  show decodeFrom offset (standard w :: standard x :: standard y :: standard z :: e :: rest) = _
  rw [decodeFrom, valueAt_eq_ok_iff.2 ⟨hw, rfl⟩, valueAt_eq_ok_iff.2 ⟨hx, rfl⟩,
    valueAt_eq_ok_iff.2 ⟨hy, rfl⟩, valueAt_eq_ok_iff.2 ⟨hz, rfl⟩, h]
  rfl

/-- The standard form of some octets is read as these octets. -/
theorem decodeFrom_encode (offset : Nat) (bs : Bytes) : decodeFrom offset (encode bs) = .ok bs := by
  match bs with
  | a :: b :: c :: next :: rest =>
    have ih := decodeFrom_encode (offset + 4) (next :: rest)
    obtain ⟨e, more, he⟩ := exists_encode_eq_cons (List.cons_ne_nil next rest)
    obtain ⟨w, x, y, z, ⟨hw, hx, hy, hz⟩, rfl, rfl, rfl⟩ := exists_numbers a b c
    rw [he] at ih
    rw [encode_octets hw hx hy hz, he, decodeFrom_cons hw hx hy hz ih]
  | [] => rfl
  | [_] | [_, _] | [_, _, _] =>
    rw [decodeFrom_of_length offset (by exact Nat.le_refl 4), decodeLast_encode offset (by simp)]

/-- A standard form has whole groups. -/
theorem length_encode_mod (bs : Bytes) : (encode bs).length % 4 = 0 := by
  match bs with
  | [] => rfl
  | [a] => simp [encode_one]
  | [a, b] => simp [encode_two]
  | a :: b :: c :: rest =>
    have ih := length_encode_mod rest
    rw [encode_cons_three, List.length_append]
    simp only [List.length_map, List.length_cons, List.length_nil]
    omega

/-- A text is read as some octets just if it is their standard form. -/
theorem decode_eq_ok_iff {text bs : Bytes} : decode text = .ok bs ↔ text = encode bs := by
  constructor
  · intro h
    unfold decode at h
    split at h
    · split at h
      · exact absurd h (by simp)
      · exact eq_encode_of_decodeFrom h
    · next hempty =>
      obtain rfl := Except.ok.inj h
      exact List.getLast?_eq_none_iff.1 hempty
  · rintro rfl
    unfold decode
    split
    · rw [if_neg (by rw [length_encode_mod]; simp)]
      exact decodeFrom_encode 0 bs
    · next hempty =>
      have hnil : encode bs = [] := List.getLast?_eq_none_iff.1 hempty
      have hread := decodeFrom_encode 0 bs
      rw [hnil] at hread
      exact hread

/-- A text is the standard form of one list of octets at most. -/
theorem encode_inj {a b : Bytes} (h : encode a = encode b) : a = b := by
  have ha : decode (encode a) = .ok a := decode_eq_ok_iff.2 rfl
  rw [h, decode_eq_ok_iff.2 rfl] at ha
  exact (Except.ok.inj ha).symm

end RegistryConsole.Base64
