import Mathlib.Data.List.Induction
import RegistryConsole.Proofs.Url.Authority
import RegistryConsole.Proofs.Url.Path
import RegistryConsole.Proofs.Utf8
import RegistryConsole.Url.Form

/-! # Fields come back as they went

A field that is put into a query has no character left that a query would escape, and no mark of a
field but the equals sign between its name and its value. So it is read as the one field that it
is, whatever characters its name and its value have, and many fields are read as just those. -/

namespace RegistryConsole

/-- Letters and digits lie below 127. -/
theorem toNat_lt_of_isAlphanum {c : Char} (h : c.isAlphanum = true) : c.toNat < 0x7F := by
  have hle : ∀ {last : UInt32}, c.val ≤ last → last.toNat < 0x7F → c.toNat < 0x7F :=
    fun hlast => Nat.lt_of_le_of_lt (UInt32.le_iff_toNat_le.1 hlast)
  -- a letter or a digit is in one of three ranges
  rcases Bool.or_eq_true_iff.1 h with h | hdigit
  · rcases Bool.or_eq_true_iff.1 h with hupper | hlower
    · exact hle (of_decide_eq_true hupper).2 (by decide)
    · exact hle (of_decide_eq_true (Bool.and_eq_true_iff.1 hlower).2) (by decide)
  · exact hle (of_decide_eq_true (Bool.and_eq_true_iff.1 hdigit).2) (by decide)

namespace Escape

theorem hexValue?_hexDigit {n : Nat} (h : n < 16) :
    hexValue? (UInt8.ofNat (hexDigit n).toNat) = some n := by
  have hall : ∀ n < 16, hexValue? (UInt8.ofNat (hexDigit n).toNat) = some n := by decide
  exact hall n h

/-- The octets of an escape. -/
theorem encode_octet (b : UInt8) :
    Utf8.encode (octet b) =
      [0x25, UInt8.ofNat (hexDigit (b.toNat / 16)).toNat,
        UInt8.ofNat (hexDigit (b.toNat % 16)).toNat] := by
  have hbound : b.toNat < 256 := b.toNat_lt
  have hascii : ∀ n < 16, (hexDigit n).toNat < 0x80 := by decide
  rw [octet, Utf8.encode_cons, Utf8.encode_cons, Utf8.encode_cons, Utf8.encode_nil,
    Utf8.encodeChar_ascii (by decide), Utf8.encodeChar_ascii (hascii _ (by omega)),
    Utf8.encodeChar_ascii (hascii _ (by omega))]
  rfl

/-- An escape is resolved to its octet. -/
theorem decode_encode_octet (b : UInt8) (rest : Bytes) :
    decode (Utf8.encode (octet b) ++ rest) = b :: decode rest := by
  have hbound : b.toNat < 256 := b.toNat_lt
  have hvalue : UInt8.ofNat (b.toNat / 16 * 16 + b.toNat % 16) = b :=
    ofNat_eq_of_toNat (by omega)
  rw [encode_octet]
  show decode (0x25 :: UInt8.ofNat (hexDigit (b.toNat / 16)).toNat ::
    UInt8.ofNat (hexDigit (b.toNat % 16)).toNat :: rest) = b :: decode rest
  rw [decode, hexValue?_hexDigit (by omega), hexValue?_hexDigit (by omega)]
  dsimp only
  rw [hvalue]

end Escape

namespace Form

/-! ## Characters of a field -/

theorem toNat_lt_of_isPlain {c : Char} (h : isPlain c = true) : c.toNat < 0x7F := by
  rw [isPlain, Bool.or_eq_true, Bool.or_eq_true, Bool.or_eq_true, Bool.or_eq_true] at h
  rcases h with (((h | h) | h) | h) | h
  · exact toNat_lt_of_isAlphanum h
  all_goals
    rw [eq_of_beq h]
    decide

/-- What holds of all ASCII characters that stand for themselves holds of all that do. -/
theorem forall_isPlain {p : Char → Prop}
    (hall : ∀ n < 0x7F, isPlain (Char.ofNat n) = true → p (Char.ofNat n)) {c : Char}
    (h : isPlain c = true) : p c := by
  have hc := hall c.toNat (toNat_lt_of_isPlain h)
  rw [Char.ofNat_toNat] at hc
  exact hc h

/-- A class of characters that has none of those that a name or a value is written with. -/
structure IsAbsent (marked : Char → Bool) : Prop where
  plain : ∀ c, isPlain c = true → marked c = false
  plus : marked '+' = false
  escape : Escape.IsFinal marked

theorem isAbsent_of_decide {marked : Char → Bool}
    (hplain : ∀ n < 0x7F, isPlain (Char.ofNat n) = true → marked (Char.ofNat n) = false)
    (hplus : marked '+' = false) (hpercent : marked '%' = false)
    (hdigit : ∀ n < 16, marked (Escape.hexDigit n) = false) : IsAbsent marked where
  plain _ hc := forall_isPlain (p := fun c => marked c = false) hplain hc
  plus := hplus
  escape := Escape.isFinal_of_digits hpercent hdigit

/-- None of them comes up in what is written. -/
theorem IsAbsent.eq_false {marked : Char → Bool} (h : IsAbsent marked) {cs : List Char} {c : Char}
    (hc : c ∈ encodeText cs) : marked c = false := by
  obtain ⟨x, -, hx⟩ := List.mem_flatMap.1 hc
  unfold encodeChar at hx
  split at hx
  · rw [List.mem_singleton.1 hx]
    exact h.plus
  · split at hx
    · next hplain =>
      rw [List.mem_singleton.1 hx]
      exact h.plain x hplain
    · obtain ⟨b, -, hb⟩ := List.mem_flatMap.1 hx
      exact h.escape b c hb

theorem isAbsent_equals : IsAbsent (· == '=') :=
  isAbsent_of_decide (by decide) (by decide) (by decide) (by decide)

theorem isAbsent_ampersand : IsAbsent (· == '&') :=
  isAbsent_of_decide (by decide) (by decide) (by decide) (by decide)

theorem isAbsent_inWebQuery : IsAbsent Escape.inWebQuery :=
  isAbsent_of_decide (by decide) (by decide) (by decide) (by decide)

/-- A field has nothing of a class that neither its name and value nor the equals sign have. -/
theorem IsAbsent.eq_false_of_mem_encodePair {marked : Char → Bool} (h : IsAbsent marked)
    (hequals : marked '=' = false) {p : String × String} {c : Char} (hc : c ∈ encodePair p) :
    marked c = false := by
  rcases List.mem_append.1 hc with hc | hc
  · exact h.eq_false hc
  · rcases List.mem_cons.1 hc with rfl | hc
    · exact hequals
    · exact h.eq_false hc

/-- A field stays as it is in the query of a web address. -/
theorem isPlainQuery_encodePair (p : String × String) : Url.IsPlainQuery (encodePair p) :=
  fun _ => isAbsent_inWebQuery.eq_false_of_mem_encodePair (by decide)

/-! ## Reading a field -/

theorem spaces_append (a b : Bytes) : spaces (a ++ b) = spaces a ++ spaces b :=
  List.map_append

/-- There is no plus sign in an escape. -/
theorem spaces_encode_octet (b : UInt8) :
    spaces (Utf8.encode (Escape.octet b)) = Utf8.encode (Escape.octet b) := by
  have hbound : b.toNat < 256 := b.toNat_lt
  have hdigit : ∀ n < 16, UInt8.ofNat (Escape.hexDigit n).toNat ≠ 0x2B := by decide
  have hpercent : (0x25 : UInt8) ≠ 0x2B := by decide
  rw [Escape.encode_octet, spaces, List.map_cons, List.map_cons, List.map_cons, List.map_nil,
    if_neg hpercent, if_neg (hdigit _ (by omega)), if_neg (hdigit _ (by omega))]

/-- Octets that are all escaped are resolved to themselves. -/
theorem decode_spaces_octets (bs rest : Bytes) :
    Escape.decode (spaces (Utf8.encode (bs.flatMap Escape.octet) ++ rest)) =
      bs ++ Escape.decode (spaces rest) := by
  induction bs with
  | nil => rfl
  | cons b bs ih =>
    rw [List.flatMap_cons, Utf8.encode_append, List.append_assoc, spaces_append,
      spaces_encode_octet, Escape.decode_encode_octet, ih]
    rfl

/-- Every character is resolved to its octets. -/
theorem decode_spaces_encodeChar (c : Char) (rest : Bytes) :
    Escape.decode (spaces (Utf8.encode (encodeChar c) ++ rest)) =
      Utf8.encodeChar c ++ Escape.decode (spaces rest) := by
  unfold encodeChar
  split
  · next hspace =>
    rw [hspace]
    show Escape.decode (0x20 :: spaces rest) = 0x20 :: Escape.decode (spaces rest)
    exact Escape.decode_cons_of_ne (by decide) _
  · split
    · next hplain =>
      have hlow := toNat_lt_of_isPlain hplain
      have hne : UInt8.ofNat c.toNat ≠ 0x2B ∧ UInt8.ofNat c.toNat ≠ 0x25 :=
        forall_isPlain (p := fun c => UInt8.ofNat c.toNat ≠ 0x2B ∧ UInt8.ofNat c.toNat ≠ 0x25)
          (by decide) hplain
      rw [Utf8.encode_cons, Utf8.encode_nil, List.append_nil,
        Utf8.encodeChar_ascii (by omega), spaces_append, spaces, List.map_cons, List.map_nil,
        if_neg hne.1]
      exact Escape.decode_cons_of_ne hne.2 _
    · exact decode_spaces_octets (Utf8.encodeChar c) rest

/-- So is a whole text. -/
theorem decode_spaces_encodeText (cs : List Char) :
    Escape.decode (spaces (Utf8.encode (encodeText cs))) = Utf8.encode cs := by
  induction cs with
  | nil => rfl
  | cons c cs ih =>
    rw [encodeText, List.flatMap_cons, Utf8.encode_append, decode_spaces_encodeChar,
      ← encodeText, ih, Utf8.encode_cons]

/-- A name or value is read as it was written. -/
theorem decodeText_encodeText (s : String) :
    decodeText (Utf8.encode (encodeText s.toList)) = s := by
  rw [decodeText, decode_spaces_encodeText, Utf8.lossy_encode, String.ofList_toList]

/-- A query that is one field is read as just that field. -/
theorem decode_encodePair (p : String × String) : decode (Utf8.encode (encodePair p)) = [p] := by
  -- no octet of an ASCII mark comes up where its character does not
  have hampersand : ∀ b ∈ Utf8.encode (encodePair p), (b == 0x26) = false := by
    intro b hb
    rw [beq_eq_false_iff_ne]
    rintro rfl
    have hmem : '&' ∈ encodePair p := Utf8.mem_of_mem_encode (by decide) hb
    exact absurd (isAbsent_ampersand.eq_false_of_mem_encodePair (by decide) hmem) (by decide)
  have hequals : ∀ b ∈ Utf8.encode (encodeText p.1.toList), (b != 0x3D) = true := by
    intro b hb
    rw [bne_iff_ne]
    rintro rfl
    have hmem : '=' ∈ encodeText p.1.toList := Utf8.mem_of_mem_encode (by decide) hb
    exact absurd (isAbsent_equals.eq_false hmem) (by decide)
  have hjoin : Utf8.encode (encodePair p) = Utf8.encode (encodeText p.1.toList) ++
      0x3D :: Utf8.encode (encodeText p.2.toList) := by
    rw [encodePair, Utf8.encode_append]
    rfl
  have hname : (Utf8.encode (encodePair p)).takeWhile (· != 0x3D) =
      Utf8.encode (encodeText p.1.toList) := by
    rw [hjoin]
    exact takeWhile_append_of_stop hequals fun b hb => by
      rw [← Option.some.inj hb]
      rfl
  have hvalue : (Utf8.encode (encodePair p)).drop
      ((Utf8.encode (encodeText p.1.toList)).length + 1) =
        Utf8.encode (encodeText p.2.toList) := by
    rw [hjoin, ← List.drop_drop, List.drop_left]
    rfl
  have hne : Utf8.encode (encodePair p) ≠ [] := by
    rw [hjoin]
    exact List.append_ne_nil_of_right_ne_nil _ (List.cons_ne_nil _ _)
  rw [decode, List.splitOnP_eq_singleton hampersand, List.filter_cons_of_pos (by simpa using hne),
    List.filter_nil, List.map_singleton]
  dsimp only
  rw [hname, hvalue, decodeText_encodeText, decodeText_encodeText]

/-- A value with a space, a plus sign, an equals sign and characters beyond ASCII. -/
example : decode (Utf8.ofString "version=a+%2B%3D%C3%A9%F0%9F%8E%89") =
    [("version", "a +=é🎉")] := by
  decide +kernel

/-! ## Many fields -/

/-- Around an ampersand the fields are read one side after the other. -/
theorem decode_append (a b : Bytes) : decode (a ++ 0x26 :: b) = decode a ++ decode b := by
  unfold decode
  rw [List.splitOnP_append_cons _ _ (by decide), List.filter_append, List.map_append]

/-- Whether a text is the query of some fields: it stays as it is in a web address, and the fields
are read from it in their order. -/
structure IsQueryOf (fields : List (String × String)) (query : List Char) : Prop where
  ne_nil : query ≠ []
  plain : Url.IsPlainQuery query
  read : decode (Utf8.encode query) = fields

theorem isQueryOf_encodePair (p : String × String) : IsQueryOf [p] (encodePair p) where
  ne_nil := List.append_ne_nil_of_right_ne_nil _ (List.cons_ne_nil _ _)
  plain := isPlainQuery_encodePair p
  read := decode_encodePair p

/-- Another field goes behind an ampersand. -/
theorem IsQueryOf.append {fields : List (String × String)} {query : List Char}
    (h : IsQueryOf fields query) (p : String × String) :
    IsQueryOf (fields ++ [p]) (query ++ '&' :: encodePair p) where
  ne_nil := List.append_ne_nil_of_left_ne_nil h.ne_nil _
  plain := List.forall_mem_append.2
    ⟨h.plain, List.forall_mem_cons.2 ⟨by decide, isPlainQuery_encodePair p⟩⟩
  read := by
    rw [Utf8.encode_append]
    show decode (Utf8.encode query ++ 0x26 :: Utf8.encode (encodePair p)) = _
    rw [decode_append, h.read, decode_encodePair]

/-- The query of fields that are added one by one. -/
def queryOf (fields : List (String × String)) : Option (List Char) :=
  fields.foldl addPair none

/-- All of them are read from it, and if there are any it is there. -/
theorem exists_isQueryOf {fields : List (String × String)} (hne : fields ≠ []) :
    ∃ query, queryOf fields = some query ∧ IsQueryOf fields query := by
  induction fields using List.reverseRecOn with
  | nil => exact absurd rfl hne
  | append_singleton fields p ih =>
    by_cases hnil : fields = []
    · rw [hnil]
      exact ⟨_, rfl, isQueryOf_encodePair p⟩
    · obtain ⟨query, hquery, hread⟩ := ih hnil
      refine ⟨_, ?_, hread.append p⟩
      rw [queryOf, List.foldl_concat, ← queryOf, hquery]
      -- only an empty query would be replaced
      cases query with
      | nil => exact absurd rfl hread.ne_nil
      | cons c query => rfl

theorem isQueryOf_of_mem {fields : List (String × String)} {query : List Char}
    (h : query ∈ queryOf fields) : IsQueryOf fields query := by
  have hne : fields ≠ [] := by
    rintro rfl
    exact absurd h (by simp [queryOf])
  obtain ⟨only, honly, hread⟩ := exists_isQueryOf hne
  obtain rfl := Option.some.inj (honly.symm.trans h)
  exact hread

end Form

end RegistryConsole
