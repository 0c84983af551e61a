import RegistryConsole.Proofs.Json.Texts

/-! # Reading values back

The compact form of a value without fractions is read as that value, with the members of its
objects in the order of their names. Writer and reader meet at every level of nesting: the reader
takes exactly the octets that the writer wrote, whatever follows. -/

namespace RegistryConsole.Json

/-! ## Values that are read back -/

/-- Whether a value nests at most `levels` deep and all its numbers are integers. -/
def Fits : (levels : Nat) → Json → Prop
  | _, .null => True
  | _, .bool _ => True
  | _, .string _ => True
  | _, .number (.integer _ _) => True
  | _, .number (.float _) => False
  | 0, .array _ => False
  | 0, .object _ => False
  | levels + 1, .array items => ∀ item ∈ items, Fits levels item
  | levels + 1, .object members => ∀ m ∈ members, Fits levels m.2

/-- Whether a reader takes the compact form of a value, and nothing else, off the start of any
octets that do not go on with a number, and reads `x` from it. -/
def ReadsAs {α : Type} (read : Cursor → Except Fault (α × Cursor)) (j : Json) (x : α) : Prop :=
  ∀ (rest : Bytes) (n : Nat), EndsNumber rest →
    read ⟨Utf8.encode j.compact ++ rest, n⟩ =
      .ok (x, ⟨rest, n + (Utf8.encode j.compact).length⟩)

/-- A decimal starts with a digit. -/
theorem exists_write_eq (form : DecimalForm) (d : Decimal) :
    ∃ c cs, form.write d = c :: cs ∧ c.isDigit = true := by
  have hdigits : ∀ c ∈ Nat.toDigits 10 d.digits, c.isDigit = true :=
    fun c hc => Nat.isDigit_of_mem_toDigits (by decide) (by decide) hc
  unfold DecimalForm.write
  cases htext : Nat.toDigits 10 d.digits with
  | nil => exact absurd htext Nat.toDigits_ne_nil
  | cons c cs =>
    have hc : c.isDigit = true := hdigits c (by rw [htext]; exact List.mem_cons_self)
    dsimp only
    split
    · split
      · exact ⟨c, _, rfl, hc⟩
      · split
        · next hpoint =>
          -- at least the first digit stands before the point
          obtain ⟨k, hk⟩ : ∃ k, (((c :: cs).length : Int) + d.exponent).toNat = k + 1 :=
            ⟨(((c :: cs).length : Int) + d.exponent).toNat - 1, by omega⟩
          rw [hk]
          exact ⟨c, _, rfl, hc⟩
        · exact ⟨'0', _, rfl, by decide⟩
    · exact ⟨c, _, rfl, hc⟩

/-- A number starts with a digit or a minus sign. -/
theorem exists_text_eq (x : Number) : ∃ c cs, x.text = c :: cs ∧ (c = '-' ∨ c.isDigit = true) := by
  cases x with
  | integer k hfits =>
    show ∃ c cs, Number.integerText k = c :: cs ∧ _
    unfold Number.integerText
    split
    · exact ⟨_, _, rfl, Or.inl rfl⟩
    · cases hdigits : Nat.toDigits 10 k.natAbs with
      | nil => exact absurd hdigits Nat.toDigits_ne_nil
      | cons c cs =>
        exact ⟨c, cs, rfl, Or.inr (Nat.isDigit_of_mem_toDigits (b := 10) (by decide) (by decide)
          (by rw [hdigits]; exact List.mem_cons_self))⟩
  | float x =>
    show ∃ c cs, Number.floatText x = c :: cs ∧ _
    unfold Number.floatText
    cases x.negative with
    | true => exact ⟨_, _, rfl, Or.inl rfl⟩
    | false =>
      by_cases hzero : x.significand = 0
      · rw [if_pos hzero]
        exact ⟨'0', _, rfl, Or.inr (by decide)⟩
      · rw [if_neg hzero]
        obtain ⟨c, cs, htext, hc⟩ := exists_write_eq Number.floatForm x.shortest
        exact ⟨c, cs, htext, Or.inr hc⟩

/-- The first octet of a value is no white space, closes no list, and is that of `null` for no other
value. -/
theorem exists_encode_compact_eq (j : Json) :
    ∃ b bs, Utf8.encode j.compact = b :: bs ∧ Cursor.isSpace b = false ∧ b ≠ 0x5D ∧
      (j ≠ .null → b ≠ 0x6E) := by
  cases j with
  | null => exact ⟨_, _, rfl, rfl, by decide, fun h => absurd rfl h⟩
  | bool b => cases b <;> exact ⟨_, _, rfl, rfl, by decide, fun _ => by decide⟩
  | string s => exact ⟨_, _, rfl, rfl, by decide, fun _ => by decide⟩
  | array items => exact ⟨_, _, rfl, rfl, by decide, fun _ => by decide⟩
  | object members => exact ⟨_, _, rfl, rfl, by decide, fun _ => by decide⟩
  | number x =>
    obtain ⟨c, cs, htext, hc⟩ := exists_text_eq x
    have hcompact : Utf8.encode (compact (.number x)) = Utf8.encodeChar c ++ Utf8.encode cs := by
      rw [← Utf8.encode_cons, ← htext]
      rfl
    rcases hc with rfl | hc
    · exact ⟨_, _, hcompact, by decide, by decide, fun _ => by decide⟩
    · obtain ⟨hoctet, hdigit⟩ := encodeChar_isDigit hc
      have hother : ∀ x : UInt8, Cursor.digit? x = none → UInt8.ofNat c.toNat ≠ x := by
        rintro x hx rfl
        rw [hx] at hdigit
        exact absurd hdigit (by simp)
      refine ⟨UInt8.ofNat c.toNat, Utf8.encode cs, ?_, ?_, hother _ (by decide),
        fun _ => hother _ (by decide)⟩
      · rw [hcompact, hoctet]
        rfl
      · simp [Cursor.isSpace, hother 0x20 (by decide), hother 0x0A (by decide),
          hother 0x09 (by decide), hother 0x0D (by decide)]

/-- So the octets of a value start as those of an item do. -/
theorem startsValue_encode_compact (j : Json) : StartsValue (Utf8.encode j.compact) := by
  obtain ⟨b, bs, hb, hspace, hclose, -⟩ := exists_encode_compact_eq j
  exact ⟨b, bs, hb, hspace, hclose⟩

/-! ## Lists and objects -/

variable {α : Type}

/-- The octets of the items of a list are made up of those of each. -/
theorem encode_compactItems (first : Bool) (items : List Json) :
    Utf8.encode (compactItems first items) =
      itemsText first (items.map fun item => Utf8.encode item.compact) := by
  induction items generalizing first with
  | nil => rfl
  | cons item items ih =>
    rw [compactItems, Utf8.encode_append, Utf8.encode_append, ih, List.append_assoc]
    cases first <;> rfl

theorem encode_array (items : List Json) :
    Utf8.encode (compact (.array items)) =
      arrayText (items.map fun item => Utf8.encode item.compact) :=
  congrArg (0x5B :: ·) (encode_compactItems true items)

/-- Each of the octets of values starts as those of a value do. -/
theorem startsValue_of_mem_encoded {items : List Json} :
    ∀ text ∈ items.map (fun item => Utf8.encode item.compact), StartsValue text := by
  intro text htext
  obtain ⟨item, -, rfl⟩ := List.mem_map.1 htext
  exact startsValue_encode_compact item

/-- The octets of a list, after the one that opens it, hold all of its items. -/
theorem readItems_array {read : Cursor → Except Fault (α × Cursor)} {items : List Json}
    {xs : List α} (hread : List.Forall₂ (ReadsAs read) items xs) (rest : Bytes) (n : Nat) :
    readItems read ((Utf8.encode (compact (.array items)) ++ rest).length + 1) true
        ⟨Utf8.encode (compactItems true items) ++ rest, n + 1⟩ =
      .ok (xs, ⟨rest, n + (Utf8.encode (compact (.array items))).length⟩) := by
  rw [encode_array, encode_compactItems]
  exact readItems_arrayText (List.forall₂_map_left_iff.2 hread) startsValue_of_mem_encoded rest n

/-- The octets of the members of an object are made up of those of the value of each. -/
theorem encode_compactMembers (first : Bool) (members : List (String × Json)) :
    Utf8.encode (compactMembers first members) =
      membersText first (members.map fun m => (m.1, Utf8.encode m.2.compact)) := by
  induction members generalizing first with
  | nil => rfl
  | cons m members ih =>
    obtain ⟨name, value⟩ := m
    have hcolon : Utf8.encode [':'] = [0x3A] := rfl
    rw [compactMembers, Utf8.encode_append, Utf8.encode_append, Utf8.encode_append,
      Utf8.encode_append, encode_stringText, hcolon, ih]
    cases first <;> simp [Utf8.encodeChar, membersText]

theorem encode_object (members : List (String × Json)) :
    Utf8.encode (compact (.object members)) =
      objectText (members.map fun m => (m.1, Utf8.encode m.2.compact)) :=
  congrArg (0x7B :: ·) (encode_compactMembers true members)

/-- Whether a member has the name of another and is read as the value of that one. -/
def MemberReadsAs (read : Cursor → Except Fault (α × Cursor)) (m : String × Json)
    (x : String × α) : Prop :=
  m.1 = x.1 ∧ ReadsAs read m.2 x.2

/-- The octets of an object, after the one that opens it, hold all of its members. -/
theorem readMembers_object {read : Cursor → Except Fault (α × Cursor)}
    {members : List (String × Json)} {xs : List (String × α)}
    (hread : List.Forall₂ (MemberReadsAs read) members xs) (rest : Bytes) (n : Nat) :
    readMembers read ((Utf8.encode (compact (.object members)) ++ rest).length + 1) true
        ⟨Utf8.encode (compactMembers true members) ++ rest, n + 1⟩ =
      .ok (xs, ⟨rest, n + (Utf8.encode (compact (.object members))).length⟩) := by
  rw [encode_object, encode_compactMembers]
  exact readMembers_objectText (List.forall₂_map_left_iff.2 hread) rest n

/-! ## Values -/

/-- What is read as a scalar is read as a value. -/
theorem readWith_of_readToken {inner : Option (Cursor → Except Fault (Json × Cursor))}
    {c after : Cursor} {token : Token} {j : Json} (htoken : readToken c = .ok (token, after))
    (hj : (token = .null ∧ j = .null) ∨ (∃ b, token = .bool b ∧ j = .bool b) ∨
      (∃ x, token = .number x ∧ j = .number x) ∨ ∃ s, token = .string s ∧ j = .string s) :
    readWith inner c = .ok (j, after) := by
  rw [readWith, htoken]
  rcases hj with ⟨rfl, rfl⟩ | ⟨b, rfl, rfl⟩ | ⟨x, rfl, rfl⟩ | ⟨s, rfl, rfl⟩ <;> rfl

/-- Whether a value holds no other values. -/
def IsScalar : Json → Prop
  | .array _ => False
  | .object _ => False
  | _ => True

/-- A scalar is read back at any level. -/
theorem readsAs_scalar {levels : Nat} {j : Json}
    (inner : Option (Cursor → Except Fault (Json × Cursor))) (hj : Fits levels j)
    (hscalar : j.IsScalar) : ReadsAs (readWith inner) j j.sorted := by
  intro rest n hrest
  cases j with
  | null => rfl
  | bool b => cases b <;> rfl
  | string s =>
    exact readWith_of_readToken (readToken_stringText s rest n)
      (Or.inr (Or.inr (Or.inr ⟨s, rfl, rfl⟩)))
  | number x =>
    cases x with
    | float x => cases levels <;> exact absurd hj (by simp [Fits])
    | integer k hfits =>
      exact readWith_of_readToken (readToken_integer hfits hrest n)
        (Or.inr (Or.inr (Or.inl ⟨_, rfl, rfl⟩)))
  | array items => exact absurd hscalar id
  | object members => exact absurd hscalar id

/-- A list of values is read as one, one level deeper. -/
theorem readsText_arrayText {levels : Nat} {texts : List Bytes} {items : List Json}
    (hread : List.Forall₂ (ReadsText (readValue levels)) texts items)
    (hstart : ∀ text ∈ texts, StartsValue text) :
    ReadsText (readValue (levels + 1)) (arrayText texts) (.array items) := by
  intro rest n _
  show (readItems (readValue levels) ((arrayText texts ++ rest).length + 1) true
    ⟨itemsText true texts ++ rest, n + 1⟩).map _ = _
  rw [readItems_arrayText hread hstart rest n]
  rfl

/-- So is an object, with its members put in order. -/
theorem readsText_objectText {levels : Nat} {members : List (String × Bytes)}
    {values : List (String × Json)}
    (hread : List.Forall₂ (MemberReadsText (readValue levels)) members values) :
    ReadsText (readValue (levels + 1)) (objectText members) (.object (sortMembers values)) := by
  intro rest n _
  show (readMembers (readValue levels) ((objectText members ++ rest).length + 1) true
    ⟨membersText true members ++ rest, n + 1⟩).map _ = _
  rw [readMembers_objectText hread rest n]
  rfl

/-- The items of a list are read as those of the list in order. -/
theorem forall₂_sortedItems {read : Cursor → Except Fault (Json × Cursor)} {items : List Json}
    (h : ∀ item ∈ items, ReadsAs read item item.sorted) :
    List.Forall₂ (ReadsAs read) items (sortedItems items) := by
  induction items with
  | nil => exact .nil
  | cons item items ih =>
    exact .cons (h item List.mem_cons_self) (ih fun x hx => h x (List.mem_cons_of_mem item hx))

/-- So are the members of an object. -/
theorem forall₂_sortedMembers {read : Cursor → Except Fault (Json × Cursor)}
    {members : List (String × Json)} (h : ∀ m ∈ members, ReadsAs read m.2 m.2.sorted) :
    List.Forall₂ (MemberReadsAs read) members (sortedMembers members) := by
  induction members with
  | nil => exact .nil
  | cons m members ih =>
    obtain ⟨name, value⟩ := m
    exact .cons ⟨rfl, h (name, value) List.mem_cons_self⟩
      (ih fun x hx => h x (List.mem_cons_of_mem (name, value) hx))

/-- A value that nests at most `levels` deep is read back by the reader for that depth. -/
theorem readsAs_readValue {levels : Nat} {j : Json} (hj : Fits levels j) :
    ReadsAs (readValue levels) j j.sorted := by
  induction levels generalizing j with
  | zero =>
    cases j with
    | array items => exact absurd hj (by simp [Fits])
    | object members => exact absurd hj (by simp [Fits])
    | null | bool | string | number =>
      exact readsAs_scalar none hj trivial
  | succ levels ih =>
    cases j with
    | null | bool | string | number =>
      exact readsAs_scalar (some (readValue levels)) hj trivial
    | array items =>
      have hitems : ∀ item ∈ items, Fits levels item := hj
      have hread := forall₂_sortedItems fun item hitem => ih (hitems item hitem)
      show ReadsText _ (Utf8.encode (compact (.array items))) _
      rw [encode_array]
      exact readsText_arrayText (List.forall₂_map_left_iff.2 hread) startsValue_of_mem_encoded
    | object members =>
      have hmembers : ∀ m ∈ members, Fits levels m.2 := hj
      have hread := forall₂_sortedMembers fun m hm => ih (hmembers m hm)
      show ReadsText _ (Utf8.encode (compact (.object members))) _
      rw [encode_object]
      exact readsText_objectText (List.forall₂_map_left_iff.2 hread)

/-- What is read as a value is read as a whole text from its octets. -/
theorem readWhole_bytes {read : Cursor → Except Fault (α × Cursor)} {j : Json} {x : α}
    (h : ReadsAs read j x) : readWhole read j.bytes = .ok x :=
  ReadsText.readWhole h

/-- A value that nests no deeper than may be read is read back from its octets. -/
theorem ofBytes?_bytes {j : Json} (hj : Fits maxLevels j) : ofBytes? j.bytes = .ok j.sorted :=
  readWhole_bytes (readsAs_readValue hj)

/-! ## Members in order -/

/-- A name after all others is put at the end. -/
theorem insertMember_of_lt {name : String} {value : α} {members : List (String × α)}
    (h : ∀ m ∈ members, m.1 < name) :
    insertMember name value members = members ++ [(name, value)] := by
  induction members with
  | nil => rfl
  | cons first members ih =>
    obtain ⟨hfirst, hrest⟩ := List.forall_mem_cons.1 h
    have hne : name ≠ first.1 := by
      rintro rfl
      exact String.lt_irrefl _ hfirst
    rw [insertMember, if_neg hne, if_neg (String.lt_asymm hfirst), ih hrest]
    rfl

/-- Members in order stay as they are. -/
theorem sortMembers_of_inOrder {members : List (String × α)} (h : InOrder members) :
    sortMembers members = members := by
  suffices hfold : ∀ kept : List (String × α), InOrder (kept ++ members) →
      members.foldl (fun sorted m => insertMember m.1 m.2 sorted) kept = kept ++ members from
    hfold [] h
  induction members with
  | nil => exact fun kept _ => (List.append_nil kept).symm
  | cons first members ih =>
    intro kept hkept
    have hlast : ∀ m ∈ kept, m.1 < first.1 := fun m hm =>
      (List.pairwise_append.1 hkept).2.2 m hm first List.mem_cons_self
    rw [List.foldl_cons, insertMember_of_lt hlast]
    have hsplit : kept ++ first :: members = kept ++ [first] ++ members := by
      rw [List.append_assoc, List.singleton_append]
    rw [hsplit] at hkept ⊢
    exact ih (List.pairwise_cons.1 h).2 _ hkept

/-- The member that is set is found, and all others are found as before. -/
theorem find?_insertMember (name n : String) (value : α) (members : List (String × α)) :
    (insertMember name value members).find? (fun m => m.1 == n) =
      if n = name then some (name, value) else members.find? fun m => m.1 == n := by
  induction members with
  | nil =>
    by_cases hn : n = name
    · simp [insertMember, hn]
    · simp [insertMember, hn, Ne.symm hn]
  | cons first members ih =>
    obtain ⟨other, x⟩ := first
    unfold insertMember
    by_cases hn : n = name
    · subst hn
      split
      · simp
      · split
        · simp
        · next hne _ =>
          rw [List.find?_cons_of_neg (by simpa using Ne.symm hne), ih, if_pos rfl, if_pos rfl]
    · rw [if_neg hn] at ih ⊢
      split
      · next heq =>
        subst heq
        rw [List.find?_cons_of_neg (by simpa using Ne.symm hn),
          List.find?_cons_of_neg (by simpa using Ne.symm hn)]
      · split
        · rw [List.find?_cons_of_neg (by simpa using Ne.symm hn)]
        · rw [List.find?_cons, List.find?_cons, ih]

/-- Of several members of one name, the last one is found once they are in order. -/
theorem find?_sortMembers (members : List (String × α)) (n : String) :
    (sortMembers members).find? (fun m => m.1 == n) =
      members.reverse.find? fun m => m.1 == n := by
  -- more generally, of the members of a list that are put into one that is in order
  suffices h : ∀ known : List (String × α),
      (members.foldl (fun sorted m => insertMember m.1 m.2 sorted) known).find?
        (fun m => m.1 == n) =
      (members.reverse.find? fun m => m.1 == n).or (known.find? fun m => m.1 == n) by
    rw [sortMembers, h [], List.find?_nil, Option.or_none]
  induction members with
  | nil => exact fun known => rfl
  | cons m members ih =>
    intro known
    rw [List.foldl_cons, ih, find?_insertMember, List.reverse_cons, List.find?_append,
      Option.or_assoc]
    by_cases hn : n = m.1
    · simp [hn]
    · simp [hn, Ne.symm hn]

end RegistryConsole.Json
