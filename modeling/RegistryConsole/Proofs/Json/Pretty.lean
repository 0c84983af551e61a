import RegistryConsole.Proofs.Json.RoundTrip

/-! # The pretty form, read back

The pretty form of a value has white space before every item and member and before every bracket
that closes some, and a space after every colon. The reader passes over all of it, so the pretty
form is read as the same value as the compact form. -/

namespace RegistryConsole.Json

variable {α : Type}

theorem ReadsAs.readsFrom {read : Cursor → Except Fault (α × Cursor)} {j : Json} {x : α}
    (h : ReadsAs read j x) : ReadsFrom read (Utf8.encode j.compact) x :=
  ReadsText.readsFrom h

/-! ## White space -/

section

variable {spaces : Bytes} (hspaces : ∀ b ∈ spaces, Cursor.isSpace b = true)

include hspaces

/-- White space before an item or the end of a list does not matter. -/
theorem nextItem?_spaces (first : Bool) (rest : Bytes) (n : Nat) :
    nextItem? first ⟨spaces ++ rest, n⟩ = nextItem? first ⟨rest, n + spaces.length⟩ := by
  rw [nextItem?, skipSpace_spaces hspaces]
  rfl

/-- Neither does white space after a comma. -/
theorem nextItem?_comma_spaces (rest : Bytes) (n : Nat) :
    nextItem? false ⟨0x2C :: (spaces ++ rest), n⟩ =
      nextItem? false ⟨0x2C :: rest, n + spaces.length⟩ := by
  rw [nextItem?, nextItem?, skipSpace_of_not_space (by decide),
    skipSpace_of_not_space (by decide)]
  dsimp only [Cursor.peek?, List.head?_cons, Cursor.next]
  rw [skipSpace_spaces hspaces, Nat.add_right_comm]
  rfl

/-- White space before a member or the end of an object does not matter. -/
theorem nextName?_spaces (first : Bool) (rest : Bytes) (n : Nat) :
    nextName? first ⟨spaces ++ rest, n⟩ = nextName? first ⟨rest, n + spaces.length⟩ := by
  rw [nextName?, skipSpace_spaces hspaces]
  rfl

/-- Neither does white space after a comma. -/
theorem nextName?_comma_spaces (rest : Bytes) (n : Nat) :
    nextName? false ⟨0x2C :: (spaces ++ rest), n⟩ =
      nextName? false ⟨0x2C :: rest, n + spaces.length⟩ := by
  rw [nextName?, nextName?, skipSpace_of_not_space (by decide),
    skipSpace_of_not_space (by decide)]
  dsimp only [Cursor.peek?, List.head?_cons, Cursor.next]
  rw [skipSpace_spaces hspaces, Nat.add_right_comm]
  rfl

end

/-- A new line is white space. -/
theorem isSpace_of_mem_newLine {depth : Nat} :
    ∀ b ∈ Utf8.encode (newLine depth), Cursor.isSpace b = true := by
  intro b hb
  obtain ⟨c, hc, hoctet⟩ := List.mem_flatMap.1 hb
  rcases List.mem_cons.1 hc with rfl | hc
  · obtain rfl := List.mem_singleton.1 hoctet
    rfl
  · obtain rfl := List.eq_of_mem_replicate hc
    obtain rfl := List.mem_singleton.1 hoctet
    rfl

/-- A value may stand after a space. -/
theorem readValue_space (levels : Nat) (text : Bytes) (n : Nat) :
    readValue levels ⟨0x20 :: text, n⟩ = readValue levels ⟨text, n + 1⟩ := by
  cases levels <;> rfl

theorem ReadsFrom.space {levels : Nat} {text : Bytes} {j : Json}
    (h : ReadsFrom (readValue levels) text j) : ReadsFrom (readValue levels) (0x20 :: text) j := by
  intro rest n hrest
  rw [List.cons_append, readValue_space]
  exact h rest (n + 1) hrest

/-! ## Lists -/

/-- The octets of the items of a list: each on a line of its own, and each but the first after a
comma. -/
theorem encode_prettyItems_cons (depth : Nat) (first : Bool) (item : Json) (items : List Json) :
    Utf8.encode (prettyItems depth first (item :: items)) =
      (if first then [] else [0x2C]) ++ (Utf8.encode (newLine depth) ++
        (Utf8.encode (item.prettyAt depth) ++ Utf8.encode (prettyItems depth false items))) := by
  rw [prettyItems, Utf8.encode_append, Utf8.encode_append, Utf8.encode_append, List.append_assoc,
    List.append_assoc]
  cases first <;> rfl

/-- The octets of the end of a list, on a line of its own. -/
theorem encode_prettyItems_nil (depth : Nat) (first : Bool) :
    Utf8.encode (prettyItems depth first []) = Utf8.encode (newLine (depth - 1)) ++ [0x5D] :=
  Utf8.encode_append _ _

/-- Neither a new line nor a comma goes on with a number. -/
theorem endsNumber_of_mem {b : UInt8} (hb : b = 0x0A ∨ b = 0x2C) (rest : Bytes) :
    EndsNumber (b :: rest) := by
  intro x hx
  obtain rfl := Option.some.inj hx
  rcases hb with rfl | rfl <;> decide

/-- What follows an item of a list ends a number. -/
theorem endsNumber_prettyItems (depth : Nat) (items : List Json) (rest : Bytes) :
    EndsNumber (Utf8.encode (prettyItems depth false items) ++ rest) := by
  cases items with
  | nil => exact endsNumber_of_mem (Or.inl rfl) _
  | cons item items =>
    rw [encode_prettyItems_cons]
    exact endsNumber_of_mem (Or.inr rfl) _

/-- A value that holds no others has one form. -/
theorem prettyAt_of_isScalar {j : Json} (h : j.IsScalar) (depth : Nat) :
    j.prettyAt depth = j.compact := by
  cases j with
  | array items => exact absurd h id
  | object members => exact absurd h id
  | null | bool | number | string => rfl

/-- The first octet of a value is no white space and closes no list. -/
theorem exists_encode_prettyAt_eq (depth : Nat) (j : Json) :
    ∃ b bs, Utf8.encode (j.prettyAt depth) = b :: bs ∧ Cursor.isSpace b = false ∧ b ≠ 0x5D := by
  by_cases hscalar : j.IsScalar
  · obtain ⟨b, bs, hb, hspace, hclose, -⟩ := exists_encode_compact_eq j
    rw [prettyAt_of_isScalar hscalar]
    exact ⟨b, bs, hb, hspace, hclose⟩
  · cases j with
    | array items => cases items <;> exact ⟨_, _, rfl, rfl, by decide⟩
    | object members => cases members <;> exact ⟨_, _, rfl, rfl, by decide⟩
    | null | bool | number | string => exact absurd trivial hscalar

/-- The next item of a list stands right before its own octets. -/
theorem exists_nextItem?_pretty (depth : Nat) (first : Bool) (item : Json) (items : List Json)
    (rest : Bytes) (n : Nat) :
    ∃ p peeked, nextItem? first
        ⟨Utf8.encode (prettyItems depth first (item :: items)) ++ rest, n⟩ =
      .ok (some ⟨Utf8.encode (item.prettyAt depth) ++
        (Utf8.encode (prettyItems depth false items) ++ rest), p⟩, peeked) := by
  obtain ⟨b, bs, hb, hspace, hclose⟩ := exists_encode_prettyAt_eq depth item
  rw [encode_prettyItems_cons, hb]
  simp only [List.append_assoc, List.cons_append]
  cases first with
  | true =>
    rw [if_pos rfl, List.nil_append, nextItem?_spaces isSpace_of_mem_newLine,
      nextItem?_first hspace hclose]
    exact ⟨_, _, rfl⟩
  | false =>
    rw [if_neg (by simp), List.singleton_append, nextItem?_comma_spaces isSpace_of_mem_newLine,
      nextItem?_comma hspace hclose]
    exact ⟨_, _, rfl⟩

/-- The end of a list is found after its new line. -/
theorem exists_nextItem?_close (depth : Nat) (first : Bool) (rest : Bytes) (n : Nat) :
    ∃ k, nextItem? first ⟨Utf8.encode (prettyItems depth first []) ++ rest, n⟩ =
      .ok (none, ⟨0x5D :: rest, k⟩) := by
  rw [encode_prettyItems_nil, List.append_assoc, nextItem?_spaces isSpace_of_mem_newLine]
  exact ⟨_, rfl⟩

/-- A list of values is read, if its items are. -/
theorem readItems_prettyItems {read : Cursor → Except Fault (α × Cursor)} {depth : Nat}
    {items : List Json} {xs : List α}
    (hread : List.Forall₂ (fun item => ReadsFrom read (Utf8.encode (item.prettyAt depth))) items xs)
    (first : Bool) {fuel : Nat} (hfuel : items.length < fuel) (rest : Bytes) (n : Nat) :
    ∃ k, readItems read fuel first
      ⟨Utf8.encode (prettyItems depth first items) ++ rest, n⟩ = .ok (xs, ⟨rest, k⟩) := by
  obtain ⟨fuel, rfl⟩ : ∃ k, fuel = k + 1 := ⟨fuel - 1, by omega⟩
  induction hread generalizing first fuel n with
  | nil =>
    obtain ⟨k, hclose⟩ := exists_nextItem?_close depth first rest n
    rw [readItems, hclose]
    exact ⟨k + 1, rfl⟩
  | @cons item x items xs hitem _ ih =>
    obtain ⟨p, peeked, hnext⟩ := exists_nextItem?_pretty depth first item items rest n
    obtain ⟨q, hitem⟩ := hitem _ p (endsNumber_prettyItems depth items rest)
    obtain ⟨fuel, rfl⟩ : ∃ k, fuel = k + 1 :=
      ⟨fuel - 1, by rw [List.length_cons] at hfuel; omega⟩
    obtain ⟨k, hitems⟩ := ih false q fuel (Nat.lt_of_succ_lt_succ hfuel)
    exact ⟨k, readItems_cons hnext hitem hitems⟩

/-- A list has no more items than octets. -/
theorem length_le_encode_prettyItems (depth : Nat) (items : List Json) (first : Bool) :
    items.length ≤ (Utf8.encode (prettyItems depth first items)).length := by
  induction items generalizing first with
  | nil => exact Nat.zero_le _
  | cons item items ih =>
    obtain ⟨b, bs, hb, -⟩ := exists_encode_prettyAt_eq depth item
    have ih := ih false
    rw [encode_prettyItems_cons, hb]
    simp only [List.length_append, List.length_cons]
    omega

/-- The octets of a list, after the one that opens it, hold all of its items: a reader that counts
them has fuel for each. -/
theorem exists_readItems_pretty {read : Cursor → Except Fault (α × Cursor)} {depth : Nat}
    {item : Json} {items : List Json} {xs : List α}
    (hread : List.Forall₂ (fun item => ReadsFrom read (Utf8.encode (item.prettyAt (depth + 1))))
      (item :: items) xs) (rest : Bytes) (n : Nat) :
    ∃ k, readItems read
        ((Utf8.encode (prettyAt depth (.array (item :: items))) ++ rest).length + 1) true
        ⟨Utf8.encode (prettyItems (depth + 1) true (item :: items)) ++ rest, n + 1⟩ =
      .ok (xs, ⟨rest, k⟩) := by
  have hopen : Utf8.encode (prettyAt depth (.array (item :: items))) =
      0x5B :: Utf8.encode (prettyItems (depth + 1) true (item :: items)) := rfl
  have hlength := length_le_encode_prettyItems (depth + 1) (item :: items) true
  exact readItems_prettyItems hread true
    (by simp only [hopen, List.length_append, List.length_cons] at hlength ⊢; omega) rest (n + 1)

/-! ## Objects -/

/-- The octets of the members of an object: each on a line of its own, and each but the first after
a comma. -/
theorem encode_prettyMembers_cons (depth : Nat) (first : Bool) (name : String) (value : Json)
    (members : List (String × Json)) :
    Utf8.encode (prettyMembers depth first ((name, value) :: members)) =
      (if first then [] else [0x2C]) ++ (Utf8.encode (newLine depth) ++ 0x22 ::
        (Utf8.encode (name.toList.flatMap escapedChar) ++ 0x22 :: 0x3A :: 0x20 ::
          (Utf8.encode (value.prettyAt depth) ++
            Utf8.encode (prettyMembers depth false members)))) := by
  have hcolon : Utf8.encode [':', ' '] = [0x3A, 0x20] := rfl
  rw [prettyMembers, Utf8.encode_append, Utf8.encode_append, Utf8.encode_append,
    Utf8.encode_append, Utf8.encode_append, encode_stringText, hcolon]
  cases first <;> simp [Utf8.encodeChar]

/-- The octets of the end of an object, on a line of its own. -/
theorem encode_prettyMembers_nil (depth : Nat) (first : Bool) :
    Utf8.encode (prettyMembers depth first []) = Utf8.encode (newLine (depth - 1)) ++ [0x7D] :=
  Utf8.encode_append _ _

/-- What follows a member of an object ends a number. -/
theorem endsNumber_prettyMembers (depth : Nat) (members : List (String × Json)) (rest : Bytes) :
    EndsNumber (Utf8.encode (prettyMembers depth false members) ++ rest) := by
  cases members with
  | nil => exact endsNumber_of_mem (Or.inl rfl) _
  | cons m members =>
    obtain ⟨name, value⟩ := m
    rw [encode_prettyMembers_cons]
    exact endsNumber_of_mem (Or.inr rfl) _

/-- The next name of an object stands right after its quote, and its value after a colon and a
space. -/
theorem exists_nextName?_pretty (depth : Nat) (first : Bool) (name : String) (value : Json)
    (members : List (String × Json)) (rest : Bytes) (n : Nat) :
    ∃ p peeked after, nextName? first
        ⟨Utf8.encode (prettyMembers depth first ((name, value) :: members)) ++ rest, n⟩ =
          .ok (some after, peeked) ∧
      readString after = .ok (name, ⟨0x3A :: (0x20 :: Utf8.encode (value.prettyAt depth) ++
        (Utf8.encode (prettyMembers depth false members) ++ rest)), p⟩) := by
  rw [encode_prettyMembers_cons]
  simp only [List.append_assoc, List.cons_append]
  cases first with
  | true =>
    rw [if_pos rfl, List.nil_append, nextName?_spaces isSpace_of_mem_newLine]
    exact ⟨_, _, _, nextName?_first _ _, readString_stringText name _ _⟩
  | false =>
    rw [if_neg (by simp), List.singleton_append, nextName?_comma_spaces isSpace_of_mem_newLine]
    exact ⟨_, _, _, nextName?_comma _ _, readString_stringText name _ _⟩

/-- The end of an object is found after its new line. -/
theorem exists_nextName?_close (depth : Nat) (first : Bool) (rest : Bytes) (n : Nat) :
    ∃ k, nextName? first ⟨Utf8.encode (prettyMembers depth first []) ++ rest, n⟩ =
      .ok (none, ⟨0x7D :: rest, k⟩) := by
  rw [encode_prettyMembers_nil, List.append_assoc, nextName?_spaces isSpace_of_mem_newLine]
  exact ⟨_, rfl⟩

/-- The members of an object are read, if their values are. -/
theorem readMembers_prettyMembers {read : Cursor → Except Fault (α × Cursor)} {depth : Nat}
    {members : List (String × Json)} {xs : List (String × α)}
    (hread : List.Forall₂ (fun m x => m.1 = x.1 ∧
      ReadsFrom read (0x20 :: Utf8.encode (m.2.prettyAt depth)) x.2) members xs)
    (first : Bool) {fuel : Nat} (hfuel : members.length < fuel) (rest : Bytes) (n : Nat) :
    ∃ k, readMembers read fuel first
      ⟨Utf8.encode (prettyMembers depth first members) ++ rest, n⟩ = .ok (xs, ⟨rest, k⟩) := by
  obtain ⟨fuel, rfl⟩ : ∃ k, fuel = k + 1 := ⟨fuel - 1, by omega⟩
  induction hread generalizing first fuel n with
  | nil =>
    obtain ⟨k, hclose⟩ := exists_nextName?_close depth first rest n
    rw [readMembers, hclose]
    exact ⟨k + 1, rfl⟩
  | @cons m x members xs hmember _ ih =>
    obtain ⟨name, value⟩ := m
    obtain ⟨name', x⟩ := x
    obtain ⟨rfl, hvalue⟩ := hmember
    obtain ⟨p, peeked, after, hnext, hname⟩ :=
      exists_nextName?_pretty depth first name value members rest n
    obtain ⟨q, hvalue⟩ := hvalue _ (p + 1) (endsNumber_prettyMembers depth members rest)
    obtain ⟨fuel, rfl⟩ : ∃ k, fuel = k + 1 :=
      ⟨fuel - 1, by rw [List.length_cons] at hfuel; omega⟩
    obtain ⟨k, hmembers⟩ := ih false q fuel (Nat.lt_of_succ_lt_succ hfuel)
    exact ⟨k, readMembers_cons hnext hname (takeColon_colon _ p) hvalue hmembers⟩

/-- An object has no more members than octets. -/
theorem length_le_encode_prettyMembers (depth : Nat) (members : List (String × Json))
    (first : Bool) :
    members.length ≤ (Utf8.encode (prettyMembers depth first members)).length := by
  induction members generalizing first with
  | nil => exact Nat.zero_le _
  | cons m members ih =>
    obtain ⟨name, value⟩ := m
    have ih := ih false
    rw [encode_prettyMembers_cons]
    simp only [List.length_append, List.length_cons]
    omega

/-- The octets of an object, after the one that opens it, hold all of its members. -/
theorem exists_readMembers_pretty {read : Cursor → Except Fault (α × Cursor)} {depth : Nat}
    {m : String × Json} {members : List (String × Json)} {xs : List (String × α)}
    (hread : List.Forall₂ (fun m x => m.1 = x.1 ∧
      ReadsFrom read (0x20 :: Utf8.encode (m.2.prettyAt (depth + 1))) x.2) (m :: members) xs)
    (rest : Bytes) (n : Nat) :
    ∃ k, readMembers read
        ((Utf8.encode (prettyAt depth (.object (m :: members))) ++ rest).length + 1) true
        ⟨Utf8.encode (prettyMembers (depth + 1) true (m :: members)) ++ rest, n + 1⟩ =
      .ok (xs, ⟨rest, k⟩) := by
  have hopen : Utf8.encode (prettyAt depth (.object (m :: members))) =
      0x7B :: Utf8.encode (prettyMembers (depth + 1) true (m :: members)) := rfl
  have hlength := length_le_encode_prettyMembers (depth + 1) (m :: members) true
  exact readMembers_prettyMembers hread true
    (by simp only [hopen, List.length_append, List.length_cons] at hlength ⊢; omega) rest (n + 1)

/-! ## Values -/

/-- The items of a list are read as those of the list in order. -/
theorem forall₂_prettyItems {read : Cursor → Except Fault (Json × Cursor)} {depth : Nat}
    {items : List Json}
    (h : ∀ item ∈ items, ReadsFrom read (Utf8.encode (item.prettyAt depth)) item.sorted) :
    List.Forall₂ (fun item => ReadsFrom read (Utf8.encode (item.prettyAt depth))) items
      (sortedItems items) := by
  induction items with
  | nil => exact .nil
  | cons item items ih =>
    exact .cons (h item List.mem_cons_self) (ih fun x hx => h x (List.mem_cons_of_mem item hx))

/-- So are the members of an object. -/
theorem forall₂_prettyMembers {read : Cursor → Except Fault (Json × Cursor)} {depth : Nat}
    {members : List (String × Json)}
    (h : ∀ m ∈ members, ReadsFrom read (0x20 :: Utf8.encode (m.2.prettyAt depth)) m.2.sorted) :
    List.Forall₂ (fun m x => m.1 = x.1 ∧
      ReadsFrom read (0x20 :: Utf8.encode (m.2.prettyAt depth)) x.2) members
        (sortedMembers members) := by
  induction members with
  | nil => exact .nil
  | cons m members ih =>
    obtain ⟨name, value⟩ := m
    exact .cons ⟨rfl, h (name, value) List.mem_cons_self⟩
      (ih fun x hx => h x (List.mem_cons_of_mem (name, value) hx))

/-- At any depth of the text, a value that nests at most `levels` deep is read back by the reader
for that depth. -/
theorem readsFrom_prettyAt {levels : Nat} {j : Json} (hj : Fits levels j) (depth : Nat) :
    ReadsFrom (readValue levels) (Utf8.encode (j.prettyAt depth)) j.sorted := by
  induction levels generalizing j depth with
  | zero =>
    cases j with
    | array items => exact absurd hj (by simp [Fits])
    | object members => exact absurd hj (by simp [Fits])
    | null | bool | string | number => exact (readsAs_readValue hj).readsFrom
  | succ levels ih =>
    cases j with
    | null | bool | string | number => exact (readsAs_readValue hj).readsFrom
    | array items =>
      cases items with
      | nil => exact (readsAs_readValue hj).readsFrom
      | cons item items =>
        intro rest n _
        have hitems : ∀ x ∈ item :: items, Fits levels x := hj
        obtain ⟨k, hread⟩ := exists_readItems_pretty
          (forall₂_prettyItems fun x hx => ih (hitems x hx) (depth + 1)) rest n
        refine ⟨k, ?_⟩
        show (readItems (readValue levels)
          ((Utf8.encode (prettyAt depth (.array (item :: items))) ++ rest).length + 1) true
          ⟨Utf8.encode (prettyItems (depth + 1) true (item :: items)) ++ rest, n + 1⟩).map _ = _
        rw [hread]
        rfl
    | object members =>
      cases members with
      | nil => exact (readsAs_readValue hj).readsFrom
      | cons m members =>
        intro rest n _
        have hmembers : ∀ x ∈ m :: members, Fits levels x.2 := hj
        obtain ⟨k, hread⟩ := exists_readMembers_pretty
          (forall₂_prettyMembers fun x hx => (ih (hmembers x hx) (depth + 1)).space) rest n
        refine ⟨k, ?_⟩
        show (readMembers (readValue levels)
          ((Utf8.encode (prettyAt depth (.object (m :: members))) ++ rest).length + 1) true
          ⟨Utf8.encode (prettyMembers (depth + 1) true (m :: members)) ++ rest, n + 1⟩).map _ = _
        rw [hread]
        rfl

/-- A value that nests no deeper than may be read is read back from its pretty form. -/
theorem ofBytes?_pretty {j : Json} (hj : Fits maxLevels j) :
    ofBytes? (Utf8.encode j.pretty) = .ok j.sorted :=
  (readsFrom_prettyAt hj 0).readWhole

end RegistryConsole.Json
