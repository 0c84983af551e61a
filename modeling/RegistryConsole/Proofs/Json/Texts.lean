import RegistryConsole.Proofs.Json.Loops
import RegistryConsole.Proofs.Json.Scalars

/-! # Lists and objects of any texts

A list is read item by item and an object member by member, whatever the octets of each are: it is
enough that the reader for them takes these octets, and nothing else, off the start of what is
left. -/

namespace RegistryConsole.Json

variable {α : Type}

/-- Whether a reader takes exactly some octets off the start of any octets that do not go on with a
number, counts them, and reads `x` from them. -/
def ReadsText (read : Cursor → Except Fault (α × Cursor)) (text : Bytes) (x : α) : Prop :=
  ∀ (rest : Bytes) (n : Nat), EndsNumber rest →
    read ⟨text ++ rest, n⟩ = .ok (x, ⟨rest, n + text.length⟩)

/-- Whether a reader takes some octets, and nothing else, off the start of any octets that do not go
on with a number, and reads `x` from them. -/
def ReadsFrom (read : Cursor → Except Fault (α × Cursor)) (text : Bytes) (x : α) : Prop :=
  ∀ (rest : Bytes) (n : Nat), EndsNumber rest → ∃ k, read ⟨text ++ rest, n⟩ = .ok (x, ⟨rest, k⟩)

section

variable {read : Cursor → Except Fault (α × Cursor)} {text : Bytes} {x : α}

theorem ReadsText.readsFrom (h : ReadsText read text x) : ReadsFrom read text x :=
  fun rest n hrest => ⟨_, h rest n hrest⟩

/-- What is read off the start of octets is read of them as a whole text. -/
theorem ReadsFrom.readWhole (h : ReadsFrom read text x) : readWhole read text = .ok x := by
  obtain ⟨k, hread⟩ := h [] 0 (fun b hb => absurd hb (by simp))
  rw [List.append_nil] at hread
  rw [Json.readWhole, Cursor.ofBytes, hread]
  rfl

theorem ReadsText.readWhole (h : ReadsText read text x) : readWhole read text = .ok x :=
  h.readsFrom.readWhole

end

theorem endsNumber_cons {b : UInt8} (hb : b = 0x2C ∨ b = 0x5D ∨ b = 0x7D) (rest : Bytes) :
    EndsNumber (b :: rest) := by
  intro x hx
  obtain rfl := Option.some.inj hx
  rcases hb with rfl | rfl | rfl <;> decide

/-! ## White space -/

/-- White space is passed over. -/
theorem skipSpace_spaces {spaces : Bytes} (hspaces : ∀ b ∈ spaces, Cursor.isSpace b = true)
    (rest : Bytes) (n : Nat) :
    Cursor.skipSpace ⟨spaces ++ rest, n⟩ = Cursor.skipSpace ⟨rest, n + spaces.length⟩ := by
  induction spaces generalizing n with
  | nil => rfl
  | cons b spaces ih =>
    obtain ⟨hb, hspaces⟩ := List.forall_mem_cons.1 hspaces
    have hstep : Cursor.skipSpace ⟨b :: (spaces ++ rest), n⟩ =
        Cursor.skipSpace ⟨spaces ++ rest, n + 1⟩ := if_pos hb
    rw [List.cons_append, hstep, ih hspaces, List.length_cons, Nat.add_assoc, Nat.add_comm 1]

/-- After white space there is none. -/
theorem skipSpace_skipFrom (n : Nat) (text : Bytes) :
    (Cursor.skipFrom n text).skipSpace = Cursor.skipFrom n text := by
  induction text generalizing n with
  | nil => rfl
  | cons b rest ih =>
    rw [Cursor.skipFrom]
    split
    · exact ih (n + 1)
    · next hb => exact skipSpace_of_not_space (by simpa using hb) rest n

/-! ## Lists -/

/-- The octets of a list after its opening bracket, with those of each item; `first` when none is
written yet. -/
def itemsText (first : Bool) : List Bytes → Bytes
  | [] => [0x5D]
  | text :: texts => (if first then [] else [0x2C]) ++ (text ++ itemsText false texts)

/-- Whether octets start as a value does, which is not the way in which a list ends. -/
def StartsValue (text : Bytes) : Prop :=
  ∃ b bs, text = b :: bs ∧ Cursor.isSpace b = false ∧ b ≠ 0x5D

/-- What follows an item of a list ends a number. -/
theorem endsNumber_itemsText (texts : List Bytes) (rest : Bytes) :
    EndsNumber (itemsText false texts ++ rest) := by
  cases texts with
  | nil => exact endsNumber_cons (Or.inr (Or.inl rfl)) rest
  | cons text texts => exact endsNumber_cons (Or.inl rfl) _

/-- The first item of a list stands right where the list starts. -/
theorem nextItem?_first {b : UInt8} (hspace : Cursor.isSpace b = false) (hclose : b ≠ 0x5D)
    (rest : Bytes) (n : Nat) :
    nextItem? true ⟨b :: rest, n⟩ = .ok (some ⟨b :: rest, n⟩, ⟨b :: rest, n⟩) := by
  rw [nextItem?, skipSpace_of_not_space hspace]
  dsimp only [Cursor.peek?, List.head?_cons]
  rw [if_neg hclose, if_pos rfl]

/-- Every other item stands after a comma. -/
theorem nextItem?_comma {b : UInt8} (hspace : Cursor.isSpace b = false) (hclose : b ≠ 0x5D)
    (rest : Bytes) (n : Nat) :
    nextItem? false ⟨0x2C :: b :: rest, n⟩ =
      .ok (some ⟨b :: rest, n + 1⟩, ⟨b :: rest, n + 1⟩) := by
  rw [nextItem?, skipSpace_of_not_space (by decide)]
  dsimp only [Cursor.peek?, List.head?_cons, Cursor.next]
  rw [if_neg (by decide), if_neg (by simp), if_pos rfl, skipSpace_of_not_space hspace]
  dsimp only [List.head?_cons]
  rw [if_neg hclose]

/-- The next item of a list stands right before its own octets, and what follows it are those of the
items after it. -/
theorem exists_nextItem?_eq (first : Bool) {text : Bytes} (htext : StartsValue text)
    (texts : List Bytes) (rest : Bytes) (n : Nat) :
    ∃ p peeked, nextItem? first ⟨itemsText first (text :: texts) ++ rest, n⟩ =
        .ok (some ⟨text ++ (itemsText false texts ++ rest), p⟩, peeked) ∧
      p + text.length + (itemsText false texts).length =
        n + (itemsText first (text :: texts)).length := by
  obtain ⟨b, bs, rfl, hspace, hclose⟩ := htext
  simp only [itemsText, List.append_assoc, List.cons_append]
  cases first with
  | true =>
    refine ⟨n, _, nextItem?_first hspace hclose _ n, ?_⟩
    simp
    omega
  | false =>
    refine ⟨n + 1, _, nextItem?_comma hspace hclose _ n, ?_⟩
    simp
    omega

/-- A list of values is read, if its items are. -/
theorem readItems_itemsText {read : Cursor → Except Fault (α × Cursor)} {texts : List Bytes}
    {xs : List α} (hread : List.Forall₂ (ReadsText read) texts xs)
    (hstart : ∀ text ∈ texts, StartsValue text) (first : Bool) {fuel : Nat}
    (hfuel : texts.length < fuel) (rest : Bytes) (n : Nat) :
    readItems read fuel first ⟨itemsText first texts ++ rest, n⟩ =
      .ok (xs, ⟨rest, n + (itemsText first texts).length⟩) := by
  induction hread generalizing first fuel n with
  | nil =>
    cases fuel with
    | zero => exact absurd hfuel (by simp)
    | succ fuel => cases first <;> rfl
  | @cons text x texts xs hitem _ ih =>
    obtain ⟨htext, hstart⟩ := List.forall_mem_cons.1 hstart
    cases fuel with
    | zero => exact absurd hfuel (by simp)
    | succ fuel =>
      -- what follows an item ends the number that it may be, so the item is read as such
      obtain ⟨p, peeked, hnext, hp⟩ := exists_nextItem?_eq first htext texts rest n
      have hitem := hitem (itemsText false texts ++ rest) p (endsNumber_itemsText texts rest)
      rw [readItems_cons hnext hitem (ih hstart false (Nat.lt_of_succ_lt_succ hfuel) _), hp]

/-- A list has no more items than octets. -/
theorem length_le_itemsText {texts : List Bytes} (hstart : ∀ text ∈ texts, StartsValue text)
    (first : Bool) : texts.length ≤ (itemsText first texts).length := by
  induction texts generalizing first with
  | nil => exact Nat.zero_le _
  | cons text texts ih =>
    obtain ⟨⟨b, bs, rfl, -⟩, hrest⟩ := List.forall_mem_cons.1 hstart
    have ih := ih hrest false
    simp only [itemsText, List.length_append, List.length_cons]
    omega

/-- The octets of a list. -/
def arrayText (texts : List Bytes) : Bytes :=
  0x5B :: itemsText true texts

/-- The octets of a list, after the one that opens it, hold all of its items: a reader that counts
them has fuel for each. -/
theorem readItems_arrayText {read : Cursor → Except Fault (α × Cursor)} {texts : List Bytes}
    {xs : List α} (hread : List.Forall₂ (ReadsText read) texts xs)
    (hstart : ∀ text ∈ texts, StartsValue text) (rest : Bytes) (n : Nat) :
    readItems read ((arrayText texts ++ rest).length + 1) true
        ⟨itemsText true texts ++ rest, n + 1⟩ =
      .ok (xs, ⟨rest, n + (arrayText texts).length⟩) := by
  have hlength := length_le_itemsText hstart true
  rw [readItems_itemsText hread hstart true
    (by rw [arrayText, List.length_append, List.length_cons]; omega) rest (n + 1)]
  rw [arrayText, List.length_cons, Nat.add_assoc, Nat.add_comm 1]

/-! ## Objects -/

/-- The octets of an object after its opening bracket, with those of the value of each member;
`first` when none is written yet. -/
def membersText (first : Bool) : List (String × Bytes) → Bytes
  | [] => [0x7D]
  | (name, text) :: members =>
    (if first then [] else [0x2C]) ++ 0x22 ::
      (Utf8.encode (name.toList.flatMap escapedChar) ++ 0x22 :: 0x3A ::
        (text ++ membersText false members))

/-- What follows a member of an object ends a number. -/
theorem endsNumber_membersText (members : List (String × Bytes)) (rest : Bytes) :
    EndsNumber (membersText false members ++ rest) := by
  cases members with
  | nil => exact endsNumber_cons (Or.inr (Or.inr rfl)) rest
  | cons m members => exact endsNumber_cons (Or.inl rfl) _

/-- The first name of an object stands right where the object starts. -/
theorem nextName?_first (rest : Bytes) (n : Nat) :
    nextName? true ⟨0x22 :: rest, n⟩ = .ok (some ⟨rest, n + 1⟩, ⟨0x22 :: rest, n⟩) := rfl

/-- Every other name stands after a comma. -/
theorem nextName?_comma (rest : Bytes) (n : Nat) :
    nextName? false ⟨0x2C :: 0x22 :: rest, n⟩ =
      .ok (some ⟨rest, n + 2⟩, ⟨0x22 :: rest, n + 1⟩) := rfl

/-- The next name of an object stands right after its quote; its value follows after a colon, and
then the members after it. -/
theorem exists_nextName?_eq (first : Bool) (name : String) (text : Bytes)
    (members : List (String × Bytes)) (rest : Bytes) (n : Nat) :
    ∃ p peeked after,
      nextName? first ⟨membersText first ((name, text) :: members) ++ rest, n⟩ =
          .ok (some after, peeked) ∧
      readString after = .ok (name, ⟨0x3A :: (text ++ (membersText false members ++ rest)), p⟩) ∧
      p + 1 + text.length + (membersText false members).length =
        n + (membersText first ((name, text) :: members)).length := by
  simp only [membersText, List.append_assoc, List.cons_append]
  cases first with
  | true =>
    refine ⟨_, _, _, nextName?_first _ n, readString_stringText name _ _, ?_⟩
    simp
    omega
  | false =>
    refine ⟨_, _, _, nextName?_comma _ n, readString_stringText name _ _, ?_⟩
    simp
    omega

/-- Whether a member has the name of another and its octets are read as the value of that one. -/
def MemberReadsText (read : Cursor → Except Fault (α × Cursor)) (m : String × Bytes)
    (x : String × α) : Prop :=
  m.1 = x.1 ∧ ReadsText read m.2 x.2

/-- A colon before a value is taken. -/
theorem takeColon_colon (rest : Bytes) (n : Nat) :
    takeColon ⟨0x3A :: rest, n⟩ = .ok ⟨rest, n + 1⟩ := rfl

/-- The members of an object are read, if their values are. -/
theorem readMembers_membersText {read : Cursor → Except Fault (α × Cursor)}
    {members : List (String × Bytes)} {xs : List (String × α)}
    (hread : List.Forall₂ (MemberReadsText read) members xs) (first : Bool) {fuel : Nat}
    (hfuel : members.length < fuel) (rest : Bytes) (n : Nat) :
    readMembers read fuel first ⟨membersText first members ++ rest, n⟩ =
      .ok (xs, ⟨rest, n + (membersText first members).length⟩) := by
  induction hread generalizing first fuel n with
  | nil =>
    cases fuel with
    | zero => exact absurd hfuel (by simp)
    | succ fuel => cases first <;> rfl
  | @cons m x members xs hmember _ ih =>
    obtain ⟨name, text⟩ := m
    obtain ⟨name', x⟩ := x
    obtain ⟨rfl, hvalue⟩ := hmember
    cases fuel with
    | zero => exact absurd hfuel (by simp)
    | succ fuel =>
      obtain ⟨p, peeked, after, hnext, hname, hp⟩ :=
        exists_nextName?_eq first name text members rest n
      have hvalue := hvalue (membersText false members ++ rest) (p + 1)
        (endsNumber_membersText members rest)
      rw [readMembers_cons hnext hname (takeColon_colon _ p) hvalue
        (ih false (Nat.lt_of_succ_lt_succ hfuel) _), hp]

/-- An object has no more members than octets. -/
theorem length_le_membersText (members : List (String × Bytes)) (first : Bool) :
    members.length ≤ (membersText first members).length := by
  induction members generalizing first with
  | nil => exact Nat.zero_le _
  | cons m members ih =>
    have ih := ih false
    simp only [membersText, List.length_append, List.length_cons]
    omega

/-- The octets of an object. -/
def objectText (members : List (String × Bytes)) : Bytes :=
  0x7B :: membersText true members

/-- The octets of an object, after the one that opens it, hold all of its members. -/
theorem readMembers_objectText {read : Cursor → Except Fault (α × Cursor)}
    {members : List (String × Bytes)} {xs : List (String × α)}
    (hread : List.Forall₂ (MemberReadsText read) members xs) (rest : Bytes) (n : Nat) :
    readMembers read ((objectText members ++ rest).length + 1) true
        ⟨membersText true members ++ rest, n + 1⟩ =
      .ok (xs, ⟨rest, n + (objectText members).length⟩) := by
  have hlength := length_le_membersText members true
  rw [readMembers_membersText hread true
    (by rw [objectText, List.length_append, List.length_cons]; omega) rest (n + 1)]
  rw [objectText, List.length_cons, Nat.add_assoc, Nat.add_comm 1]

end RegistryConsole.Json
