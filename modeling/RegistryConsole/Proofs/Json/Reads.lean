import RegistryConsole.Proofs.Json.Integers
import RegistryConsole.Proofs.Json.Records

/-! # What is read

Every value that is read has the members of its objects in order and nests no deeper than its reader
goes, whatever its numbers are. Every member of a record that is read, from an object or from a
list, was read by its own codec or stands for one that is absent. -/

namespace RegistryConsole.Json

variable {α : Type}

theorem wrongKind_ne_ok {expected : String} {token : Token} {c : Cursor} {x : α} :
    (wrongKind expected token c : Except Fault α) ≠ .ok x := by
  cases token <;> exact nofun

/-- Whether a reader gives nothing but what has the property `p`. -/
def Gives (read : Cursor → Except Fault (α × Cursor)) (p : α → Prop) : Prop :=
  ∀ (c after : Cursor) (x : α), read c = .ok (x, after) → p x

/-- What is read of a whole text is what the reader gives. -/
theorem Gives.of_readWhole {read : Cursor → Except Fault (α × Cursor)} {p : α → Prop}
    (hread : Gives read p) {text : Bytes} {x : α} (h : readWhole read text = .ok x) : p x := by
  unfold readWhole at h
  split at h
  · exact absurd h (by simp)
  · next y c hy =>
    dsimp only at h
    split at h
    · obtain rfl := Except.ok.inj h
      exact hread _ _ _ hy
    · exact absurd h faultNext_ne_ok

/-- A list is read item by item. -/
theorem Gives.readItems {read : Cursor → Except Fault (α × Cursor)} {p : α → Prop}
    (hread : Gives read p) (fuel : Nat) (first : Bool) :
    Gives (readItems read fuel first) fun items => ∀ x ∈ items, p x := by
  intro c after items h
  refine ((readItems_ok_iff.1 h).keeps (fun _ => True) (fun _ _ _ _ _ => trivial) ?_ trivial).1
  intro first c start peeked x after _ hitem _
  exact ⟨hread _ _ _ hitem, trivial⟩

/-- An object is read member by member. -/
theorem Gives.readMembers {read : Cursor → Except Fault (α × Cursor)} {p : α → Prop}
    (hread : Gives read p) (fuel : Nat) (first : Bool) :
    Gives (readMembers read fuel first) fun members => ∀ m ∈ members, p m.2 := by
  intro c after members h
  refine ((readMembers_ok_iff.1 h).keeps (fun _ => True) (fun _ _ _ _ _ => trivial) ?_ trivial).1
  rintro first c start peeked m after - ⟨colon, before, -, -, hvalue⟩ -
  exact ⟨hread _ _ _ hvalue, trivial⟩

/-! ## Values -/

/-- Whether a value nests at most `levels` deep. -/
def Nests : (levels : Nat) → Json → Prop
  | 0, .array _ => False
  | 0, .object _ => False
  | levels + 1, .array items => ∀ item ∈ items, Nests levels item
  | levels + 1, .object members => ∀ m ∈ members, Nests levels m.2
  | _, _ => True

/-- Whether all numbers of a value are integers. -/
inductive IsIntegral : Json → Prop where
  | null : IsIntegral .null
  | bool (b : Bool) : IsIntegral (.bool b)
  | integer (n : Int) (fits : -0x8000000000000000 ≤ n ∧ n < 0x10000000000000000) :
    IsIntegral (.number (.integer n fits))
  | string (s : String) : IsIntegral (.string s)
  | array {items : List Json} (h : ∀ item ∈ items, IsIntegral item) : IsIntegral (.array items)
  | object {members : List (String × Json)} (h : ∀ m ∈ members, IsIntegral m.2) :
    IsIntegral (.object members)

/-- Values without fractions fit where they do not nest too deep. -/
theorem fits_of_nests {levels : Nat} {j : Json} (hnests : Nests levels j) (hj : IsIntegral j) :
    Fits levels j := by
  induction levels generalizing j with
  | zero =>
    cases hj with
    | array | object => exact absurd hnests (by simp [Nests])
    | null | bool | integer | string => simp [Fits]
  | succ levels ih =>
    cases hj with
    | null | bool | integer | string => simp [Fits]
    | array h =>
      have hitems : ∀ item ∈ _, Nests levels item := hnests
      exact fun item hitem => ih (hitems item hitem) (h item hitem)
    | object h =>
      have hmembers : ∀ m ∈ _, Nests levels (Prod.snd m) := hnests
      exact fun m hm => ih (hmembers m hm) (h m hm)

/-- A value that nests at most `levels` deep nests no deeper than a greater bound. -/
theorem Nests.mono {levels more : Nat} {j : Json} (h : Nests levels j) (hle : levels ≤ more) :
    Nests more j := by
  induction levels generalizing j more with
  | zero =>
    cases j with
    | array items => exact absurd h (by simp [Nests])
    | object members => exact absurd h (by simp [Nests])
    | null | bool | number | string => cases more <;> trivial
  | succ levels ih =>
    obtain ⟨more, rfl⟩ : ∃ k, more = k + 1 := ⟨more - 1, by omega⟩
    have hle : levels ≤ more := Nat.le_of_succ_le_succ hle
    cases j with
    | null | bool | number | string => trivial
    | array items =>
      have hitems : ∀ item ∈ items, Nests levels item := h
      exact fun item hitem => ih (hitems item hitem) hle
    | object members =>
      have hmembers : ∀ m ∈ members, Nests levels m.2 := h
      exact fun m hm => ih (hmembers m hm) hle

/-- Whether a value is as values are read: not too deep, and with its members in order. -/
structure IsOrdered (levels : Nat) (j : Json) : Prop where
  nests : Nests levels j
  sorted : j.sorted = j

/-- What is read is ordered if the values inside it are. -/
theorem gives_readWith {levels : Nat} {inner : Option (Cursor → Except Fault (Json × Cursor))}
    (hinner : ∀ read ∈ inner, ∃ below, levels = below + 1 ∧ Gives read (IsOrdered below)) :
    Gives (readWith inner) (IsOrdered levels) := by
  intro c after j h
  unfold readWith at h
  split at h
  · exact absurd h (by simp)
  iterate 4
    · obtain ⟨rfl, -⟩ := Prod.mk.inj (Except.ok.inj h)
      exact ⟨by cases levels <;> trivial, rfl⟩
  · split at h
    · exact absurd h faultNext_ne_ok
    · next read =>
      obtain ⟨below, rfl, hread⟩ := hinner read rfl
      obtain ⟨⟨items, last⟩, hitems, hj⟩ := exists_of_map_eq_ok h
      obtain ⟨rfl, -⟩ := Prod.mk.inj hj
      have hall := hread.readItems _ _ _ _ _ hitems
      refine ⟨fun item hitem => (hall item hitem).nests, ?_⟩
      rw [sorted, sortedItems_of_forall fun item hitem => (hall item hitem).sorted]
  · split at h
    · exact absurd h faultNext_ne_ok
    · next read =>
      obtain ⟨below, rfl, hread⟩ := hinner read rfl
      obtain ⟨⟨members, last⟩, hmembers, hj⟩ := exists_of_map_eq_ok h
      obtain ⟨rfl, -⟩ := Prod.mk.inj hj
      have hall := forall_sortMembers (hread.readMembers _ _ _ _ _ hmembers)
      refine ⟨fun m hm => (hall m hm).nests, ?_⟩
      rw [sorted, sortedMembers_of_forall fun m hm => (hall m hm).sorted,
        sortMembers_of_inOrder (inOrder_sortMembers members)]

/-- Every value that is read is ordered. -/
theorem gives_readValue (levels : Nat) : Gives (readValue levels) (IsOrdered levels) := by
  induction levels with
  | zero => exact gives_readWith fun read hread => absurd hread (by simp)
  | succ levels ih =>
    refine gives_readWith fun read hread => ⟨levels, rfl, ?_⟩
    obtain rfl := Option.some.inj hread
    exact ih

/-- The value of a whole text is ordered. -/
theorem isOrdered_of_ofBytes? {text : Bytes} {j : Json} (h : ofBytes? text = .ok j) :
    IsOrdered maxLevels j :=
  (gives_readValue maxLevels).of_readWhole h

/-- An object whose members stay as they are when they are sorted has them in order. -/
theorem inOrder_of_sorted {members : List (String × Json)}
    (h : (object members).sorted = .object members) : InOrder members := by
  have hmembers : sortMembers (sortedMembers members) = members := by
    simpa only [sorted, object.injEq] using h
  exact hmembers ▸ inOrder_sortMembers _

/-- In an object with its members in order a member is found by its name. -/
theorem member?_of_inOrder {members : List (String × Json)} (h : InOrder members) {name : String}
    {value : Json} : (object members).member? name = some value ↔ (name, value) ∈ members := by
  constructor
  · intro hfound
    obtain ⟨m, hm, rfl⟩ := Option.map_eq_some_iff.1 hfound
    obtain rfl : m.1 = name := by simpa using List.find?_some hm
    exact List.mem_of_find?_eq_some hm
  · intro hmem
    have hfind : members.find? (fun m => m.1 == name) = some (name, value) := by
      induction members with
      | nil => exact absurd hmem List.not_mem_nil
      | cons first rest ih =>
        obtain ⟨hfirst, hrest⟩ := List.pairwise_cons.1 h
        rcases List.mem_cons.1 hmem with rfl | hmem
        · exact List.find?_cons_of_pos (by simp)
        · have hlt : first.1 < name := hfirst _ hmem
          rw [List.find?_cons_of_neg, ih hrest hmem]
          rw [beq_iff_eq]
          rintro rfl
          exact String.lt_irrefl _ hlt
    rw [member?, hfind]
    rfl

/-! ## Records -/

/-- Whether the value of a member was read by its codec, or stands for it where it is absent. -/
def Member.Comes (m : Member) (levels : Nat) (x : m.Carrier) : Prop :=
  (∃ c after, m.codec.read levels c = .ok (x, after)) ∨ m.absent? = some x

/-- Whether the values of all members came so. -/
def Values.Come (levels : Nat) : (ms : List Member) → Values ms → Prop
  | [], _ => True
  | m :: ms, (x, xs) => m.Comes levels x ∧ Values.Come levels ms xs

/-- Whether the slots that are filled were filled by the codecs of their members. -/
def Slots.AreRead (levels : Nat) : (ms : List Member) → Slots ms → Prop
  | [], _ => True
  | m :: ms, (slot, slots) =>
    (∀ x ∈ slot, ∃ c after, m.codec.read levels c = .ok (x, after)) ∧
      Slots.AreRead levels ms slots

namespace Slots

variable {levels : Nat}

theorem areRead_empty (ms : List Member) : AreRead levels ms (empty ms) := by
  induction ms with
  | nil => trivial
  | cons m ms ih => exact ⟨fun x hx => absurd hx (by simp), ih⟩

/-- Reading a member fills its slot by its codec. -/
theorem AreRead.read {ms : List Member} {name : String} {s t : Slots ms} {c after : Cursor}
    (hs : AreRead levels ms s) (h : Slots.read levels name ms s c = .ok (some (t, after))) :
    AreRead levels ms t := by
  induction ms with
  | nil => exact absurd (Except.ok.inj h) (by simp)
  | cons m ms ih =>
    obtain ⟨slot, slots⟩ := s
    obtain ⟨hslot, hslots⟩ := hs
    rw [Slots.read] at h
    split at h
    · split at h
      · exact absurd h (by simp [Cursor.fault])
      · split at h
        · exact absurd h (by simp)
        · next colon hcolon =>
          obtain ⟨⟨x, stop⟩, hread, ht⟩ := exists_of_map_eq_ok h
          obtain ⟨rfl, -⟩ := Prod.mk.inj (Option.some.inj ht)
          refine ⟨fun y hy => ?_, hslots⟩
          obtain rfl := Option.some.inj hy
          exact ⟨colon, stop, hread⟩
    · obtain ⟨found, hfound, ht⟩ := exists_of_map_eq_ok h
      obtain ⟨⟨rest, stop⟩, rfl, hrest⟩ := Option.map_eq_some_iff.1 ht
      obtain ⟨rfl, rfl⟩ := Prod.mk.inj hrest
      exact ⟨hslot, ih hslots hfound⟩

/-- Reading an object fills the slots by the codecs of their members. -/
theorem AreRead.readSlots {ms : List Member} {fuel : Nat} {first : Bool} {s t : Slots ms}
    {c after : Cursor} (hs : AreRead levels ms s)
    (h : Json.readSlots levels ms fuel first s c = .ok (t, after)) : AreRead levels ms t := by
  induction fuel generalizing first s c with
  | zero => exact absurd h faultNext_ne_ok
  | succ fuel ih =>
    rw [Json.readSlots] at h
    split at h
    · exact absurd h (by simp)
    · obtain ⟨rfl, -⟩ := Prod.mk.inj (Except.ok.inj h)
      exact hs
    · split at h
      · exact absurd h (by simp)
      · split at h
        · exact absurd h (by simp)
        · next slots stop hslot => exact ih (hs.read hslot) h
        · -- a member that the record does not know is passed over
          split at h
          · exact absurd h (by simp)
          · split at h
            · exact absurd h (by simp)
            · exact ih hs h

/-- The values are those of the slots, or stand for absent ones. -/
theorem AreRead.values? {ms : List Member} {s : Slots ms} {xs : Values ms}
    (hs : AreRead levels ms s) (h : Slots.values? ms s = .ok xs) : Values.Come levels ms xs := by
  induction ms with
  | nil => trivial
  | cons m ms ih =>
    obtain ⟨slot, slots⟩ := s
    obtain ⟨hslot, hslots⟩ := hs
    rw [Slots.values?] at h
    split at h
    · exact absurd h (by simp)
    · next x hx =>
      obtain ⟨rest, hrest, rfl⟩ := exists_of_map_eq_ok h
      refine ⟨?_, ih hslots hrest⟩
      cases slot with
      | some y => exact Or.inl (hslot x hx)
      | none => exact Or.inr hx

end Slots

/-- A list is read value by value, each by the codec of its member. -/
theorem come_readInOrder {levels : Nat} {expected : String} {ms : List Member} {count : Nat}
    {c after : Cursor} {xs : Values ms}
    (h : readInOrder levels expected ms count c = .ok (xs, after)) : Values.Come levels ms xs := by
  induction ms generalizing count c after with
  | nil => trivial
  | cons m ms ih =>
    rw [readInOrder] at h
    split at h
    · exact absurd h (by simp)
    · split at h
      · exact absurd h nofun
      · next x habsent =>
        obtain ⟨⟨rest, stop⟩, hrest, hxs⟩ := exists_of_map_eq_ok h
        obtain ⟨rfl, -⟩ := Prod.mk.inj hxs
        exact ⟨Or.inr habsent, ih hrest⟩
    · next start peeked hnext =>
      split at h
      · exact absurd h (by simp)
      · next x stop hread =>
        obtain ⟨⟨rest, last⟩, hrest, hxs⟩ := exists_of_map_eq_ok h
        obtain ⟨rfl, -⟩ := Prod.mk.inj hxs
        exact ⟨Or.inl ⟨start, stop, hread⟩, ih hrest⟩

/-- A record that is read is put together from values that came from its members. -/
theorem Layout.gives_read (layout : Layout α) (levels : Nat) :
    Gives (layout.codec.read levels) fun x => ∃ below, levels = below + 1 ∧
      ∃ values, x = layout.build values ∧ Values.Come below layout.members values := by
  intro c after x h
  have hcodec : layout.codec.read levels c = _ := rfl
  rw [hcodec, codec] at h
  dsimp only at h
  split at h
  · exact absurd h (by simp)
  · exact absurd h faultNext_ne_ok
  · exact absurd h faultNext_ne_ok
  · next below hlist =>
    unfold readList at h
    split at h
    · exact absurd h (by simp)
    · next values stop hvalues =>
      obtain ⟨last, -, hx⟩ := exists_of_map_eq_ok h
      obtain ⟨rfl, -⟩ := Prod.mk.inj hx
      exact ⟨below, rfl, values, rfl, come_readInOrder hvalues⟩
  · next below hobject =>
    unfold readObject at h
    split at h
    · exact absurd h (by simp)
    · next slots stop hslots =>
      split at h
      · exact absurd h nofun
      · next values hvalues =>
        obtain ⟨rfl, -⟩ := Prod.mk.inj (Except.ok.inj h)
        exact ⟨below, rfl, values, rfl,
          ((Slots.areRead_empty _).readSlots hslots).values? hvalues⟩
  · exact absurd h wrongKind_ne_ok

end RegistryConsole.Json
