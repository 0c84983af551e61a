import Mathlib.Data.List.Perm.Basic
import RegistryConsole.Proofs.Json.Reads
import RegistryConsole.Proofs.Json.Sorted

/-! # Other texts of a value

A value has other texts than the one that is written for it: the members of its objects may come in
any order, and an object that is a record may hold members that the record does not know, with any
values. Codecs read such a text as the value that it was made from. -/

namespace RegistryConsole.Json

variable {α : Type}

/-! ## Which objects are records -/

/-- Where in a value the records are: a record has a shape for each name that it knows. -/
inductive Shape where
  | plain
  | list (item : Shape)
  | record (known? : String → Option Shape)

namespace Shape

/-- The shape of the items of a list. -/
def item : Shape → Shape
  | .list item => item
  | _ => .plain

/-- The shape of the member `name` of an object. -/
def member (name : String) : Shape → Shape
  | .record known? => (known? name).getD .plain
  | _ => .plain

/-- Whether an object is a record that does not know a name. Other objects know every name. -/
def Ignores (name : String) : Shape → Prop
  | .record known? => known? name = none
  | _ => False

end Shape

/-- The shape of a record, whose members are plain but for those that have a shape of their own. -/
def Layout.shape (layout : Layout α) (inner : List (String × Shape)) : Shape :=
  .record fun name =>
    if name ∈ layout.members.map Member.name then some ((inner.lookup name).getD .plain) else none

/-- The names that a record does not know are those that are none of its members'. -/
theorem Layout.ignores_shape_iff {layout : Layout α} {inner : List (String × Shape)}
    {name : String} :
    (layout.shape inner).Ignores name ↔ name ∉ layout.members.map Member.name := by
  rw [shape, Shape.Ignores]
  split
  · next hmem => exact iff_of_false (by simp) (not_not.2 hmem)
  · next hother => exact iff_of_true rfl hother

/-! ## The texts -/

mutual

/-- Whether octets are a text of a value, up to the order of the members of each object and members
that a record does not know. -/
inductive Varies : Shape → Json → Bytes → Prop where
  | scalar {shape : Shape} {j : Json} (h : j.IsScalar) : Varies shape j j.bytes
  | array {shape : Shape} {items : List Json} {texts : List Bytes}
      (h : ItemsVary shape.item items texts) : Varies shape (.array items) (arrayText texts)
  | object {shape : Shape} {members : List (String × Json)}
      {known added all : List (String × Bytes)} (h : MembersVary shape members known)
      (hadded : ∀ e ∈ added, shape.Ignores e.1 ∧ IsText e.2) (hall : all.Perm (known ++ added)) :
      Varies shape (.object members) (objectText all)

/-- Whether octets are texts of the items of a list, one for each. -/
inductive ItemsVary : Shape → List Json → List Bytes → Prop where
  | nil {shape : Shape} : ItemsVary shape [] []
  | cons {shape : Shape} {item : Json} {text : Bytes} {items : List Json} {texts : List Bytes}
      (h : Varies shape item text) (hrest : ItemsVary shape items texts) :
      ItemsVary shape (item :: items) (text :: texts)

/-- Whether octets are texts of the members of an object, each under the name that it has. -/
inductive MembersVary : Shape → List (String × Json) → List (String × Bytes) → Prop where
  | nil {shape : Shape} : MembersVary shape [] []
  | cons {shape : Shape} {name : String} {value : Json} {text : Bytes}
      {members : List (String × Json)} {known : List (String × Bytes)}
      (h : Varies (shape.member name) value text) (hrest : MembersVary shape members known) :
      MembersVary shape ((name, value) :: members) ((name, text) :: known)

end

/-- The form of the members of an object of some shape. -/
def Shape.Form (shape : Shape) (name : String) (j : Json) (text : Bytes) : Prop :=
  Varies (shape.member name) j text

variable {shape : Shape} {j : Json} {text : Bytes}

theorem ItemsVary.forall₂ {items : List Json} {texts : List Bytes}
    (h : ItemsVary shape items texts) : List.Forall₂ (Varies shape) items texts := by
  induction items generalizing texts with
  | nil =>
    cases h
    exact .nil
  | cons item items ih =>
    cases h with
    | cons hfirst hrest => exact .cons hfirst (ih hrest)

theorem MembersVary.forall₂ {members : List (String × Json)} {known : List (String × Bytes)}
    (h : MembersVary shape members known) :
    List.Forall₂ (InForm shape.Form) members known := by
  induction members generalizing known with
  | nil =>
    cases h
    exact .nil
  | cons m members ih =>
    cases h with
    | cons hfirst hrest => exact .cons ⟨rfl, hfirst⟩ (ih hrest)

namespace Varies

/-- The members of any object may come in any order. -/
theorem permuted {members : List (String × Json)} {known all : List (String × Bytes)}
    (h : MembersVary shape members known) (hall : all.Perm known) :
    Varies shape (.object members) (objectText all) := by
  rw [← List.append_nil known] at hall
  exact .object h (List.forall_mem_nil _) hall

/-- The only text of a scalar is the one that is written for it. -/
theorem eq_bytes (h : Varies shape j text) (hscalar : j.IsScalar) : text = j.bytes := by
  cases h with
  | scalar => rfl
  | array | object => exact absurd hscalar id

theorem exists_texts {items : List Json} (h : Varies shape (.array items) text) :
    ∃ texts, text = arrayText texts ∧ List.Forall₂ (Varies shape.item) items texts := by
  cases h with
  | scalar h => exact absurd h id
  | array h => exact ⟨_, rfl, h.forall₂⟩

theorem exists_members {members : List (String × Json)} (h : Varies shape (.object members) text) :
    ∃ known added all, text = objectText all ∧ List.Forall₂ (InForm shape.Form) members known ∧
      (∀ e ∈ added, shape.Ignores e.1 ∧ IsText e.2) ∧ all.Perm (known ++ added) := by
  cases h with
  | scalar h => exact absurd h id
  | object h hadded hall => exact ⟨_, _, _, rfl, h.forall₂, hadded, hall⟩

/-- The text of an object that is no record has the members of the object in some order. -/
theorem exists_perm {members : List (String × Json)} (h : Varies .plain (.object members) text) :
    ∃ all others, text = objectText all ∧ others.Perm members ∧
      List.Forall₂ (InForm Shape.plain.Form) others all := by
  obtain ⟨known, added, all, rfl, hknown, hadded, hall⟩ := h.exists_members
  obtain rfl : added = [] := List.eq_nil_iff_forall_not_mem.2 fun e he => (hadded e he).1
  rw [List.append_nil] at hall
  obtain ⟨others, hothers, hperm⟩ := List.perm_comp_forall₂ hall hknown.flip
  exact ⟨all, others, rfl, hperm, hothers.flip⟩

/-- A text starts as the value does. -/
theorem exists_eq (h : Varies shape j text) :
    ∃ b bs, text = b :: bs ∧ Cursor.isSpace b = false ∧ b ≠ 0x5D ∧ (j ≠ .null → b ≠ 0x6E) := by
  cases h with
  | scalar => exact exists_encode_compact_eq j
  | array | object => exact ⟨_, _, rfl, by decide, by decide, fun _ => by decide⟩

theorem startsValue (h : Varies shape j text) : StartsValue text := by
  obtain ⟨b, bs, hb, hspace, hclose, -⟩ := h.exists_eq
  exact ⟨b, bs, hb, hspace, hclose⟩

theorem startsValue_of_forall₂ {items : List Json} {texts : List Bytes}
    (h : List.Forall₂ (Varies shape) items texts) : ∀ text ∈ texts, StartsValue text := by
  induction h with
  | nil => exact List.forall_mem_nil _
  | cons hfirst _ ih => exact List.forall_mem_cons.2 ⟨hfirst.startsValue, ih⟩

end Varies

mutual

/-- What is written for a value is one of its texts. -/
theorem Varies.refl (shape : Shape) : (j : Json) → Varies shape j j.bytes
  | .null => .scalar trivial
  | .bool _ => .scalar trivial
  | .number _ => .scalar trivial
  | .string _ => .scalar trivial
  | .array items => by
    rw [bytes, encode_array]
    exact .array (ItemsVary.refl shape.item items)
  | .object members => by
    rw [bytes, encode_object]
    exact .permuted (MembersVary.refl shape members) (List.Perm.refl _)

theorem ItemsVary.refl (shape : Shape) :
    (items : List Json) → ItemsVary shape items (items.map fun item => Utf8.encode item.compact)
  | [] => .nil
  | item :: items => .cons (Varies.refl shape item) (ItemsVary.refl shape items)

theorem MembersVary.refl (shape : Shape) : (members : List (String × Json)) →
    MembersVary shape members (members.map fun m => (m.1, Utf8.encode m.2.compact))
  | [] => .nil
  | (name, value) :: members =>
    .cons (Varies.refl (shape.member name) value) (MembersVary.refl shape members)

end

/-! ## Values that are no records -/

/-- Members that differ in their order only are the same once they are in order. -/
theorem sortMembers_of_perm {members others : List (String × α)} (h : others.Perm members)
    (horder : InOrder members) : sortMembers others = members := by
  have hnames : (others.map Prod.fst).Nodup :=
    (h.map Prod.fst).nodup_iff.2 (nodup_names_of_inOrder horder)
  refine ((sortMembers_perm hnames).trans h).eq_of_pairwise (fun a b _ _ hab hba => ?_)
    (inOrder_sortMembers others) horder
  exact absurd (String.lt_trans hab hba) (String.lt_irrefl _)

/-- Where a list is in order throughout, so is each of its items. -/
theorem sorted_of_mem_items {items : List Json} (h : (array items).sorted = .array items) :
    ∀ item ∈ items, item.sorted = item := by
  have hitems : items.map sorted = items.map id := by
    rw [List.map_id, ← sortedItems_eq_map]
    simpa only [sorted, array.injEq] using h
  exact fun item hitem => (List.map_inj_left.1 hitems) item hitem

theorem sorted_of_mem_members {members : List (String × Json)}
    (h : (object members).sorted = .object members) : ∀ m ∈ members, m.2.sorted = m.2 := by
  have horder := inOrder_of_sorted h
  have hsorted : InOrder (sortedMembers members) := by
    rw [sortedMembers_eq_map]
    exact List.pairwise_map.2 horder
  have hmembers : members.map (fun m => (m.1, m.2.sorted)) = members.map id := by
    rw [List.map_id, ← sortedMembers_eq_map]
    simpa only [sorted, sortMembers_of_inOrder hsorted, object.injEq] using h
  exact fun m hm => congrArg Prod.snd ((List.map_inj_left.1 hmembers) m hm)

/-- A value without fractions and with its members in order is read from each of its texts. -/
theorem readsText_of_varies {levels : Nat} (hfits : Fits levels j) (hsorted : j.sorted = j)
    (h : Varies .plain j text) : ReadsText (readValue levels) text j := by
  induction levels generalizing j text with
  | zero =>
    have hscalar : j.IsScalar := by
      cases j with
      | array items => exact absurd hfits (by simp [Fits])
      | object members => exact absurd hfits (by simp [Fits])
      | null | bool | number | string => trivial
    have hread : ReadsAs _ j j.sorted := readsAs_readValue hfits
    rw [h.eq_bytes hscalar]
    rwa [hsorted] at hread
  | succ levels ih =>
    cases j with
    | null | bool | number | string =>
      have hread := readsAs_readValue hfits
      rw [h.eq_bytes trivial]
      exact hread
    | array items =>
      have hitems : ∀ item ∈ items, Fits levels item := hfits
      obtain ⟨texts, rfl, hvary⟩ := h.exists_texts
      have hall : ∀ item ∈ items, Fits levels item ∧ item.sorted = item := fun item hitem =>
        ⟨hitems item hitem, sorted_of_mem_items hsorted item hitem⟩
      have hread : List.Forall₂ (ReadsText (readValue levels)) texts items :=
        ((List.forall₂_and_left _ _).2 ⟨hall, hvary⟩).flip.imp
          fun _ _ h => ih h.1.1 h.1.2 h.2
      exact readsText_arrayText hread (Varies.startsValue_of_forall₂ hvary)
    | object members =>
      have hmembers : ∀ m ∈ members, Fits levels m.2 := hfits
      obtain ⟨all, others, rfl, hperm, hvary⟩ := h.exists_perm
      have hall : ∀ m ∈ others, Fits levels m.2 ∧ m.2.sorted = m.2 := fun m hm =>
        ⟨hmembers m (hperm.subset hm), sorted_of_mem_members hsorted m (hperm.subset hm)⟩
      have hread : List.Forall₂ (MemberReadsText (readValue levels)) all others :=
        ((List.forall₂_and_left _ _).2 ⟨hall, hvary⟩).flip.imp
          fun _ _ h => ⟨h.2.1.symm, ih h.1.1 h.1.2 h.2.2⟩
      rw [← sortMembers_of_perm hperm (inOrder_of_sorted hsorted)]
      exact readsText_objectText hread

/-! ## Typed values -/

/-- Whether a codec reads a value from each text of what it writes for it. -/
def Codec.ReadsVariants (codec : Codec α) (levels : Nat) (shape : Shape) (x : α) : Prop :=
  ∀ text, Varies shape (codec.write x) text → ReadsText (codec.read levels) text x

namespace Codec

variable {codec : Codec α} {levels : Nat} {x : α}

/-- Within the greatest depth it reads the value so from a whole text. -/
theorem ReadsVariants.ofBytes? (h : codec.ReadsVariants maxLevels shape x)
    (htext : Varies shape (codec.write x) text) : codec.ofBytes? text = .ok x :=
  (h text htext).readWhole

/-- One of these texts is what is written. -/
theorem ReadsVariants.readsBack (h : codec.ReadsVariants levels shape x) :
    codec.ReadsBack levels x :=
  h _ (Varies.refl shape _)

/-- What is written as a scalar has no other texts. -/
theorem ReadsBack.readsVariants (h : codec.ReadsBack levels x) (shape : Shape)
    (hscalar : (codec.write x).IsScalar) : codec.ReadsVariants levels shape x := by
  intro text htext
  rw [htext.eq_bytes hscalar]
  exact h

/-- A list is read from its texts if its items are from theirs. -/
theorem list_readsVariants {xs : List α} (h : ∀ x ∈ xs, codec.ReadsVariants levels shape.item x) :
    (list codec).ReadsVariants (levels + 1) shape xs := by
  intro text htext
  obtain ⟨texts, rfl, hvary⟩ := Varies.exists_texts htext
  have hstart := Varies.startsValue_of_forall₂ hvary
  rw [List.forall₂_map_left_iff] at hvary
  have hread : List.Forall₂ (ReadsText (codec.read levels)) texts xs :=
    ((List.forall₂_and_left _ _).2 ⟨h, hvary⟩).flip.imp fun _ _ h => h.1 _ h.2
  exact list_readsText hread hstart

theorem string_readsVariants (levels : Nat) (shape : Shape) (s : String) :
    string.ReadsVariants levels shape s :=
  (string_readsBack levels s).readsVariants shape trivial

theorem strings_readsVariants (levels : Nat) (shape : Shape) (xs : List String) :
    (list string).ReadsVariants (levels + 1) shape xs :=
  list_readsVariants fun s _ => string_readsVariants levels shape.item s

/-- A table is read with its names in any order. -/
theorem table_readsVariants (levels : Nat) (t : Table) :
    table.ReadsVariants (levels + 1) .plain t := by
  intro text htext
  obtain ⟨all, others, rfl, hperm, hvary⟩ := Varies.exists_perm htext
  -- the members of the text are those of the entries in some order
  obtain ⟨entries, rfl, hentries⟩ :
      Relation.Comp (· = List.map _ ·) List.Perm others t.entries := by
    rw [List.eq_map_comp_perm]
    exact hperm
  rw [List.forall₂_map_left_iff] at hvary
  have hread : List.Forall₂ (MemberReadsText (string.read levels)) all entries :=
    hvary.flip.imp fun _ _ h =>
      ⟨h.1.symm, string_readsVariants levels .plain _ _ h.2⟩
  have htable : Table.ofList entries = t := by
    cases t with
    | mk _ inOrder => simp only [Table.ofList, sortMembers_of_perm hentries inOrder]
  rw [← htable]
  exact table_readsText hread

/-- Any value without fractions is read so, if its members are in order. -/
theorem any_readsVariants (hfits : Fits levels j) (hsorted : j.sorted = j) :
    any.ReadsVariants levels .plain j :=
  fun _ htext => readsText_of_varies hfits hsorted htext

theorem optional_readsVariants (h : codec.ReadsVariants levels shape x)
    (hnull : codec.write x ≠ .null) : codec.optional.ReadsVariants levels shape (some x) := by
  intro text htext
  obtain ⟨b, bs, hb, hspace, -, hletter⟩ := Varies.exists_eq htext
  exact optional_readsText (h text htext) ⟨b, bs, hb, hspace, hletter hnull⟩

/-- A text that may be null is read either way. -/
theorem optional_string_readsVariants (levels : Nat) (shape : Shape) (s : Option String) :
    string.optional.ReadsVariants levels shape s := by
  cases s with
  | none => exact (optional_none_readsBack string levels).readsVariants shape trivial
  | some s => exact optional_readsVariants (string_readsVariants levels shape s) Json.noConfusion

end Codec

/-! ## Records -/

namespace Member.KeepsIn

variable {codec : Codec α} {levels : Nat}

theorem required {x : α} (name : String) (h : codec.ReadsVariants levels shape x) :
    (required name codec).KeepsIn (Varies shape) levels x :=
  ⟨fun _ => h, fun hhidden => Bool.noConfusion hhidden⟩

theorem defaulted {x : α} (name : String) (absent : α) (h : codec.ReadsVariants levels shape x) :
    (defaulted name codec absent).KeepsIn (Varies shape) levels x :=
  ⟨fun _ => h, fun hhidden => Bool.noConfusion hhidden⟩

theorem required_string (name : String) (levels : Nat) (shape : Shape) (s : String) :
    (Member.required name Codec.string).KeepsIn (Varies shape) levels s :=
  required name (Codec.string_readsVariants levels shape s)

theorem required_int64 (name : String) (levels : Nat) (shape : Shape) (k : Int64) :
    (Member.required name Codec.int64).KeepsIn (Varies shape) levels k :=
  required name ((Codec.int64_readsBack levels k).readsVariants shape trivial)

/-- A text that may be missing has its value again, as it is not written where it is missing. -/
theorem omitted_string (name : String) (levels : Nat) (shape : Shape) (s : Option String) :
    (Member.omitted name Codec.string).KeepsIn (Varies shape) levels s := by
  refine ⟨fun _ => Codec.optional_string_readsVariants levels shape s, fun hhidden => ?_⟩
  cases s with
  | none => rfl
  | some s => exact Bool.noConfusion hhidden

end Member.KeepsIn

/-- A record is read from each text of what is written for it, if its members are from theirs. -/
theorem Layout.readsVariants {layout : Layout α} {levels : Nat} {x : α}
    {inner : List (String × Shape)} (hnames : (layout.members.map Member.name).Nodup)
    (hbuild : layout.build (layout.parts x) = x)
    (h : Values.KeepIn (layout.shape inner).Form levels layout.members (layout.parts x)) :
    layout.codec.ReadsVariants (levels + 1) (layout.shape inner) x := by
  intro text htext
  obtain ⟨known, added, all, rfl, hknown, hadded, hall⟩ := Varies.exists_members htext
  exact readsText_objectText hnames hbuild h hknown
    (fun e he => ⟨ignores_shape_iff.1 (hadded e he).1, (hadded e he).2⟩) hall

end RegistryConsole.Json
