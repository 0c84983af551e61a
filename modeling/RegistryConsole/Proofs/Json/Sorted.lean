import RegistryConsole.Proofs.Json.Integers
import RegistryConsole.Proofs.Json.Records

/-! # Records with their members in order

A value that is read as such and written again has the members of its objects in the order of their
names. A record does not mind: what its codec writes is read back from that form as well, as its
members may come in any order. -/

namespace RegistryConsole.Json

variable {α : Type}

/-! ## What the order leaves -/

theorem sortedItems_eq_map (items : List Json) : sortedItems items = items.map sorted := by
  induction items with
  | nil => rfl
  | cons item items ih => rw [sortedItems, ih, List.map_cons]

theorem sortedMembers_eq_map (members : List (String × Json)) :
    sortedMembers members = members.map fun m => (m.1, m.2.sorted) := by
  induction members with
  | nil => rfl
  | cons m members ih => rw [sortedMembers, ih, List.map_cons]

/-- A member with a new name is put somewhere among the others. -/
theorem insertMember_perm {name : String} {value : α} {members : List (String × α)}
    (h : name ∉ members.map Prod.fst) :
    (insertMember name value members).Perm ((name, value) :: members) := by
  induction members with
  | nil => exact List.Perm.refl _
  | cons first members ih =>
    obtain ⟨other, x⟩ := first
    obtain ⟨hne, hrest⟩ := not_or.1 (List.mem_cons.not.1 h)
    rw [insertMember, if_neg hne]
    split
    · exact List.Perm.refl _
    · exact ((ih hrest).cons _).trans (List.Perm.swap _ _ _)

/-- Members without a name twice are all there once they are in order. -/
theorem sortMembers_perm {members : List (String × α)} (h : (members.map Prod.fst).Nodup) :
    (sortMembers members).Perm members := by
  suffices hfold : ∀ kept : List (String × α), ((members ++ kept).map Prod.fst).Nodup →
      (members.foldl (fun sorted m => insertMember m.1 m.2 sorted) kept).Perm (members ++ kept) by
    have hall := hfold [] (by rwa [List.append_nil])
    rwa [List.append_nil] at hall
  clear h
  induction members with
  | nil => exact fun kept _ => List.Perm.refl kept
  | cons first members ih =>
    intro kept hkept
    rw [List.cons_append, List.map_cons, List.nodup_cons] at hkept
    obtain ⟨hfirst, hrest⟩ := hkept
    have hnew : first.1 ∉ kept.map Prod.fst := fun hmem =>
      hfirst (by rw [List.map_append]; exact List.mem_append_right _ hmem)
    have hput : (members ++ insertMember first.1 first.2 kept).Perm (members ++ first :: kept) :=
      (insertMember_perm hnew).append_left members
    have hswap : (members ++ first :: kept).Perm (first :: (members ++ kept)) :=
      List.perm_middle
    refine (ih _ ?_).trans (hput.trans hswap)
    rw [((hput.trans hswap).map Prod.fst).nodup_iff, List.map_cons, List.nodup_cons]
    exact ⟨hfirst, hrest⟩

/-- No name comes twice in members in order. -/
theorem nodup_names_of_inOrder {members : List (String × α)} (h : InOrder members) :
    (members.map Prod.fst).Nodup := by
  refine List.pairwise_map.2 (List.Pairwise.imp (fun {a b} hlt heq => ?_) h)
  rw [heq] at hlt
  exact String.lt_irrefl _ hlt

/-! ## Reading it back -/

/-- Whether a codec reads a value back from what it writes for it, once that is in order. -/
def Codec.ReadsSorted (codec : Codec α) (levels : Nat) (x : α) : Prop :=
  ReadsAs (codec.read levels) (codec.write x).sorted x

namespace Codec

/-- It is read back so from a whole text. -/
theorem ofBytes?_bytes_sorted {codec : Codec α} {x : α} (h : codec.ReadsSorted maxLevels x) :
    codec.ofBytes? (codec.write x).sorted.bytes = .ok x :=
  readWhole_bytes h

theorem string_readsSorted (levels : Nat) (s : String) : string.ReadsSorted levels s :=
  string_readsBack levels s

/-- A list is read back if its items are. -/
theorem list_readsSorted {codec : Codec α} {levels : Nat} {xs : List α}
    (h : ∀ x ∈ xs, codec.ReadsSorted levels x) : (list codec).ReadsSorted (levels + 1) xs := by
  have hitems : List.Forall₂ (ReadsAs (codec.read levels)) (sortedItems (xs.map codec.write))
      xs := by
    rw [sortedItems_eq_map, List.map_map, List.forall₂_map_left_iff, List.forall₂_same]
    exact h
  show ReadsText _ (Utf8.encode (compact (.array (sortedItems (xs.map codec.write))))) xs
  rw [encode_array]
  exact list_readsText (List.forall₂_map_left_iff.2 hitems) startsValue_of_mem_encoded

end Codec

namespace Values

/-- Whether all members have their values again from some form of what is written for them. -/
def KeepAs (form : Json → Json) (levels : Nat) : (ms : List Member) → Values ms → Prop
  | [], _ => True
  | m :: ms, (x, xs) =>
    ((m.hidden x = false → ReadsAs (m.codec.read levels) (form (m.codec.write x)) x) ∧
      (m.hidden x = true → m.absent? = some x)) ∧ KeepAs form levels ms xs

theorem KeepAs.keepIn {form : Json → Json} {levels : Nat} {ms : List Member} {xs : Values ms}
    (h : KeepAs form levels ms xs) :
    KeepIn (fun _ j text => text = Utf8.encode (form j).compact) levels ms xs := by
  induction ms with
  | nil => trivial
  | cons m ms ih =>
    obtain ⟨⟨hwritten, hhidden⟩, hrest⟩ := h
    exact ⟨⟨fun hshown text htext => htext ▸ hwritten hshown, hhidden⟩, ih hrest⟩

end Values

/-- A record is read back if its members have their values again. -/
theorem Layout.readsSorted {layout : Layout α} {levels : Nat} {x : α}
    (hnames : (layout.members.map Member.name).Nodup) (hbuild : layout.build (layout.parts x) = x)
    (h : Values.KeepAs sorted levels layout.members (layout.parts x)) :
    layout.codec.ReadsSorted (levels + 1) x := by
  have hnodup := (Values.sublist_write (layout.parts x)).nodup hnames
  have hknown : List.Forall₂ (InForm fun _ j text => text = Utf8.encode j.sorted.compact)
      (Values.write layout.members (layout.parts x))
      ((sortedMembers (Values.write layout.members (layout.parts x))).map fun m =>
        (m.1, Utf8.encode m.2.compact)) := by
    rw [sortedMembers_eq_map, List.map_map, List.forall₂_map_right_iff, List.forall₂_same]
    exact fun e _ => ⟨rfl, rfl⟩
  have hnames' : (sortedMembers (Values.write layout.members (layout.parts x))).map Prod.fst =
      (Values.write layout.members (layout.parts x)).map Prod.fst := by
    rw [sortedMembers_eq_map, List.map_map]
    rfl
  have hsort := sortMembers_perm (hnames' ▸ hnodup)
  show ReadsText _ (Utf8.encode (compact (.object (sortMembers _)))) x
  rw [encode_object]
  refine readsText_objectText hnames hbuild h.keepIn hknown (List.forall_mem_nil _) ?_
  rw [List.append_nil]
  exact hsort.map _

end RegistryConsole.Json
