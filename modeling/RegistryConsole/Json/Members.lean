/-! # Members in order

Lists of named values in the strict order of their names. Setting a member keeps the order, so
each name has one value, the last one set. -/

namespace RegistryConsole.Json

/-- The list with the member `name` set to `value`. -/
def insertMember {α : Type} (name : String) (value : α) :
    List (String × α) → List (String × α)
  | [] => [(name, value)]
  | (other, x) :: rest =>
    if name = other then (name, value) :: rest
    else if name < other then (name, value) :: (other, x) :: rest
    else (other, x) :: insertMember name value rest

/-- The members in the order of their names, one for each name: the last. -/
def sortMembers {α : Type} (members : List (String × α)) : List (String × α) :=
  members.foldl (fun sorted m => insertMember m.1 m.2 sorted) []

/-- The names go strictly upwards. -/
def InOrder {α : Type} (members : List (String × α)) : Prop :=
  members.Pairwise fun a b => a.1 < b.1

/-- Names are those that were there, and the new one. -/
theorem mem_insertMember {α : Type} {name : String} {value : α} {members : List (String × α)}
    {m : String × α} (h : m ∈ insertMember name value members) :
    m = (name, value) ∨ m ∈ members := by
  induction members with
  | nil => exact Or.inl (by simpa [insertMember] using h)
  | cons first rest ih =>
    obtain ⟨other, x⟩ := first
    unfold insertMember at h
    split at h
    · rcases List.mem_cons.1 h with h | h
      · exact Or.inl h
      · exact Or.inr (List.mem_cons_of_mem _ h)
    · split at h
      · rcases List.mem_cons.1 h with h | h
        · exact Or.inl h
        · exact Or.inr h
      · rcases List.mem_cons.1 h with h | h
        · exact Or.inr (h ▸ List.mem_cons_self)
        · rcases ih h with h | h
          · exact Or.inl h
          · exact Or.inr (List.mem_cons_of_mem _ h)

/-- Of two names that differ and are not in order, the second comes first. -/
theorem lt_of_ne_of_not_lt {a b : String} (hne : a ≠ b) (hlt : ¬ a < b) : b < a := by
  have hle : b ≤ a := String.not_lt.1 hlt
  by_cases h : b < a
  · exact h
  · exact absurd (String.le_antisymm (String.not_lt.1 h) hle) hne

theorem inOrder_insertMember {α : Type} {name : String} {value : α}
    {members : List (String × α)} (h : InOrder members) :
    InOrder (insertMember name value members) := by
  induction members with
  | nil => exact List.pairwise_singleton _ _
  | cons first rest ih =>
    obtain ⟨other, x⟩ := first
    obtain ⟨hfirst, hrest⟩ := List.pairwise_cons.1 h
    unfold insertMember
    split
    · next heq =>
      subst heq
      exact List.pairwise_cons.2 ⟨hfirst, hrest⟩
    · next hne =>
      split
      · next hlt =>
        refine List.pairwise_cons.2 ⟨fun m hm => ?_, h⟩
        rcases List.mem_cons.1 hm with rfl | hm
        · exact hlt
        · exact String.lt_trans hlt (hfirst m hm)
      · next hlt =>
        refine List.pairwise_cons.2 ⟨fun m hm => ?_, ih hrest⟩
        rcases mem_insertMember hm with rfl | hm
        · exact lt_of_ne_of_not_lt hne hlt
        · exact hfirst m hm

theorem inOrder_sortMembers {α : Type} (members : List (String × α)) :
    InOrder (sortMembers members) := by
  suffices h : ∀ sorted : List (String × α), InOrder sorted →
      InOrder (members.foldl (fun sorted m => insertMember m.1 m.2 sorted) sorted) from
    h [] List.Pairwise.nil
  induction members with
  | nil => exact fun _ h => h
  | cons m members ih => exact fun sorted h => ih _ (inOrder_insertMember h)

end RegistryConsole.Json
