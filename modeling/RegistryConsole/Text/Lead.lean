/-! # Leads

What a text or a list of octets starts with. -/

namespace RegistryConsole

variable {α : Type} [DecidableEq α]

/-- The rest of a list after `lead`, if it starts with it. -/
def dropLead? : (lead : List α) → List α → Option (List α)
  | [], xs => some xs
  | _ :: _, [] => none
  | l :: lead, x :: xs => if l = x then dropLead? lead xs else none

theorem dropLead?_append (lead xs : List α) : dropLead? lead (lead ++ xs) = some xs := by
  induction lead with
  | nil => simp [dropLead?]
  | cons l lead ih => simp [dropLead?, ih]

theorem eq_append_of_dropLead? {lead xs rest : List α} (h : dropLead? lead xs = some rest) :
    xs = lead ++ rest := by
  induction lead generalizing xs with
  | nil => simpa [dropLead?] using h
  | cons l lead ih =>
    cases xs with
    | nil => simp [dropLead?] at h
    | cons x xs =>
      by_cases hx : l = x
      · simp only [dropLead?, hx, if_pos] at h
        simp [hx, ih h]
      · simp [dropLead?, hx] at h

/-- A list starts with `lead` and goes on with `rest` exactly if it is both together. -/
theorem dropLead?_eq_some_iff {lead xs rest : List α} :
    dropLead? lead xs = some rest ↔ xs = lead ++ rest :=
  ⟨eq_append_of_dropLead?, fun h => h ▸ dropLead?_append lead rest⟩

end RegistryConsole
