import RegistryConsole.Http.Header

/-! # The values of a header's names

Every operation on a header is described by what it does to the values of each name: leaving names
out takes all their values away, putting a field makes its value the only one, and adding one puts
it after those that are there. Nothing moves between names. -/

namespace RegistryConsole.Headers

variable {h : Headers} {m n : String}

/-! ## Names that are there -/

/-- A name is there exactly if it has a value. -/
theorem has_iff : h.has n = true ↔ h.values n ≠ [] := by
  rw [values, has, ne_eq, List.map_eq_nil_iff, List.filter_eq_nil_iff, List.any_eq_true]
  simp only [Classical.not_forall, Classical.not_not, exists_prop]

/-- A name is absent exactly if it has no value. -/
theorem has_eq_false_iff : h.has n = false ↔ h.values n = [] := by
  rw [← Bool.not_eq_true, has_iff, Classical.not_not]

/-- The first value is the one that stands first. -/
theorem first?_eq_head? (h : Headers) (n : String) : h.first? n = (h.values n).head? := by
  rw [first?, values, List.head?_map, List.head?_filter]

/-! ## The operations -/

theorem values_append (h k : Headers) (n : String) :
    (h ++ k).values n = h.values n ++ k.values n := by
  rw [values, values, values, List.filter_append, List.map_append]

/-- One field gives its value to its own name. -/
theorem values_singleton (f : HeaderField) (n : String) :
    values [f] n = if f.name = n then [f.value] else [] := by
  by_cases hn : f.name = n
  · simp [values, hn]
  · simp [values, hn]

/-- Names that are left out have no values, and the others keep theirs. -/
theorem values_without (h : Headers) (names : List String) (n : String) :
    (h.without names).values n = if n ∈ names then [] else h.values n := by
  rw [values, without, List.filter_filter]
  by_cases hn : n ∈ names
  · rw [if_pos hn, List.map_eq_nil_iff, List.filter_eq_nil_iff]
    intro f _
    by_cases hf : f.name = n
    · simp [hf, hn]
    · simp [hf]
  · rw [if_neg hn, values]
    refine congrArg (List.map _) (List.filter_congr fun f _ => ?_)
    by_cases hf : f.name = n
    · simp [hf, hn]
    · simp [hf]

/-- A field that is put is the only one of its name. -/
theorem values_put (h : Headers) (f : HeaderField) (n : String) :
    (h.put f).values n = if n = f.name then [f.value] else h.values n := by
  rw [put, values_append, values_without, values_singleton]
  by_cases hn : n = f.name
  · simp [hn]
  · simp [hn, Ne.symm hn]

theorem values_put_of_ne {f : HeaderField} (hn : n ≠ f.name) :
    (h.put f).values n = h.values n := by
  rw [values_put, if_neg hn]

/-- A field that is added comes after those of its name. -/
theorem values_add (h : Headers) (m n : String) (v : Bytes) :
    (h.add m v).values n = if n = m then h.values n ++ [v] else h.values n := by
  rw [add, values_append, values_singleton]
  by_cases hn : n = m
  · simp [hn]
  · simp [hn, Ne.symm hn]

/-- A field that is put where it is absent gives its name a value only if there is none. -/
theorem values_putAbsent (h : Headers) (m n : String) (v : Bytes) :
    (h.putAbsent m v).values n =
      if n = m ∧ h.values n = [] then [v] else h.values n := by
  rw [putAbsent]
  by_cases hm : h.has m = true
  · rw [if_pos hm]
    by_cases hn : n = m
    · subst hn
      rw [if_neg fun hnil => has_iff.1 hm hnil.2]
    · rw [if_neg fun hnil => hn hnil.1]
  · rw [if_neg hm, values_add]
    rw [Bool.not_eq_true, has_eq_false_iff] at hm
    by_cases hn : n = m
    · subst hn
      rw [if_pos rfl, if_pos ⟨rfl, hm⟩, hm, List.nil_append]
    · rw [if_neg hn, if_neg fun hnil => hn hnil.1]

theorem values_putAbsent_of_ne {v : Bytes} (hn : n ≠ m) :
    (h.putAbsent m v).values n = h.values n := by
  rw [values_putAbsent, if_neg fun hnil => hn hnil.1]

end RegistryConsole.Headers
