import Mathlib.Data.List.TakeWhile

/-! # Spans

What a reader takes off the start of a list: the elements up to the first one that does not belong.
A span is known from where it stops, whatever follows. -/

namespace RegistryConsole

variable {α : Type} {p : α → Bool} {start rest : List α}

/-- What is left does not go on with the span. -/
theorem eq_false_of_mem_head?_dropWhile {xs : List α} {x : α}
    (hx : x ∈ (xs.dropWhile p).head?) : p x = false := by
  have h := List.head?_dropWhile_not p xs
  rw [Option.mem_def] at hx
  rw [hx] at h
  exact h

/-- Every list is a span and a rest that does not go on with it. -/
theorem exists_span (p : α → Bool) (xs : List α) :
    ∃ start rest, xs = start ++ rest ∧ (∀ x ∈ start, p x = true) ∧
      ∀ x ∈ rest.head?, p x = false :=
  ⟨xs.takeWhile p, xs.dropWhile p, List.takeWhile_append_dropWhile.symm,
    fun _ hx => List.mem_takeWhile_imp hx, fun _ hx => eq_false_of_mem_head?_dropWhile hx⟩

/-- The span stops where the rest does not go on with it. -/
theorem takeWhile_append_of_stop (hstart : ∀ x ∈ start, p x = true)
    (hrest : ∀ x ∈ rest.head?, p x = false) : (start ++ rest).takeWhile p = start := by
  rw [List.takeWhile_append_of_pos hstart]
  cases rest with
  | nil => exact List.append_nil start
  | cons x rest => rw [List.takeWhile_cons, hrest x rfl, if_neg Bool.false_ne_true, List.append_nil]

/-- Lists that go on after the first place of an element are told apart before and after it. -/
theorem append_cons_eq_iff_of_not_mem {a b c d : List α} {x : α} (ha : x ∉ a) (hc : x ∉ c) :
    a ++ x :: b = c ++ x :: d ↔ a = c ∧ b = d := by
  induction a generalizing c with
  | nil =>
    cases c with
    | nil => simp
    | cons y c =>
      have hne : x ≠ y := fun h => hc (h ▸ List.mem_cons_self)
      simp [hne]
  | cons z a ih =>
    cases c with
    | nil => simp [(List.ne_of_not_mem_cons ha).symm]
    | cons y c =>
      rw [List.cons_append, List.cons_append, List.cons.injEq,
        ih (List.not_mem_of_not_mem_cons ha) (List.not_mem_of_not_mem_cons hc), List.cons.injEq,
        and_assoc]

end RegistryConsole
