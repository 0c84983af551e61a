import Mathlib.Data.List.Forall2
import RegistryConsole.Json.Reader

/-! # The loops of lists and objects

A list is read item by item and an object member by member: the reader looks for the next place and
steps on from there, or stops at the bracket that closes. A list and an object that were read are
both runs of one relation, so what a step keeps is carried along a whole run here once for both. -/

namespace RegistryConsole.Json

variable {α β : Type}

/-- A fault is no result. -/
theorem faultNext_ne_ok {c : Cursor} {cause : Cause} {x : α} :
    (c.faultNext cause : Except Fault α) ≠ .ok x :=
  nofun

/-! ## Runs -/

/-- How a loop runs from a place to the one where it stops, with what its steps take on the way:
`next` finds where the next step starts, and every step takes one of the fuel. -/
inductive Loop (next : Bool → Cursor → Except Fault (Option Cursor × Cursor))
    (Step : Cursor → α → Cursor → Prop) :
    (fuel : Nat) → (first : Bool) → Cursor → List α → Cursor → Prop where
  | done {fuel : Nat} {first : Bool} {c peeked : Cursor}
      (hnext : next first c = .ok (none, peeked)) : Loop next Step (fuel + 1) first c [] peeked.next
  | more {fuel : Nat} {first : Bool} {c start peeked after stop : Cursor} {x : α} {xs : List α}
      (hnext : next first c = .ok (some start, peeked)) (hstep : Step start x after)
      (hloop : Loop next Step fuel false after xs stop) :
      Loop next Step (fuel + 1) first c (x :: xs) stop

section

variable {next : Bool → Cursor → Except Fault (Option Cursor × Cursor)}
  {Step : Cursor → α → Cursor → Prop} {fuel : Nat} {first : Bool} {c stop : Cursor} {xs : List α}

/-- What a step keeps, and the closing bracket too, a whole run keeps; and what holds of whatever a
step takes holds of all that is taken. -/
theorem Loop.keeps (Kept : Cursor → Prop) {p : α → Prop}
    (hdone : ∀ first c peeked, next first c = .ok (none, peeked) → Kept c → Kept peeked.next)
    (hmore : ∀ first c start peeked x after, next first c = .ok (some start, peeked) →
      Step start x after → Kept c → p x ∧ Kept after)
    (h : Loop next Step fuel first c xs stop) (hc : Kept c) : (∀ x ∈ xs, p x) ∧ Kept stop := by
  induction h with
  | done hnext => exact ⟨fun x hx => absurd hx List.not_mem_nil, hdone _ _ _ hnext hc⟩
  | more hnext hstep _ ih =>
    obtain ⟨hx, hafter⟩ := hmore _ _ _ _ _ _ hnext hstep hc
    obtain ⟨hxs, hstop⟩ := ih hafter
    exact ⟨List.forall_mem_cons.2 ⟨hx, hxs⟩, hstop⟩

/-- A run is followed by one of other steps between the same places, if each of its steps is. -/
theorem Loop.follows {Other : Cursor → β → Cursor → Prop} {r : α → β → Prop}
    (hstep : ∀ start x after, Step start x after → ∃ y, Other start y after ∧ r x y)
    (h : Loop next Step fuel first c xs stop) :
    ∃ ys, Loop next Other fuel first c ys stop ∧ List.Forall₂ r xs ys := by
  induction h with
  | done hnext => exact ⟨[], .done hnext, .nil⟩
  | more hnext hx _ ih =>
    obtain ⟨y, hy, hr⟩ := hstep _ _ _ hx
    obtain ⟨ys, hys, hrs⟩ := ih
    exact ⟨y :: ys, .more hnext hy hys, .cons hr hrs⟩

end

/-! ## Lists and objects as runs -/

/-- Whether an item of a list is read from one place to another. -/
def TakesItem (read : Cursor → Except Fault (α × Cursor)) (start : Cursor) (x : α)
    (after : Cursor) : Prop :=
  read start = .ok (x, after)

/-- Whether a member of an object is read from one place to another: its name, the colon and its
value. -/
def TakesMember (read : Cursor → Except Fault (α × Cursor)) (start : Cursor) (m : String × α)
    (after : Cursor) : Prop :=
  ∃ colon before, readString start = .ok (m.1, colon) ∧ takeColon colon = .ok before ∧
    read before = .ok (m.2, after)

variable {read : Cursor → Except Fault (α × Cursor)} {fuel : Nat} {first : Bool} {c stop : Cursor}

/-- A list is read just when the loop over its items runs. -/
theorem readItems_ok_iff {xs : List α} :
    readItems read fuel first c = .ok (xs, stop) ↔
      Loop nextItem? (TakesItem read) fuel first c xs stop := by
  constructor
  · intro h
    induction fuel generalizing first c xs with
    | zero => exact absurd h faultNext_ne_ok
    | succ fuel ih =>
      rw [readItems] at h
      split at h
      · exact absurd h (by simp)
      · next peeked hnext =>
        obtain ⟨rfl, rfl⟩ := Prod.mk.inj (Except.ok.inj h)
        exact .done hnext
      · next start peeked hnext =>
        split at h
        · exact absurd h (by simp)
        · next x after hitem =>
          split at h
          · exact absurd h (by simp)
          · next ys last hitems =>
            obtain ⟨rfl, rfl⟩ := Prod.mk.inj (Except.ok.inj h)
            exact .more hnext hitem (ih hitems)
  · intro h
    induction h with
    | done hnext => rw [readItems, hnext]
    | more hnext hitem _ ih =>
      rw [readItems, hnext]
      dsimp only
      rw [hitem]
      dsimp only
      rw [ih]

/-- An object is read just when the loop over its members runs. -/
theorem readMembers_ok_iff {members : List (String × α)} :
    readMembers read fuel first c = .ok (members, stop) ↔
      Loop nextName? (TakesMember read) fuel first c members stop := by
  constructor
  · intro h
    induction fuel generalizing first c members with
    | zero => exact absurd h faultNext_ne_ok
    | succ fuel ih =>
      rw [readMembers] at h
      split at h
      · exact absurd h (by simp)
      · next peeked hnext =>
        obtain ⟨rfl, rfl⟩ := Prod.mk.inj (Except.ok.inj h)
        exact .done hnext
      · next start peeked hnext =>
        split at h
        · exact absurd h (by simp)
        · next name colon hname =>
          split at h
          · exact absurd h (by simp)
          · next before hcolon =>
            split at h
            · exact absurd h (by simp)
            · next x after hvalue =>
              split at h
              · exact absurd h (by simp)
              · next ms last hmembers =>
                obtain ⟨rfl, rfl⟩ := Prod.mk.inj (Except.ok.inj h)
                exact .more hnext ⟨colon, before, hname, hcolon, hvalue⟩ (ih hmembers)
  · intro h
    induction h with
    | done hnext => rw [readMembers, hnext]
    | more hnext hmember _ ih =>
      obtain ⟨colon, before, hname, hcolon, hvalue⟩ := hmember
      rw [readMembers, hnext]
      dsimp only
      rw [hname]
      dsimp only
      rw [hcolon]
      dsimp only
      rw [hvalue]
      dsimp only
      rw [ih]

/-- One item of a list and those after it make up a list. -/
theorem readItems_cons {start peeked after : Cursor} {x : α} {xs : List α}
    (hnext : nextItem? first c = .ok (some start, peeked)) (hitem : read start = .ok (x, after))
    (hitems : readItems read fuel false after = .ok (xs, stop)) :
    readItems read (fuel + 1) first c = .ok (x :: xs, stop) :=
  readItems_ok_iff.2 (.more hnext hitem (readItems_ok_iff.1 hitems))

/-- One member of an object and those after it make up an object. -/
theorem readMembers_cons {start peeked colon before after : Cursor} {name : String} {x : α}
    {members : List (String × α)} (hnext : nextName? first c = .ok (some start, peeked))
    (hname : readString start = .ok (name, colon)) (hcolon : takeColon colon = .ok before)
    (hvalue : read before = .ok (x, after))
    (hmembers : readMembers read fuel false after = .ok (members, stop)) :
    readMembers read (fuel + 1) first c = .ok ((name, x) :: members, stop) :=
  readMembers_ok_iff.2
    (.more hnext ⟨colon, before, hname, hcolon, hvalue⟩ (readMembers_ok_iff.1 hmembers))

end RegistryConsole.Json
