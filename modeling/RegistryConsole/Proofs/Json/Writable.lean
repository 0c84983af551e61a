import RegistryConsole.Proofs.Binary64
import RegistryConsole.Proofs.Json.Documents

/-! # Values that can be written

A value can be written if its numbers can: integers always, and fractions if they are numbers of the
format. Whatever is read can be written, and what is written for it can be read again. -/

namespace RegistryConsole

namespace Json

theorem itemsAreWritable_of_forall {items : List Json}
    (h : ∀ item ∈ items, item.isWritable = true) : itemsAreWritable items = true := by
  induction items with
  | nil => rfl
  | cons item items ih =>
    obtain ⟨hitem, hitems⟩ := List.forall_mem_cons.1 h
    rw [itemsAreWritable, hitem, ih hitems]
    rfl

theorem membersAreWritable_of_forall {members : List (String × Json)}
    (h : ∀ m ∈ members, m.2.isWritable = true) : membersAreWritable members = true := by
  induction members with
  | nil => rfl
  | cons m members ih =>
    obtain ⟨hmember, hmembers⟩ := List.forall_mem_cons.1 h
    rw [membersAreWritable, hmember, ih hmembers]
    rfl

/-! ## Numbers that are read -/

variable {positive : Bool} {s : Nat} {e : Int} {c after : Cursor} {x : Number}

theorem isWritable_signed {y : Binary64} (h : y.IsFormatted) : (signed positive y).IsWritable := by
  cases positive with
  | true => exact h
  | false => exact ⟨h.significand, h.least, h.greatest⟩

theorem isWritable_of_finishFloat (h : finishFloat positive s e c = .ok (x, after)) :
    x.IsWritable := by
  obtain ⟨y, hy, rfl, -⟩ := finishFloat_ok h
  exact isWritable_signed (scaled?_ok hy).2

theorem isWritable_of_readExponent (h : readExponent positive s e c = .ok (x, after)) :
    x.IsWritable := by
  unfold readExponent at h
  dsimp only at h
  split at h
  · exact absurd h nofun
  · split at h
    · exact absurd h nofun
    · split at h
      · exact isWritable_of_finishFloat h
      · split at h
        · exact absurd h nofun
        · rw [← (Prod.mk.inj (Except.ok.inj h)).1]
          exact isWritable_signed ⟨by decide, by decide, by decide⟩

theorem isWritable_of_readScale (h : readScale positive s e c = .ok (x, after)) :
    x.IsWritable := by
  unfold readScale at h
  split at h
  · exact isWritable_of_readExponent h
  · exact isWritable_of_finishFloat h

theorem isWritable_of_readFraction (h : readFraction positive s e c = .ok (x, after)) :
    x.IsWritable := by
  unfold readFraction at h
  dsimp only at h
  split at h
  · exact isWritable_of_readScale h
  · split at h
    · split at h <;> exact absurd h faultNext_ne_ok
    · exact isWritable_of_readScale h

theorem isWritable_of_wholeNumber (h : wholeNumber positive s c = .ok (x, after)) :
    x.IsWritable := by
  rcases wholeNumber_ok rfl h with ⟨_, _, rfl, -⟩ | ⟨-, hfinish⟩
  · trivial
  · exact isWritable_of_finishFloat hfinish

/-- Every number that is read can be written. -/
theorem isWritable_of_readNumber (h : readNumber positive c = .ok (x, after)) :
    x.IsWritable := by
  unfold readNumber at h
  split at h
  · exact absurd h nofun
  split at h
  · exact absurd h nofun
  split at h
  · exact absurd h faultNext_ne_ok
  dsimp only at h
  split at h
  · split at h
    · exact isWritable_of_readFraction h
    · exact isWritable_of_readScale h
  split at h
  · exact isWritable_of_readFraction h
  split at h
  · exact isWritable_of_readExponent h
  · exact isWritable_of_wholeNumber h

/-! ## Values that are read -/

theorem gives_readWith_writable {inner : Option (Cursor → Except Fault (Json × Cursor))}
    (hinner : ∀ read ∈ inner, Gives read fun j => j.isWritable = true) :
    Gives (readWith inner) fun j => j.isWritable = true := by
  intro c after j h
  unfold readWith at h
  split at h
  · exact absurd h nofun
  · obtain ⟨rfl, -⟩ := Prod.mk.inj (Except.ok.inj h)
    rfl
  · obtain ⟨rfl, -⟩ := Prod.mk.inj (Except.ok.inj h)
    rfl
  · next x stop htoken =>
    obtain ⟨rfl, -⟩ := Prod.mk.inj (Except.ok.inj h)
    obtain ⟨b, rest, -, -, hread⟩ := readToken_number htoken
    rcases hread with ⟨-, hx⟩ | ⟨-, hx⟩
    · exact decide_eq_true (isWritable_of_readNumber hx)
    · exact decide_eq_true (isWritable_of_readNumber hx)
  · obtain ⟨rfl, -⟩ := Prod.mk.inj (Except.ok.inj h)
    rfl
  · split at h
    · exact absurd h faultNext_ne_ok
    · next read =>
      obtain ⟨⟨items, last⟩, hitems, hj⟩ := exists_of_map_eq_ok h
      obtain ⟨rfl, -⟩ := Prod.mk.inj hj
      exact itemsAreWritable_of_forall ((hinner read rfl).readItems _ _ _ _ _ hitems)
  · split at h
    · exact absurd h faultNext_ne_ok
    · next read =>
      obtain ⟨⟨members, last⟩, hmembers, hj⟩ := exists_of_map_eq_ok h
      obtain ⟨rfl, -⟩ := Prod.mk.inj hj
      have hread := (hinner read rfl).readMembers _ _ _ _ _ hmembers
      exact membersAreWritable_of_forall
        (@forall_sortMembers _ (fun j => isWritable j = true) _ hread)

theorem gives_readValue_writable (levels : Nat) :
    Gives (readValue levels) fun j => j.isWritable = true := by
  induction levels with
  | zero => exact gives_readWith_writable fun read hread => absurd hread (by simp)
  | succ levels ih =>
    refine gives_readWith_writable fun read hread => ?_
    obtain rfl := Option.some.inj hread
    exact ih

/-- Every value that is read can be written. -/
theorem isWritable_of_ofBytes? {text : Bytes} {j : Json} (h : ofBytes? text = .ok j) :
    j.isWritable = true :=
  (gives_readValue_writable maxLevels).of_readWhole h

/-- What is written for a value that was read can be read again. -/
theorem document_of_ofBytes? {text : Bytes} {j : Json} (h : ofBytes? text = .ok j) :
    Document.ofBytes? j.bytes = .ok j.document :=
  ofBytes?_document (isOrdered_of_ofBytes? h).nests

end Json

end RegistryConsole
