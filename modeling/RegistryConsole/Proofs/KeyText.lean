import RegistryConsole.Settings.Load

/-! # The text of a key on one line

A variable carries the text of a key on one line, its line ends written as a backslash and an `n`.
Resolving them gives the text back, unless the text has such a pair of its own: a pair has no
character in common with another one, so a backslash before a line end stays what it is. -/

namespace RegistryConsole

/-- Whether a backslash with an `n` after it stands somewhere in a text. -/
def HasWrittenEnd (cs : List Char) : Prop :=
  ['\\', 'n'] <:+: cs

/-- A text with its line ends written as a backslash and an `n`. -/
def escapeLines (cs : List Char) : List Char :=
  cs.flatMap fun c => if c = '\n' then ['\\', 'n'] else [c]

/-- A string on one line, as a variable carries it. -/
def onOneLine (s : String) : String :=
  String.ofList (escapeLines s.toList)

/-- A pair starts a text or stands in what follows its first character. -/
theorem hasWrittenEnd_cons {c : Char} {cs : List Char} :
    HasWrittenEnd (c :: cs) ↔ (c = '\\' ∧ cs.head? = some 'n') ∨ HasWrittenEnd cs := by
  rw [HasWrittenEnd, List.infix_cons_iff, List.cons_prefix_cons, HasWrittenEnd]
  cases cs with
  | nil => simp
  | cons d cs => simp [List.cons_prefix_cons, eq_comm]

/-! ## Resolving -/

/-- A character that starts no pair stays. -/
theorem unescapeLines_cons {c : Char} {cs : List Char} (h : ¬(c = '\\' ∧ cs.head? = some 'n')) :
    unescapeLines (c :: cs) = c :: unescapeLines cs := by
  rw [unescapeLines]
  rintro rest rfl rfl
  exact h ⟨rfl, rfl⟩

/-- A text without pairs stays as it is. -/
theorem unescapeLines_eq_self {cs : List Char} (h : ¬HasWrittenEnd cs) :
    unescapeLines cs = cs := by
  induction cs with
  | nil => rfl
  | cons c cs ih =>
    rw [hasWrittenEnd_cons, not_or] at h
    rw [unescapeLines_cons h.1, ih h.2]

/-- What is left starts with an `n` only if the text does. -/
theorem head?_of_unescapeLines {cs : List Char} (h : (unescapeLines cs).head? = some 'n') :
    cs.head? = some 'n' := by
  unfold unescapeLines at h
  split at h
  · exact absurd (Option.some.inj h) (by decide)
  · exact h
  · exact h

/-- No pair is left, and none comes of what is left. -/
theorem not_hasWrittenEnd_unescapeLines (cs : List Char) : ¬HasWrittenEnd (unescapeLines cs) := by
  fun_induction unescapeLines cs with
  | case1 rest ih =>
    rw [hasWrittenEnd_cons, not_or]
    exact ⟨fun h => absurd h.1 (by decide), ih⟩
  | case2 c rest hpair ih =>
    rw [hasWrittenEnd_cons, not_or]
    refine ⟨?_, ih⟩
    rintro ⟨rfl, hn⟩
    obtain ⟨more, hmore⟩ := List.head?_eq_some_iff.1 (head?_of_unescapeLines hn)
    exact hpair more rfl hmore
  | case3 => simp [HasWrittenEnd]

/-! ## Writing on one line -/

theorem escapeLines_cons (c : Char) (cs : List Char) :
    escapeLines (c :: cs) = (if c = '\n' then ['\\', 'n'] else [c]) ++ escapeLines cs :=
  List.flatMap_cons

/-- No line end is left on one line. -/
theorem not_mem_escapeLines (cs : List Char) : '\n' ∉ escapeLines cs := by
  intro h
  obtain ⟨c, -, hc⟩ := List.mem_flatMap.1 h
  split at hc
  · exact absurd hc (by decide)
  · next hne => exact hne (List.mem_singleton.1 hc).symm

/-- What is on one line starts with an `n` only if the text does. -/
theorem head?_of_escapeLines {cs : List Char} (h : (escapeLines cs).head? = some 'n') :
    cs.head? = some 'n' := by
  cases cs with
  | nil => exact h
  | cons c cs =>
    rw [escapeLines_cons] at h
    split at h
    · exact absurd (Option.some.inj h) (by decide)
    · exact h

/-- Resolving undoes writing on one line where a text has no pairs. -/
theorem unescapeLines_escapeLines {cs : List Char} (h : ¬HasWrittenEnd cs) :
    unescapeLines (escapeLines cs) = cs := by
  induction cs with
  | nil => rfl
  | cons c cs ih =>
    rw [hasWrittenEnd_cons, not_or] at h
    rw [escapeLines_cons]
    split
    · next hc =>
      rw [hc]
      exact congrArg _ (ih h.2)
    · -- a backslash starts a pair on one line only with an `n` that follows it in the text
      rw [List.singleton_append,
        unescapeLines_cons fun hpair => h.1 ⟨hpair.1, head?_of_escapeLines hpair.2⟩, ih h.2]

/-! ## Keys -/

theorem normalizePem_of_mem {s : String} (h : '\n' ∈ s.toList) : normalizePem s = s := by
  rw [normalizePem, if_pos (List.contains_iff_mem.2 h)]

theorem normalizePem_of_notMem {s : String} (h : '\n' ∉ s.toList) :
    normalizePem s = String.ofList (unescapeLines s.toList) := by
  rw [normalizePem, if_neg fun hmem => h (List.contains_iff_mem.1 hmem)]

/-- A key stays as it is exactly if it has line ends already or no written ones. -/
theorem normalizePem_eq_self_iff (s : String) :
    normalizePem s = s ↔ '\n' ∈ s.toList ∨ ¬HasWrittenEnd s.toList := by
  by_cases hline : '\n' ∈ s.toList
  · exact iff_of_true (normalizePem_of_mem hline) (Or.inl hline)
  · rw [normalizePem_of_notMem hline, or_iff_right hline]
    constructor
    · intro heq hpair
      rw [← heq, String.toList_ofList] at hpair
      exact not_hasWrittenEnd_unescapeLines _ hpair
    · intro hpair
      rw [unescapeLines_eq_self hpair, String.ofList_toList]

/-- A key comes back from one line exactly if it has no written line ends of its own. -/
theorem normalizePem_onOneLine_iff (s : String) :
    normalizePem (onOneLine s) = s ↔ ¬HasWrittenEnd s.toList := by
  have hline : '\n' ∉ (onOneLine s).toList := by
    rw [onOneLine, String.toList_ofList]
    exact not_mem_escapeLines _
  rw [normalizePem_of_notMem hline, onOneLine, String.toList_ofList]
  constructor
  · intro heq hpair
    rw [← heq, String.toList_ofList] at hpair
    exact not_hasWrittenEnd_unescapeLines _ hpair
  · intro hpair
    rw [unescapeLines_escapeLines hpair, String.ofList_toList]

/-- Resolving a second time changes nothing. -/
theorem normalizePem_normalizePem (s : String) :
    normalizePem (normalizePem s) = normalizePem s := by
  by_cases hline : '\n' ∈ s.toList
  · rw [normalizePem_of_mem hline, normalizePem_of_mem hline]
  · rw [normalizePem_eq_self_iff, normalizePem_of_notMem hline, String.toList_ofList]
    exact Or.inr (not_hasWrittenEnd_unescapeLines _)

/-- Resolving the line ends of a key undoes writing it on one line: exactly the keys without written
line ends come back, exactly those and the ones with line ends stay as they are, and resolving twice
is resolving once. -/
theorem restoresLines_normalizePem (s : String) :
    (normalizePem (onOneLine s) = s ↔ ¬HasWrittenEnd s.toList) ∧
      (normalizePem s = s ↔ '\n' ∈ s.toList ∨ ¬HasWrittenEnd s.toList) ∧
      normalizePem (normalizePem s) = normalizePem s :=
  ⟨normalizePem_onOneLine_iff s, normalizePem_eq_self_iff s, normalizePem_normalizePem s⟩

/-- A backslash right before a line end stays one. -/
example : normalizePem "a\\\\nb\\n" = "a\\\nb\n" := by decide

end RegistryConsole
