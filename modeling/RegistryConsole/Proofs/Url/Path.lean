import Mathlib.Data.List.Basic
import RegistryConsole.Proofs.Spans
import RegistryConsole.Url.Parse

/-! # Paths and queries that stay as they are

A path and a query are escaped when they are read, backslashes become slashes, and points are
resolved. What is none of this stays as it is, and nothing else does. -/

namespace RegistryConsole

/-! ## Escapes -/

namespace Escape

/-- Whether the characters that escapes are made of are not escaped themselves. -/
def IsFinal (escaped : Char → Bool) : Prop :=
  ∀ b, ∀ c ∈ octet b, escaped c = false

variable {escaped : Char → Bool}

/-- The characters that escapes are made of. -/
theorem isFinal_of_digits (hpercent : escaped '%' = false)
    (hdigit : ∀ n < 16, escaped (hexDigit n) = false) : IsFinal escaped := by
  intro b c hc
  have hbound : b.toNat < 256 := b.toNat_lt
  simp only [octet, List.mem_cons, List.not_mem_nil, or_false] at hc
  rcases hc with rfl | rfl | rfl
  · exact hpercent
  · exact hdigit _ (by omega)
  · exact hdigit _ (by omega)

theorem isFinal_inPath : IsFinal inPath :=
  isFinal_of_digits (by decide) (by decide)

theorem isFinal_inWebQuery : IsFinal inWebQuery :=
  isFinal_of_digits (by decide) (by decide)

/-- A character of an escaped text is one of the text, or belongs to an escape. -/
theorem mem_text {cs : List Char} {c : Char} (h : c ∈ text escaped cs) :
    (c ∈ cs ∧ escaped c = false) ∨ ∃ b, c ∈ octet b := by
  obtain ⟨x, hx, hc⟩ := List.mem_flatMap.1 h
  unfold char at hc
  split at hc
  · obtain ⟨b, -, hb⟩ := List.mem_flatMap.1 hc
    exact Or.inr ⟨b, hb⟩
  · next hkept =>
    obtain rfl := List.mem_singleton.1 hc
    exact Or.inl ⟨hx, by simpa using hkept⟩

theorem backslash_not_mem_octet (b : UInt8) : '\\' ∉ octet b := by
  intro h
  have hfinal : IsFinal (· == '\\') := isFinal_of_digits (by decide) (by decide)
  exact absurd (hfinal b _ h) (by decide)

/-- What is escaped once has nothing left to be escaped. -/
theorem eq_false_of_mem_text (hfinal : IsFinal escaped) {cs : List Char} {c : Char}
    (h : c ∈ text escaped cs) : escaped c = false := by
  rcases mem_text h with ⟨-, hc⟩ | ⟨b, hb⟩
  · exact hc
  · exact hfinal b c hb

/-- Only a text with nothing to be escaped stays as it is. -/
theorem text_eq_self_iff (hfinal : IsFinal escaped) {cs : List Char} :
    text escaped cs = cs ↔ ∀ c ∈ cs, escaped c = false := by
  constructor
  · intro h c hc
    rw [← h] at hc
    exact eq_false_of_mem_text hfinal hc
  · exact text_eq_self

end Escape

namespace Url

/-! ## Segments -/

/-- Whether a segment is neither a point nor two. -/
def IsOrdinary (segment : List Char) : Prop :=
  plainDots segment ≠ ['.'] ∧ plainDots segment ≠ ['.', '.']

instance (segment : List Char) : Decidable (IsOrdinary segment) :=
  inferInstanceAs (Decidable (_ ∧ _))

/-- Without percent signs there are no escaped points. -/
theorem plainDots_eq_self {segment : List Char} (h : '%' ∉ segment) :
    plainDots segment = segment := by
  fun_induction plainDots segment with
  | case1 c rest hc ih => exact absurd List.mem_cons_self h
  | case2 c rest hc ih => exact absurd List.mem_cons_self h
  | case3 c rest hother ih => rw [ih (List.not_mem_of_not_mem_cons h)]
  | case4 => rfl

/-- The text of a path of segments. -/
def pathText (parts : List (List Char)) : List Char :=
  parts.flatMap ('/' :: ·)

@[simp] theorem pathText_nil : pathText [] = [] := rfl

@[simp] theorem pathText_cons (part : List Char) (parts : List (List Char)) :
    pathText (part :: parts) = '/' :: part ++ pathText parts := rfl

@[simp] theorem pathText_append (a b : List (List Char)) :
    pathText (a ++ b) = pathText a ++ pathText b := List.flatMap_append

/-- The text of the segments of a text is that text after a slash. -/
theorem pathText_splitOn (cs : List Char) : pathText (cs.splitOn '/') = '/' :: cs := by
  rw [List.splitOn_eq_splitOnP]
  induction cs with
  | nil => rfl
  | cons c cs ih =>
    rw [List.splitOnP_cons_eq_if_modifyHead]
    split
    · next hc =>
      rw [pathText_cons, ih, eq_of_beq hc]
      rfl
    · cases hsplit : cs.splitOnP (· == '/') with
      | nil => exact absurd hsplit (List.splitOnP_ne_nil _ cs)
      | cons part parts =>
        rw [hsplit, pathText_cons, List.cons_append, List.cons.injEq] at ih
        rw [List.modifyHead_cons, pathText_cons, List.cons_append, List.cons_append, ih.2]

/-- A segment has no separator in it, and all of it is from the text. -/
theorem mem_of_mem_splitOnP {p : Char → Bool} {cs segment : List Char}
    (h : segment ∈ cs.splitOnP p) {c : Char} (hc : c ∈ segment) : c ∈ cs ∧ p c = false := by
  induction cs generalizing segment with
  | nil =>
    rw [List.splitOnP_nil, List.mem_singleton] at h
    rw [h] at hc
    exact absurd hc List.not_mem_nil
  | cons x cs ih =>
    rw [List.splitOnP_cons_eq_if_modifyHead] at h
    split at h
    · rcases List.mem_cons.1 h with rfl | h
      · exact absurd hc List.not_mem_nil
      · exact (ih h hc).imp_left (List.mem_cons_of_mem x)
    · next hx =>
      cases hsplit : cs.splitOnP p with
      | nil => exact absurd hsplit (List.splitOnP_ne_nil p cs)
      | cons part parts =>
        rw [hsplit, List.modifyHead_cons] at h
        rcases List.mem_cons.1 h with rfl | h
        · rcases List.mem_cons.1 hc with rfl | hc
          · exact ⟨List.mem_cons_self, by simpa using hx⟩
          · exact (ih (hsplit ▸ List.mem_cons_self) hc).imp_left (List.mem_cons_of_mem x)
        · exact (ih (hsplit ▸ List.mem_cons_of_mem _ h) hc).imp_left (List.mem_cons_of_mem x)

/-- Separators that are the same in a text split it in the same way. -/
theorem splitOnP_congr {p q : Char → Bool} {cs : List Char} (h : ∀ c ∈ cs, p c = q c) :
    cs.splitOnP p = cs.splitOnP q := by
  induction cs with
  | nil => rfl
  | cons c cs ih =>
    rw [List.splitOnP_cons_eq_if_modifyHead, List.splitOnP_cons_eq_if_modifyHead,
      h c List.mem_cons_self, ih fun x hx => h x (List.mem_cons_of_mem _ hx)]

/-! ## Points -/

variable {path : List (List Char)} {segment : List Char}

/-- To go up makes no path longer. -/
theorem length_pathText_goUp (path : List (List Char)) :
    (pathText (goUp path)).length ≤ (pathText path).length := by
  unfold goUp
  split
  · exact Nat.le_refl _
  · rcases List.eq_nil_or_concat' path with rfl | ⟨front, part, rfl⟩
    · exact Nat.le_refl _
    · rw [List.dropLast_concat, pathText_append, List.length_append]
      exact Nat.le_add_right _ _

/-- An empty segment at the end is one slash more. -/
theorem length_pathText_concat_nil (path : List (List Char)) :
    (pathText (path ++ [[]])).length = (pathText path).length + 1 := by
  rw [pathText_append, List.length_append]
  rfl

/-- A segment of points makes a path shorter than any other segment of its length would. -/
theorem length_pathText_pushSegment_lt (h : ¬IsOrdinary segment) (path : List (List Char))
    (isLast : Bool) :
    (pathText (pushSegment path segment isLast)).length <
      (pathText path).length + (segment.length + 1) := by
  have hup := length_pathText_goUp path
  -- the empty segment is an ordinary one
  have hlength : 0 < segment.length := by
    cases segment with
    | nil => exact absurd ⟨by decide, by decide⟩ h
    | cons c segment => exact Nat.succ_pos _
  unfold pushSegment
  split
  · cases isLast with
    | true =>
      rw [if_pos rfl, length_pathText_concat_nil]
      omega
    | false =>
      rw [if_neg Bool.false_ne_true]
      omega
  · split
    · cases isLast with
      | true =>
        rw [if_pos rfl, length_pathText_concat_nil]
        omega
      | false =>
        rw [if_neg Bool.false_ne_true]
        omega
    · next hup hhere => exact absurd ⟨hhere, hup⟩ h

/-- An ordinary segment makes a path longer by itself. -/
theorem pathText_pushSegment (h : IsOrdinary segment) (path : List (List Char))
    (isLast : Bool) :
    pathText (pushSegment path segment isLast) = pathText path ++ '/' :: segment := by
  rw [pushSegment_eq_append h.2 h.1, pathText_append, pathText_cons, pathText_nil,
    List.append_nil]

/-- No segment makes a path longer than by itself. -/
theorem length_pathText_pushSegment_le (path : List (List Char)) (segment : List Char)
    (isLast : Bool) :
    (pathText (pushSegment path segment isLast)).length ≤
      (pathText path).length + (segment.length + 1) := by
  by_cases h : IsOrdinary segment
  · rw [pathText_pushSegment h, List.length_append, List.length_cons]
  · exact Nat.le_of_lt (length_pathText_pushSegment_lt h path isLast)

/-- Segments of a path are those that were there before, those that were added, or empty. -/
theorem mem_of_mem_pushSegment {isLast : Bool} {part : List Char}
    (h : part ∈ pushSegment path segment isLast) : part ∈ path ∨ part = segment ∨ part = [] := by
  have hup : ∀ part ∈ goUp path, part ∈ path := by
    intro part hpart
    unfold goUp at hpart
    split at hpart
    · exact hpart
    · exact (List.dropLast_sublist path).subset hpart
  unfold pushSegment at h
  split at h
  · split at h
    · rcases List.mem_append.1 h with h | h
      · exact Or.inl (hup _ h)
      · exact Or.inr (Or.inr (List.mem_singleton.1 h))
    · exact Or.inl (hup _ h)
  · split at h
    · split at h
      · rcases List.mem_append.1 h with h | h
        · exact Or.inl h
        · exact Or.inr (Or.inr (List.mem_singleton.1 h))
      · exact Or.inl h
    · rcases List.mem_append.1 h with h | h
      · exact Or.inl h
      · exact Or.inr (Or.inl (List.mem_singleton.1 h))

/-! ## Paths of segments -/

variable {segments : List (List Char)}

theorem mem_of_mem_pushSegments {part : List Char} (h : part ∈ pushSegments path segments) :
    part ∈ path ∨ part ∈ segments ∨ part = [] := by
  fun_induction pushSegments path segments with
  | case1 path => exact Or.inl h
  | case2 path segment =>
    exact (mem_of_mem_pushSegment h).imp_right (Or.imp_left List.mem_singleton.2)
  | case3 path segment next rest ih =>
    rcases ih h with h | h | h
    · rcases mem_of_mem_pushSegment h with h | rfl | h
      · exact Or.inl h
      · exact Or.inr (Or.inl List.mem_cons_self)
      · exact Or.inr (Or.inr h)
    · exact Or.inr (Or.inl (List.mem_cons_of_mem _ h))
    · exact Or.inr (Or.inr h)

/-- Ordinary segments are all added, one after the other. -/
theorem pushSegments_eq_append (h : ∀ segment ∈ segments, IsOrdinary segment) :
    pushSegments path segments = path ++ segments := by
  fun_induction pushSegments path segments with
  | case1 path => rw [List.append_nil]
  | case2 path segment =>
    have hone := h segment List.mem_cons_self
    exact pushSegment_eq_append hone.2 hone.1 true
  | case3 path segment next rest ih =>
    have hone := h segment List.mem_cons_self
    rw [ih fun x hx => h x (List.mem_cons_of_mem _ hx), pushSegment_eq_append hone.2 hone.1,
      List.append_assoc, List.singleton_append]

theorem pathText_pushSegments (h : ∀ segment ∈ segments, IsOrdinary segment) :
    pathText (pushSegments path segments) = pathText path ++ pathText segments := by
  rw [pushSegments_eq_append h, pathText_append]

/-- Segments of points make a path shorter than it would be otherwise. -/
theorem length_pathText_pushSegments (path segments : List (List Char)) :
    (pathText (pushSegments path segments)).length ≤
        (pathText path).length + (pathText segments).length ∧
      ((∃ segment ∈ segments, ¬IsOrdinary segment) →
        (pathText (pushSegments path segments)).length <
          (pathText path).length + (pathText segments).length) := by
  fun_induction pushSegments path segments with
  | case1 path => simp
  | case2 path segment =>
    have hone : (pathText [segment]).length = segment.length + 1 := by simp
    rw [hone]
    refine ⟨length_pathText_pushSegment_le path segment true, ?_⟩
    rintro ⟨x, hx, hpoints⟩
    rw [List.mem_singleton.1 hx] at hpoints
    exact length_pathText_pushSegment_lt hpoints path true
  | case3 path segment next rest ih =>
    have hmore : (pathText (segment :: next :: rest)).length =
        segment.length + 1 + (pathText (next :: rest)).length := by
      rw [pathText_cons, List.length_append, List.length_cons]
    have hle := length_pathText_pushSegment_le path segment false
    rw [hmore]
    refine ⟨by omega, ?_⟩
    rintro ⟨x, hx, hpoints⟩
    rcases List.mem_cons.1 hx with rfl | hx
    · have hlt := length_pathText_pushSegment_lt hpoints path false
      omega
    · have hlt := ih.2 ⟨x, hx, hpoints⟩
      omega

/-- Segments before others are none at the end. -/
theorem pushSegments_append (path before : List (List Char)) (hne : segments ≠ []) :
    pushSegments path (before ++ segments) =
      pushSegments (before.foldl (fun path x => pushSegment path x false) path) segments := by
  induction before generalizing path with
  | nil => rfl
  | cons x before ih =>
    rw [List.foldl_cons, ← ih]
    cases hrest : before ++ segments with
    | nil => exact absurd (List.append_eq_nil_iff.1 hrest).2 hne
    | cons next rest => rw [List.cons_append, hrest, pushSegments]

/-! ## What stays as it is -/

/-- Whether a character stays as it is in the path of a web address, or separates segments. -/
def IsPlainChar (c : Char) : Prop :=
  Escape.inPath c = false ∧ c ≠ '\\'

/-- Whether a path stays as it is: no character of it is escaped or stands for a slash, and no
segment is a point or two. -/
def IsPlainPath (cs : List Char) : Prop :=
  (∀ c ∈ cs, IsPlainChar c) ∧ ∀ segment ∈ cs.splitOn '/', IsOrdinary segment

/-- Whether a query stays as it is: no character of it is escaped. -/
def IsPlainQuery (cs : List Char) : Prop :=
  ∀ c ∈ cs, Escape.inWebQuery c = false

instance (c : Char) : Decidable (IsPlainChar c) :=
  inferInstanceAs (Decidable (_ ∧ _))

instance (cs : List Char) : Decidable (IsPlainPath cs) :=
  @instDecidableAnd _ _ (List.decidableBAll IsPlainChar cs)
    (List.decidableBAll IsOrdinary (cs.splitOn '/'))

instance (cs : List Char) : Decidable (IsPlainQuery cs) :=
  List.decidableBAll (fun c => Escape.inWebQuery c = false) cs

/-- The segments of a path as they are read. -/
def readSegments (cs : List Char) : List (List Char) :=
  (cs.splitOnP (isSlash true)).map (Escape.text Escape.inPath)

theorem readSegments_ne_nil (cs : List Char) : readSegments cs ≠ [] := by
  rw [readSegments, Ne, List.map_eq_nil_iff]
  exact List.splitOnP_ne_nil _ _

/-- The parts of two paths with a slash between them are those of one and the other. -/
theorem readSegments_append (before after : List Char) :
    readSegments (before ++ '/' :: after) = readSegments before ++ readSegments after := by
  rw [readSegments, List.splitOnP_append_cons _ _ (by decide), List.map_append]
  rfl

/-- Whatever is read has nothing left to be escaped, and no backslash. -/
theorem isPlainChar_of_mem_readSegments {cs part : List Char} (h : part ∈ readSegments cs)
    {c : Char} (hc : c ∈ part) : IsPlainChar c := by
  obtain ⟨segment, hsegment, rfl⟩ := List.mem_map.1 h
  refine ⟨Escape.eq_false_of_mem_text Escape.isFinal_inPath hc, ?_⟩
  rintro rfl
  rcases Escape.mem_text hc with ⟨hmem, -⟩ | ⟨b, hb⟩
  · exact absurd (mem_of_mem_splitOnP hsegment hmem).2 (by decide)
  · exact absurd hb (Escape.backslash_not_mem_octet b)

/-- The characters of a path of parts that were read. -/
theorem isPlainChar_of_mem_pathText {parts : List (List Char)}
    (hparts : ∀ part ∈ parts, ∀ c ∈ part, IsPlainChar c) {c : Char} (hc : c ∈ pathText parts) :
    IsPlainChar c := by
  obtain ⟨part, hpart, hc⟩ := List.mem_flatMap.1 hc
  rcases List.mem_cons.1 hc with rfl | hc
  · decide
  · exact hparts part hpart c hc

/-- Segments that are pushed are made of the same characters. -/
theorem isPlainChar_of_mem_pushSegments {parts segments : List (List Char)}
    (hparts : ∀ part ∈ parts, ∀ c ∈ part, IsPlainChar c)
    (hsegments : ∀ part ∈ segments, ∀ c ∈ part, IsPlainChar c) :
    ∀ part ∈ pushSegments parts segments, ∀ c ∈ part, IsPlainChar c := by
  intro part hpart c hc
  rcases mem_of_mem_pushSegments hpart with h | h | rfl
  · exact hparts part h c hc
  · exact hsegments part h c hc
  · exact absurd hc List.not_mem_nil

theorem isPlainChar_of_mem_foldl {parts segments : List (List Char)}
    (hparts : ∀ part ∈ parts, ∀ c ∈ part, IsPlainChar c)
    (hsegments : ∀ part ∈ segments, ∀ c ∈ part, IsPlainChar c) :
    ∀ part ∈ segments.foldl (fun parts x => pushSegment parts x false) parts,
      ∀ c ∈ part, IsPlainChar c := by
  induction segments generalizing parts with
  | nil => exact hparts
  | cons segment segments ih =>
    apply ih _ fun part hpart => hsegments part (List.mem_cons_of_mem _ hpart)
    intro part hpart c hc
    rcases mem_of_mem_pushSegment hpart with h | rfl | rfl
    · exact hparts part h c hc
    · exact hsegments _ List.mem_cons_self c hc
    · exact absurd hc List.not_mem_nil

/-- A path with nothing to be escaped and no backslash is read as its own segments. -/
theorem readSegments_eq_splitOn {cs : List Char} (h : ∀ c ∈ cs, IsPlainChar c) :
    readSegments cs = cs.splitOn '/' := by
  have hsplit : cs.splitOnP (isSlash true) = cs.splitOn '/' := by
    rw [List.splitOn_eq_splitOnP]
    exact splitOnP_congr fun c hc => by simp [isSlash, (h c hc).2]
  rw [readSegments, hsplit]
  refine (List.map_congr_left fun segment hsegment => ?_).trans (List.map_id _)
  rw [List.splitOn_eq_splitOnP] at hsegment
  exact Escape.text_eq_self fun c hc => (h c (mem_of_mem_splitOnP hsegment hc).1).1

/-- Two paths with a slash between them stay as they are exactly if both do. -/
theorem isPlainPath_append_slash {before after : List Char} :
    IsPlainPath (before ++ '/' :: after) ↔ IsPlainPath before ∧ IsPlainPath after := by
  have hslash : IsPlainChar '/' := by decide
  rw [IsPlainPath, List.splitOn_eq_splitOnP, List.splitOnP_append_cons _ _ (by decide)]
  simp only [IsPlainPath, List.splitOn_eq_splitOnP, List.forall_mem_append, List.forall_mem_cons]
  tauto

/-- Below the parts of another path, a path stays as it is exactly if it is plain. -/
theorem pathText_pushSegments_eq_iff {parts : List (List Char)}
    (hparts : ∀ part ∈ parts, ∀ c ∈ part, IsPlainChar c) (cs : List Char) :
    pathText (pushSegments parts (readSegments cs)) = pathText parts ++ '/' :: cs ↔
      IsPlainPath cs := by
  have htext : (∀ c ∈ cs, IsPlainChar c) → pathText (readSegments cs) = '/' :: cs := by
    intro hcs
    rw [readSegments_eq_splitOn hcs, pathText_splitOn]
  constructor
  · intro h
    -- what comes out has no character that would be escaped, so neither has what went in
    have hcs : ∀ c ∈ cs, IsPlainChar c := by
      intro c hc
      have hread : ∀ part ∈ readSegments cs, ∀ c ∈ part, IsPlainChar c :=
        fun part hpart c => isPlainChar_of_mem_readSegments hpart
      have hout := isPlainChar_of_mem_pushSegments hparts hread
      have hmem : c ∈ pathText (pushSegments parts (readSegments cs)) := by
        rw [h]
        exact List.mem_append_right _ (List.mem_cons_of_mem _ hc)
      exact isPlainChar_of_mem_pathText hout hmem
    refine ⟨hcs, ?_⟩
    by_contra hpoints
    -- and no segment of points, which would have made it shorter
    have hlength := (length_pathText_pushSegments parts (readSegments cs)).2 (by
      rw [readSegments_eq_splitOn hcs]
      simpa using hpoints)
    rw [h, htext hcs, List.length_append] at hlength
    exact absurd hlength (Nat.lt_irrefl _)
  · rintro ⟨hcs, hordinary⟩
    rw [pathText_pushSegments (by rwa [readSegments_eq_splitOn hcs]), htext hcs]

/-! ## A path after a server -/

/-- Whether a character belongs to a path, and does not start what follows it. -/
def isInPath (c : Char) : Bool :=
  c != '?' && c != '#'

theorem isInPath_of_blank {c : Char} (hc : c.toNat ≤ 0x20) : isInPath c = true := by
  simp only [isInPath, Bool.and_eq_true, bne_iff_ne, ne_eq]
  refine ⟨?_, ?_⟩ <;> rintro rfl <;> exact absurd hc (by decide)

/-- A path goes on up to the query or the fragment. -/
theorem readPath_append (parts : List (List Char)) {path tail : List Char}
    (hpath : ∀ c ∈ path, isInPath c = true) (htail : ∀ c ∈ tail.head?, isInPath c = false) :
    readPath true parts (path ++ tail) = (pushSegments parts (readSegments path), tail) := by
  have htake : (path ++ tail).takeWhile (fun c => c != '?' && c != '#') = path :=
    takeWhile_append_of_stop hpath htail
  rw [readPath, htake, List.drop_left]
  rfl

/-- The path of a web address is read as one. -/
theorem withPath_of_special {server : Url} (hspecial : server.kind.isSpecial = true)
    (cs : List Char) :
    server.withPath cs =
      { server with path := .segments (readPath true [] (dropSlash true cs)).1 }.withEnd
        (readPath true [] (dropSlash true cs)).2 := by
  unfold withPath
  rw [hspecial]
  rfl

/-- After the start of a path that is read, any path is read on from the same parts. -/
theorem exists_withPath_eq {server : Url} (hspecial : server.kind.isSpecial = true)
    {after : List Char} (hends : ∀ x ∈ after.head?, endsAuthority true x = true)
    (hafter : ∀ c ∈ after, isInPath c = true) :
    ∃ parts : List (List Char), (∀ part ∈ parts, ∀ c ∈ part, IsPlainChar c) ∧
      ∀ path tail : List Char, (∀ c ∈ path, isInPath c = true) →
        (∀ c ∈ tail.head?, isInPath c = false) →
        server.withPath (after ++ '/' :: (path ++ tail)) =
          { server with path := .segments (pushSegments parts (readSegments path)) }.withEnd
            tail := by
  cases after with
  | nil =>
    refine ⟨[], fun part hpart => absurd hpart List.not_mem_nil, ?_⟩
    intro path tail hpath htail
    rw [withPath_of_special hspecial, List.nil_append, dropSlash, if_pos (by decide),
      readPath_append [] hpath htail]
  | cons x after =>
    have hslash : isSlash true x = true := by
      have hx := hends x rfl
      have hx' := hafter x List.mem_cons_self
      simp only [endsAuthority, isInPath, isSlash, Bool.true_and, Bool.or_eq_true, Bool.and_eq_true,
        beq_iff_eq, bne_iff_ne] at hx hx' ⊢
      tauto
    refine ⟨(readSegments after).foldl (fun parts x => pushSegment parts x false) [], ?_, ?_⟩
    · exact isPlainChar_of_mem_foldl (fun part hpart => absurd hpart List.not_mem_nil)
        fun part hpart c => isPlainChar_of_mem_readSegments hpart
    · intro path tail hpath htail
      -- the parts of both paths are read in one go
      have hlonger : ∀ c ∈ after ++ '/' :: path, isInPath c = true := by
        intro c hc
        rcases List.mem_append.1 hc with hc | hc
        · exact hafter c (List.mem_cons_of_mem _ hc)
        · rcases List.mem_cons.1 hc with rfl | hc
          · decide
          · exact hpath c hc
      have hjoin : after ++ '/' :: (path ++ tail) = after ++ '/' :: path ++ tail := by simp
      rw [withPath_of_special hspecial, List.cons_append, dropSlash, if_pos hslash, hjoin,
        readPath_append [] hlonger htail, readSegments_append,
        pushSegments_append [] _ (readSegments_ne_nil path)]

/-- What stands after the path leaves it alone. -/
theorem path_withEnd (u : Url) (cs : List Char) : (u.withEnd cs).path = u.path := by
  unfold withEnd
  split
  · dsimp only
    split <;> rfl
  · rfl
  · rfl

/-- Without a query after it, the target of a URL is its path. -/
theorem target_withEnd_nil {u : Url} (hquery : u.query = none) :
    (u.withEnd []).target = u.path.text := by
  rw [show u.withEnd [] = u from rfl, target, queryText, hquery, List.append_nil]

/-- The target of a URL with a query after it. -/
theorem target_withEnd_query {u : Url} (hspecial : u.kind.isSpecial = true) {query : List Char}
    (hquery : '#' ∉ query) :
    (u.withEnd ('?' :: query)).target =
      u.path.text ++ '?' :: Escape.text Escape.inWebQuery query := by
  have htake : query.takeWhile (· != '#') = query :=
    List.takeWhile_eq_self_iff.2 fun c hc => by
      simp only [bne_iff_ne, ne_eq]
      rintro rfl
      exact hquery hc
  simp only [withEnd, htake, hspecial, List.drop_length]
  rfl

/-- What starts a query or a fragment leaves one. -/
theorem withEnd_cons {u : Url} {x : Char} (hx : isInPath x = false) (cs : List Char) :
    (u.withEnd (x :: cs)).query ≠ none ∨ (u.withEnd (x :: cs)).fragment ≠ none := by
  have hcases : x = '?' ∨ x = '#' := by
    simpa only [isInPath, Bool.and_eq_false_iff, bne_eq_false_iff_eq] using hx
  rcases hcases with rfl | rfl
  · left
    simp only [withEnd]
    split <;> exact Option.some_ne_none _
  · right
    exact Option.some_ne_none _

/-- A web address without query and fragment ends with its path. -/
theorem isInPath_of_withPath {server : Url} (hspecial : server.kind.isSpecial = true)
    {cs : List Char} (hquery : (server.withPath cs).query = none)
    (hfragment : (server.withPath cs).fragment = none) : ∀ c ∈ cs, isInPath c = true := by
  obtain ⟨path, tail, hspan, hpath, htail⟩ := exists_span isInPath (dropSlash true cs)
  rw [withPath_of_special hspecial, hspan, readPath_append [] hpath htail] at hquery hfragment
  -- whatever follows the path would start a query or a fragment
  have hnil : tail = [] := by
    cases tail with
    | nil => rfl
    | cons x tail =>
      rcases withEnd_cons (htail x rfl) tail with h | h
      · exact absurd hquery h
      · exact absurd hfragment h
  rw [hnil, List.append_nil] at hspan
  rw [← hspan] at hpath
  cases cs with
  | nil => exact fun c hc => absurd hc List.not_mem_nil
  | cons x cs =>
    rw [dropSlash] at hpath
    split at hpath
    · next hslash =>
      intro c hc
      rcases List.mem_cons.1 hc with rfl | hc
      · simp only [isSlash, Bool.true_and, Bool.or_eq_true, beq_iff_eq] at hslash
        rcases hslash with rfl | rfl <;> decide
      · exact hpath c hc
    · exact hpath

theorem mem_of_mem_dropSlash {special : Bool} {cs : List Char} {c : Char}
    (h : c ∈ dropSlash special cs) : c ∈ cs := by
  cases cs with
  | nil => exact h
  | cons x cs =>
    rw [dropSlash] at h
    split at h
    · exact List.mem_cons_of_mem x h
    · exact h

/-- A web address has neither query nor fragment exactly if all that follows the server is path. -/
theorem withPath_ends_iff {server : Url} (hspecial : server.kind.isSpecial = true)
    (hquery : server.query = none) (hfragment : server.fragment = none) {cs : List Char} :
    (server.withPath cs).query = none ∧ (server.withPath cs).fragment = none ↔
      ∀ c ∈ cs, isInPath c = true := by
  constructor
  · rintro ⟨h, h'⟩
    exact isInPath_of_withPath hspecial h h'
  · intro hcs
    have hkept : ∀ c ∈ dropSlash true cs, isInPath c = true :=
      fun c hc => hcs c (mem_of_mem_dropSlash hc)
    rw [withPath_of_special hspecial, ← List.append_nil (dropSlash true cs),
      readPath_append [] hkept (by simp)]
    exact ⟨hquery, hfragment⟩

/-- Behind what ends a path nothing belongs to it. -/
theorem path_withPath_append_cons {server : Url} (hspecial : server.kind.isSpecial = true)
    {path : List Char} {x : Char} (hpath : ∀ c ∈ path, isInPath c = true)
    (hx : isInPath x = false) (rest : List Char) :
    (server.withPath (path ++ x :: rest)).path =
      .segments (pushSegments [] (readSegments (dropSlash true path))) := by
  have hdrop : dropSlash true (path ++ x :: rest) = dropSlash true path ++ x :: rest := by
    cases path with
    | nil =>
      refine if_neg ?_
      intro hslash
      simp only [isSlash, Bool.true_and, Bool.or_eq_true, beq_iff_eq] at hslash
      rcases hslash with rfl | rfl <;> exact absurd hx (by decide)
    | cons c path =>
      rw [List.cons_append, dropSlash, dropSlash]
      split <;> rfl
  have hstop : ∀ c ∈ (x :: rest).head?, isInPath c = false := by
    intro c hc
    obtain rfl := Option.some.inj hc
    exact hx
  rw [withPath_of_special hspecial, hdrop,
    readPath_append [] (fun c hc => hpath c (mem_of_mem_dropSlash hc)) hstop, path_withEnd]

end Url

end RegistryConsole
