import RegistryConsole.Proofs.Json.Numerals
import RegistryConsole.Proofs.Spans

/-! # Texts whose numbers are integers

What is read of such a text is a value without fractions. It is read step by step: every reader
takes some of the numbers of the text, and leaves the others to those that read on. A value that was
read has its members in order, so its compact form is read back as the same value. -/

namespace RegistryConsole.Json

/-- Whether a reader of texts whose numbers are integers makes something with the property `p` of
them, and leaves such a text. -/
def KeepsIntegers {α : Type} (read : Cursor → Except Fault (α × Cursor)) (p : α → Prop) : Prop :=
  ∀ (c after : Cursor) (x : α), read c = .ok (x, after) → HasIntegers c.rest →
    p x ∧ HasIntegers after.rest

/-- Texts with the same numbers are alike. -/
theorem HasIntegers.of_eq {text rest : Bytes} (h : HasIntegers text)
    (heq : numerals rest = numerals text) : HasIntegers rest := by
  intro numeral hnumeral
  rw [heq] at hnumeral
  exact h numeral hnumeral

/-! ## Tokens -/

/-- White space before a token does not matter. -/
theorem readToken_skipSpace (c : Cursor) : readToken c.skipSpace = readToken c := by
  have hskip : c.skipSpace.skipSpace = c.skipSpace := skipSpace_skipFrom c.taken c.rest
  rw [readToken, hskip]
  rfl

/-- An integer at the start of a text is read, and no other number with it. -/
theorem readToken_numeral {b : UInt8} {rest : Bytes} (hb : startsNumeral b = true)
    (htext : HasIntegers (b :: rest)) (n : Nat) :
    ∃ k hfits after, readToken ⟨b :: rest, n⟩ = .ok (.number (.integer k hfits), after) ∧
      HasIntegers after.rest := by
  rw [HasIntegers, numerals_cons_of_starts hb] at htext
  obtain ⟨k, hfits, hk⟩ := htext _ List.mem_cons_self
  have hsplit : b :: rest =
      Utf8.encode (Number.integerText k) ++ rest.dropWhile inNumeral := by
    rw [integerText_eq, ← Utf8.ofString, ← hk, List.cons_append, List.takeWhile_append_dropWhile]
  have hend : EndsNumber (rest.dropWhile inNumeral) := by
    intro x hx
    have hnot := eq_false_of_mem_head?_dropWhile hx
    simp only [inNumeral, startsNumeral, Bool.or_eq_false_iff, beq_eq_false_iff_ne] at hnot
    refine ⟨?_, hnot.1.1.2, hnot.1.2, hnot.2⟩
    exact Option.isSome_eq_false_iff.1 hnot.1.1.1.1.1
  have hread := readToken_integer hfits hend n
  rw [← hsplit] at hread
  exact ⟨k, hfits, _, hread, fun numeral hnumeral =>
    htext numeral (List.mem_cons_of_mem _ hnumeral)⟩

/-- Whether a token is no number, or an integer. -/
def Token.IsExact : Token → Prop
  | .number (.float _) => False
  | _ => True

/-- The brackets with which lists and objects open. -/
def Token.bracket? : Token → Option UInt8
  | .openList => some 0x5B
  | .openObject => some 0x7B
  | _ => none

/-- What comes of a step that went well was made of its result. -/
theorem exists_of_map_eq_ok {ε α β : Type} {step : Except ε α} {make : α → β} {y : β}
    (h : step.map make = .ok y) : ∃ x, step = .ok x ∧ make x = y := by
  cases step with
  | error f => exact absurd h (by simp [Except.map])
  | ok x => exact ⟨x, rfl, Except.ok.inj h⟩

/-- What a token leaves: it takes its own number, if it is one, and no other. A bracket is still
there. -/
structure TakesToken (token : Token) (after : Cursor) : Prop where
  exact : token.IsExact
  rest : HasIntegers after.rest
  bracket : ∀ b ∈ token.bracket?, after.peek? = some b

/-- A word is taken off a text as a whole. -/
theorem takesToken_word {c after : Cursor} {b : UInt8} {letters : Bytes} {word token : Token}
    (hc : HasIntegers c.rest) (hpeek : c.peek? = some b)
    (hb : startsNumeral b = false ∧ b ≠ 0x22)
    (h : (c.next.takeWord letters).map (fun c => (word, c)) = .ok (token, after))
    (hletters : letters.all (fun x => !startsNumeral x && x != 0x22) = true)
    (hexact : word.IsExact) (hbracket : word.bracket? = none) : TakesToken token after := by
  obtain ⟨stop, htaken, hword⟩ := exists_of_map_eq_ok h
  obtain ⟨rfl, rfl⟩ := Prod.mk.inj hword
  have hplain : ∀ x ∈ letters, startsNumeral x = false ∧ x ≠ 0x22 :=
    fun x hx => by simpa using List.all_eq_true.1 hletters x hx
  refine ⟨hexact, hc.of_eq ?_, fun x hx => absurd hx (by simp [hbracket])⟩
  rw [numerals_takeWord hplain htaken, numerals_next hpeek hb.1 hb.2]

/-- A token is taken off a text whose numbers are integers. -/
theorem readToken_ok {c after : Cursor} {token : Token} (h : readToken c = .ok (token, after))
    (hc : HasIntegers c.rest) : TakesToken token after := by
  have hd : HasIntegers c.skipSpace.rest := hc.of_eq (numerals_skipSpace c)
  cases hrest : c.skipSpace.rest with
  | nil =>
    rw [readToken] at h
    simp [hrest, Cursor.faultNext] at h
  | cons b rest =>
    by_cases hstart : startsNumeral b = true
    · rw [hrest] at hd
      obtain ⟨k, hfits, stop, hread, hstop⟩ := readToken_numeral hstart hd c.skipSpace.taken
      have hcursor : c.skipSpace = ⟨b :: rest, c.skipSpace.taken⟩ := by rw [← hrest]
      rw [← readToken_skipSpace, hcursor, hread] at h
      obtain ⟨rfl, rfl⟩ := Prod.mk.inj (Except.ok.inj h)
      exact ⟨trivial, hstop, fun x hx => absurd hx (by simp [Token.bracket?])⟩
    · -- no number: a bracket, a string or a word, and they hold no numbers
      have hpeek : c.skipSpace.peek? = some b := by rw [Cursor.peek?, hrest, List.head?_cons]
      rw [Bool.not_eq_true] at hstart
      have hnumber : (Cursor.digit? b).isSome = false ∧ (b == 0x2D) = false :=
        Bool.or_eq_false_iff.1 hstart
      unfold readToken at h
      dsimp only at h
      rw [hrest] at h
      dsimp only at h
      split at h
      · next hopen =>
        obtain ⟨rfl, rfl⟩ := Prod.mk.inj (Except.ok.inj h)
        exact ⟨trivial, hd, fun x hx => by rw [hpeek, hopen]; exact hx⟩
      split at h
      · next hopen =>
        obtain ⟨rfl, rfl⟩ := Prod.mk.inj (Except.ok.inj h)
        exact ⟨trivial, hd, fun x hx => by rw [hpeek, hopen]; exact hx⟩
      split at h
      · next hquote =>
        obtain ⟨⟨s, stop⟩, hstring, htoken⟩ := exists_of_map_eq_ok h
        obtain ⟨rfl, rfl⟩ := Prod.mk.inj htoken
        refine ⟨trivial, hd.of_eq ?_, fun x hx => absurd hx (by simp [Token.bracket?])⟩
        rw [← numerals_readString hstring, numerals_quote (by rw [hpeek, hquote])]
      next hquote =>
      have hplain : startsNumeral b = false ∧ b ≠ 0x22 := ⟨hstart, hquote⟩
      rw [if_neg (by simpa using hnumber.2), if_neg (by simp [hnumber.1])] at h
      split at h
      · exact takesToken_word hd hpeek hplain h (by decide) trivial rfl
      split at h
      · exact takesToken_word hd hpeek hplain h (by decide) trivial rfl
      split at h
      · exact takesToken_word hd hpeek hplain h (by decide) trivial rfl
      · exact absurd h faultNext_ne_ok

/-! ## Lists and objects -/

/-- Between the items of a list there are no numbers. -/
theorem nextItem?_ok {first : Bool} {c peeked : Cursor} {start? : Option Cursor}
    (h : nextItem? first c = .ok (start?, peeked)) :
    numerals peeked.rest = numerals c.rest ∧
      (start? = none ∧ peeked.peek? = some 0x5D ∨ start? = some peeked) := by
  unfold nextItem? at h
  dsimp only at h
  split at h
  · exact absurd h faultNext_ne_ok
  · next b hb =>
    split at h
    · next hclose =>
      obtain ⟨rfl, rfl⟩ := Prod.mk.inj (Except.ok.inj h)
      exact ⟨numerals_skipSpace c, Or.inl ⟨rfl, by rw [hb, hclose]⟩⟩
    split at h
    · obtain ⟨rfl, rfl⟩ := Prod.mk.inj (Except.ok.inj h)
      exact ⟨numerals_skipSpace c, Or.inr rfl⟩
    split at h
    · next hcomma =>
      split at h
      · exact absurd h faultNext_ne_ok
      · split at h
        · exact absurd h faultNext_ne_ok
        · obtain ⟨rfl, rfl⟩ := Prod.mk.inj (Except.ok.inj h)
          refine ⟨?_, Or.inr rfl⟩
          rw [numerals_skipSpace, numerals_next (hcomma ▸ hb) (by decide) (by decide),
            numerals_skipSpace]
    · exact absurd h faultNext_ne_ok

/-- Between the members of an object there are no numbers. -/
theorem nextName?_ok {first : Bool} {c peeked : Cursor} {start? : Option Cursor}
    (h : nextName? first c = .ok (start?, peeked)) :
    numerals peeked.rest = numerals c.rest ∧
      (start? = none ∧ peeked.peek? = some 0x7D ∨
        start? = some peeked.next ∧ peeked.peek? = some 0x22) := by
  unfold nextName? at h
  dsimp only at h
  split at h
  · exact absurd h faultNext_ne_ok
  · next b hb =>
    split at h
    · next hclose =>
      obtain ⟨rfl, rfl⟩ := Prod.mk.inj (Except.ok.inj h)
      exact ⟨numerals_skipSpace c, Or.inl ⟨rfl, by rw [hb, hclose]⟩⟩
    split at h
    · split at h
      · next hquote =>
        obtain ⟨rfl, rfl⟩ := Prod.mk.inj (Except.ok.inj h)
        exact ⟨numerals_skipSpace c, Or.inr ⟨rfl, by rw [hb, hquote]⟩⟩
      · exact absurd h faultNext_ne_ok
    split at h
    · next hcomma =>
      split at h
      · exact absurd h faultNext_ne_ok
      · next x hx =>
        split at h
        · next hquote =>
          obtain ⟨rfl, rfl⟩ := Prod.mk.inj (Except.ok.inj h)
          refine ⟨?_, Or.inr ⟨rfl, by rw [hx, hquote]⟩⟩
          rw [numerals_skipSpace, numerals_next (hcomma ▸ hb) (by decide) (by decide),
            numerals_skipSpace]
        · split at h <;> exact absurd h faultNext_ne_ok
    · exact absurd h faultNext_ne_ok

/-- Between a name and its value there are no numbers. -/
theorem takeColon_ok {c after : Cursor} (h : takeColon c = .ok after) :
    numerals after.rest = numerals c.rest := by
  unfold takeColon at h
  dsimp only at h
  split at h
  · exact absurd h faultNext_ne_ok
  · next b hb =>
    split at h
    · next hcolon =>
      obtain rfl := Except.ok.inj h
      rw [numerals_next (hcolon ▸ hb) (by decide) (by decide), numerals_skipSpace]
    · exact absurd h faultNext_ne_ok

/-- The bracket that closes a list is no part of a number. -/
theorem HasIntegers.of_nextItem?_none {first : Bool} {c peeked : Cursor} (hc : HasIntegers c.rest)
    (h : nextItem? first c = .ok (none, peeked)) : HasIntegers peeked.next.rest := by
  obtain ⟨hnumerals, ⟨-, hclose⟩ | hstart⟩ := nextItem?_ok h
  · exact hc.of_eq (by rw [numerals_next hclose (by decide) (by decide), hnumerals])
  · exact absurd hstart (by simp)

/-- The bracket that closes an object is no part of a number. -/
theorem HasIntegers.of_nextName?_none {first : Bool} {c peeked : Cursor} (hc : HasIntegers c.rest)
    (h : nextName? first c = .ok (none, peeked)) : HasIntegers peeked.next.rest := by
  obtain ⟨hnumerals, ⟨-, hclose⟩ | ⟨hstart, -⟩⟩ := nextName?_ok h
  · exact hc.of_eq (by rw [numerals_next hclose (by decide) (by decide), hnumerals])
  · exact absurd hstart (by simp)

/-- What holds of all values that are read holds of the items of a list. -/
theorem keepsIntegers_readItems {α : Type} {read : Cursor → Except Fault (α × Cursor)}
    {p : α → Prop} (hread : KeepsIntegers read p) (fuel : Nat) (first : Bool) :
    KeepsIntegers (readItems read fuel first) fun items => ∀ x ∈ items, p x := by
  intro c after items h hc
  refine (readItems_ok_iff.1 h).keeps (fun c => HasIntegers c.rest)
    (fun _ _ _ hnext hc => hc.of_nextItem?_none hnext) ?_ hc
  intro first c start peeked x after hnext hitem hc
  obtain ⟨hnumerals, ⟨hnone, -⟩ | hstart⟩ := nextItem?_ok hnext
  · exact absurd hnone (by simp)
  · obtain rfl := Option.some.inj hstart
    exact hread _ _ _ hitem (hc.of_eq hnumerals)

/-- What holds of all values that are read holds of the members of an object. -/
theorem keepsIntegers_readMembers {α : Type} {read : Cursor → Except Fault (α × Cursor)}
    {p : α → Prop} (hread : KeepsIntegers read p) (fuel : Nat) (first : Bool) :
    KeepsIntegers (readMembers read fuel first) fun members => ∀ m ∈ members, p m.2 := by
  intro c after members h hc
  refine (readMembers_ok_iff.1 h).keeps (fun c => HasIntegers c.rest)
    (fun _ _ _ hnext hc => hc.of_nextName?_none hnext) ?_ hc
  rintro first c start peeked m after hnext ⟨colon, before, hname, hcolon, hvalue⟩ hc
  obtain ⟨hnumerals, ⟨hnone, -⟩ | ⟨hstart, hquote⟩⟩ := nextName?_ok hnext
  · exact absurd hnone (by simp)
  · obtain rfl := Option.some.inj hstart
    have hbefore : HasIntegers before.rest := by
      apply hc.of_eq
      rw [takeColon_ok hcolon, ← numerals_readString hname, ← numerals_quote hquote, hnumerals]
    exact hread _ _ _ hvalue hbefore

/-! ## Members in order -/

/-- What holds of all values holds of those that are kept. -/
theorem forall_sortMembers {α : Type} {p : α → Prop} {members : List (String × α)}
    (h : ∀ m ∈ members, p m.2) : ∀ m ∈ sortMembers members, p m.2 := by
  suffices hfold : ∀ kept : List (String × α), (∀ m ∈ kept, p m.2) →
      ∀ m ∈ members.foldl (fun sorted m => insertMember m.1 m.2 sorted) kept, p m.2 from
    hfold [] fun m hm => absurd hm (by simp)
  induction members with
  | nil => exact fun _ hkept => hkept
  | cons first members ih =>
    obtain ⟨hfirst, hrest⟩ := List.forall_mem_cons.1 h
    intro kept hkept
    refine ih hrest _ fun m hm => ?_
    rcases mem_insertMember hm with rfl | hm
    · exact hfirst
    · exact hkept m hm

/-- Values that are in order stay as they are. -/
theorem sortedItems_of_forall {items : List Json} (h : ∀ item ∈ items, item.sorted = item) :
    sortedItems items = items := by
  induction items with
  | nil => rfl
  | cons item items ih =>
    obtain ⟨hitem, hitems⟩ := List.forall_mem_cons.1 h
    rw [sortedItems, hitem, ih hitems]

theorem sortedMembers_of_forall {members : List (String × Json)}
    (h : ∀ m ∈ members, m.2.sorted = m.2) : sortedMembers members = members := by
  induction members with
  | nil => rfl
  | cons first members ih =>
    obtain ⟨hfirst, hmembers⟩ := List.forall_mem_cons.1 h
    obtain ⟨name, value⟩ := first
    rw [sortedMembers, hfirst, ih hmembers]

/-! ## Values -/

/-- Whether a value is one that is read back as it is: it has no fractions, it is not too deep, and
its members are in order. -/
structure IsSettled (levels : Nat) (j : Json) : Prop where
  fits : Fits levels j
  sorted : j.sorted = j

/-- A value is read off a text whose numbers are integers, if the values inside it are. -/
theorem keepsIntegers_readWith {levels : Nat}
    {inner : Option (Cursor → Except Fault (Json × Cursor))}
    (hinner : ∀ read ∈ inner, ∃ below, levels = below + 1 ∧
      KeepsIntegers read (IsSettled below)) :
    KeepsIntegers (readWith inner) (IsSettled levels) := by
  intro c after j h hc
  unfold readWith at h
  split at h
  · exact absurd h (by simp)
  · next htoken =>
    obtain ⟨rfl, rfl⟩ := Prod.mk.inj (Except.ok.inj h)
    exact ⟨⟨by simp [Fits], rfl⟩, (readToken_ok htoken hc).rest⟩
  · next htoken =>
    obtain ⟨rfl, rfl⟩ := Prod.mk.inj (Except.ok.inj h)
    exact ⟨⟨by simp [Fits], rfl⟩, (readToken_ok htoken hc).rest⟩
  · next x stop htoken =>
    obtain ⟨rfl, rfl⟩ := Prod.mk.inj (Except.ok.inj h)
    have htaken := readToken_ok htoken hc
    cases x with
    | integer k hfits => exact ⟨⟨by simp [Fits], rfl⟩, htaken.rest⟩
    | float x => exact absurd htaken.exact id
  · next htoken =>
    obtain ⟨rfl, rfl⟩ := Prod.mk.inj (Except.ok.inj h)
    exact ⟨⟨by simp [Fits], rfl⟩, (readToken_ok htoken hc).rest⟩
  · next stop htoken =>
    have htaken := readToken_ok htoken hc
    split at h
    · exact absurd h faultNext_ne_ok
    · next read =>
      obtain ⟨below, rfl, hread⟩ := hinner read rfl
      obtain ⟨⟨items, last⟩, hitems, hj⟩ := exists_of_map_eq_ok h
      obtain ⟨rfl, rfl⟩ := Prod.mk.inj hj
      have hnext : HasIntegers stop.next.rest := htaken.rest.of_eq
        (numerals_next (htaken.bracket _ rfl) (by decide) (by decide))
      obtain ⟨hsettled, hlast⟩ := keepsIntegers_readItems hread _ _ _ _ _ hitems hnext
      refine ⟨⟨fun item hitem => (hsettled item hitem).fits, ?_⟩, hlast⟩
      rw [sorted, sortedItems_of_forall fun item hitem => (hsettled item hitem).sorted]
  · next stop htoken =>
    have htaken := readToken_ok htoken hc
    split at h
    · exact absurd h faultNext_ne_ok
    · next read =>
      obtain ⟨below, rfl, hread⟩ := hinner read rfl
      obtain ⟨⟨members, last⟩, hmembers, hj⟩ := exists_of_map_eq_ok h
      obtain ⟨rfl, rfl⟩ := Prod.mk.inj hj
      have hnext : HasIntegers stop.next.rest := htaken.rest.of_eq
        (numerals_next (htaken.bracket _ rfl) (by decide) (by decide))
      obtain ⟨hall, hlast⟩ := keepsIntegers_readMembers hread _ _ _ _ _ hmembers hnext
      -- of the members of one name only the last is kept, and those that are kept are in order
      have hsettled := forall_sortMembers hall
      refine ⟨⟨fun m hm => (hsettled m hm).fits, ?_⟩, hlast⟩
      rw [sorted, sortedMembers_of_forall fun m hm => (hsettled m hm).sorted,
        sortMembers_of_inOrder (inOrder_sortMembers members)]

/-- A value of any depth is read off a text whose numbers are integers. -/
theorem keepsIntegers_readValue (levels : Nat) :
    KeepsIntegers (readValue levels) (IsSettled levels) := by
  induction levels with
  | zero => exact keepsIntegers_readWith fun read hread => absurd hread (by simp)
  | succ levels ih =>
    refine keepsIntegers_readWith fun read hread => ⟨levels, rfl, ?_⟩
    obtain rfl := Option.some.inj hread
    exact ih

/-- The value of a whole text whose numbers are integers is one that is read back as it is. -/
theorem isSettled_of_ofBytes? {text : Bytes} {j : Json} (h : ofBytes? text = .ok j)
    (htext : HasIntegers text) : IsSettled maxLevels j := by
  unfold ofBytes? readWhole at h
  split at h
  · exact absurd h (by simp)
  · next x c hread =>
    dsimp only at h
    split at h
    · obtain rfl := Except.ok.inj h
      exact (keepsIntegers_readValue maxLevels _ _ _ hread htext).1
    · exact absurd h faultNext_ne_ok

/-- The compact form of what is read of a text whose numbers are integers says the same as the
text. -/
theorem ofBytes?_bytes_of_ofBytes? {text : Bytes} {j : Json} (h : ofBytes? text = .ok j)
    (htext : HasIntegers text) : ofBytes? j.bytes = .ok j := by
  have hsettled := isSettled_of_ofBytes? h htext
  rw [ofBytes?_bytes hsettled.fits, hsettled.sorted]

end RegistryConsole.Json
