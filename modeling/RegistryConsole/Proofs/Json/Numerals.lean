import RegistryConsole.Proofs.Json.RoundTrip

/-! # The numbers of a text

Which numbers a text holds can be told without reading its values: they are the runs of octets that
start with a digit or a minus sign, outside of strings. If all of them are integers of 64 bits, then
so are the numbers of the value that is read. -/

namespace RegistryConsole.Json

/-! ## Where the numbers are -/

/-- What the octets before an octet make of it. -/
inductive Scan where
  /-- It stands outside of strings and numbers. -/
  | outside
  /-- It stands inside a string. -/
  | inString
  /-- It stands after a backslash. -/
  | escaped
  /-- It stands after the octets of a number, last first. -/
  | numeral (known : Bytes)

/-- Whether an octet starts a number. -/
def startsNumeral (b : UInt8) : Bool :=
  (Cursor.digit? b).isSome || b == 0x2D

/-- Whether an octet may stand inside a number: digits, signs, the point and the exponent's
letter. -/
def inNumeral (b : UInt8) : Bool :=
  startsNumeral b || b == 0x2B || b == 0x2E || b == 0x65 || b == 0x45

/-- The numbers of a text, as they are written. -/
def numeralsFrom : Scan → Bytes → List Bytes
  | .numeral known, [] => [known.reverse]
  | _, [] => []
  | .outside, b :: rest =>
    if b = 0x22 then numeralsFrom .inString rest
    else if startsNumeral b then numeralsFrom (.numeral [b]) rest
    else numeralsFrom .outside rest
  | .inString, b :: rest =>
    if b = 0x22 then numeralsFrom .outside rest
    else if b = 0x5C then numeralsFrom .escaped rest
    else numeralsFrom .inString rest
  | .escaped, _ :: rest => numeralsFrom .inString rest
  | .numeral known, b :: rest =>
    if inNumeral b then numeralsFrom (.numeral (b :: known)) rest
    else known.reverse ::
      (if b = 0x22 then numeralsFrom .inString rest else numeralsFrom .outside rest)

/-- The numbers of a text, as they are written. -/
def numerals (text : Bytes) : List Bytes :=
  numeralsFrom .outside text

/-- Whether a number is written as an integer that fits 64 bits, with or without a sign. Zero has no
sign. -/
def IsInteger (numeral : Bytes) : Prop :=
  ∃ k : Int, (-0x8000000000000000 ≤ k ∧ k < 0x10000000000000000) ∧
    numeral = Utf8.ofString (toString k)

/-- Whether all numbers of a text are such integers. -/
def HasIntegers (text : Bytes) : Prop :=
  ∀ numeral ∈ numerals text, IsInteger numeral

/-- A text with an integer in a list, next to a string that only looks like a number. -/
example : numerals (Utf8.ofString "[-12, \"3\\\"4\", true, 5.0e+1]") =
    [Utf8.ofString "-12", Utf8.ofString "5.0e+1"] := by
  decide

/-- Integers are written as they are. -/
theorem integerText_eq (k : Int) : Number.integerText k = (toString k).toList := by
  cases k with
  | ofNat m =>
    have hpos : ¬Int.ofNat m < 0 := Int.not_lt.2 (Int.natCast_nonneg m)
    rw [Number.integerText, if_neg hpos]
    show Nat.toDigits 10 m = (Nat.repr m).toList
    rw [Nat.repr, String.toList_ofList]
  | negSucc m =>
    rw [Number.integerText, if_pos (Int.negSucc_lt_zero m)]
    show '-' :: Nat.toDigits 10 (m + 1) = ("-" ++ Nat.repr (m + 1)).toList
    rw [String.toList_append, Nat.repr, String.toList_ofList, String.toList_ofList]
    rfl

/-- A number goes on as long as it may. -/
theorem numeralsFrom_numeral (known text : Bytes) :
    numeralsFrom (.numeral known) text =
      (known.reverse ++ text.takeWhile inNumeral) :: numerals (text.dropWhile inNumeral) := by
  induction text generalizing known with
  | nil => simp [numeralsFrom, numerals]
  | cons b rest ih =>
    by_cases hb : inNumeral b = true
    · rw [numeralsFrom, if_pos hb, ih, List.takeWhile_cons_of_pos hb,
        List.dropWhile_cons_of_pos hb, List.reverse_cons, List.append_assoc]
      rfl
    · have hstart : startsNumeral b = false := by
        rw [inNumeral] at hb
        simp only [Bool.or_eq_true, not_or] at hb
        simpa using hb.1.1.1.1
      rw [numeralsFrom, if_neg hb, List.takeWhile_cons_of_neg hb, List.dropWhile_cons_of_neg hb,
        List.append_nil, numerals]
      show _ = _ :: if b = 0x22 then _ else if startsNumeral b = true then _ else _
      rw [hstart]
      rfl

/-- A number at the start of a text comes first. -/
theorem numerals_cons_of_starts {b : UInt8} (hb : startsNumeral b = true) (rest : Bytes) :
    numerals (b :: rest) =
      (b :: rest.takeWhile inNumeral) :: numerals (rest.dropWhile inNumeral) := by
  have hquote : b ≠ 0x22 := by
    rintro rfl
    exact absurd hb (by decide)
  rw [numerals, numeralsFrom, if_neg hquote, if_pos hb, numeralsFrom_numeral]
  rfl

/-- Other octets outside of strings hold no numbers. -/
theorem numerals_cons_of_not {b : UInt8} (hb : startsNumeral b = false) (hquote : b ≠ 0x22)
    (rest : Bytes) : numerals (b :: rest) = numerals rest := by
  rw [numerals, numeralsFrom, if_neg hquote, hb]
  rfl

/-! ## White space, words and strings -/

/-- White space holds no numbers. -/
theorem numerals_skipFrom (n : Nat) (text : Bytes) :
    numerals (Cursor.skipFrom n text).rest = numerals text := by
  induction text generalizing n with
  | nil => rfl
  | cons b rest ih =>
    rw [Cursor.skipFrom]
    split
    · next hb =>
      have hspace : startsNumeral b = false ∧ b ≠ 0x22 := by
        simp only [Cursor.isSpace, Bool.or_eq_true, beq_iff_eq] at hb
        rcases hb with ((rfl | rfl) | rfl) | rfl <;> decide
      rw [ih, numerals_cons_of_not hspace.1 hspace.2]
    · rfl

@[simp] theorem numerals_skipSpace (c : Cursor) : numerals c.skipSpace.rest = numerals c.rest :=
  numerals_skipFrom c.taken c.rest

/-- Octets that are taken outside of strings hold no numbers, unless they start one. -/
theorem numerals_next {c : Cursor} {b : UInt8} (hc : c.peek? = some b)
    (hb : startsNumeral b = false) (hquote : b ≠ 0x22) :
    numerals c.next.rest = numerals c.rest := by
  obtain ⟨rest, n⟩ := c
  cases rest with
  | nil => exact absurd hc (by simp [Cursor.peek?])
  | cons x rest =>
    obtain rfl : x = b := Option.some.inj hc
    exact (numerals_cons_of_not hb hquote rest).symm

/-- A quote that is taken outside of strings opens one. -/
theorem numerals_quote {c : Cursor} (hc : c.peek? = some 0x22) :
    numerals c.rest = numeralsFrom .inString c.next.rest := by
  obtain ⟨rest, n⟩ := c
  cases rest with
  | nil => exact absurd hc (by simp [Cursor.peek?])
  | cons x rest =>
    obtain rfl : x = 0x22 := Option.some.inj hc
    rfl

/-- Words hold no numbers. -/
theorem numerals_takeWord {letters : Bytes} {c after : Cursor}
    (hletters : ∀ b ∈ letters, startsNumeral b = false ∧ b ≠ 0x22)
    (h : c.takeWord letters = .ok after) : numerals after.rest = numerals c.rest := by
  induction letters generalizing c with
  | nil =>
    obtain rfl := Except.ok.inj h
    rfl
  | cons x letters ih =>
    rw [Cursor.takeWord] at h
    split at h
    · exact absurd h (by simp [Cursor.fault])
    · next y rest hrest =>
      split at h
      · next hxy =>
        subst hxy
        obtain ⟨hx, hquote⟩ := hletters x List.mem_cons_self
        have hpeek : c.peek? = some x := by rw [Cursor.peek?, hrest, List.head?_cons]
        rw [ih (fun b hb => hletters b (List.mem_cons_of_mem x hb)) h,
          numerals_next hpeek hx hquote]
      · exact absurd h (by simp [Cursor.fault])

/-- What a reader of strings has left open, as far as it matters for numbers. -/
def StringState.scan : StringState → Scan
  | .escape => .escaped
  | .halfEscape _ => .escaped
  | _ => .inString

/-- An escape with a wrong digit makes no string. -/
theorem readContent_wrongDigits (high : Option Nat) (owed : Nat) (known : Bytes) (n : Nat)
    (text : Bytes) (content : Bytes) (after : Cursor) :
    readContent (.digits high owed none) known n text ≠ .ok (content, after) := by
  induction text generalizing owed known n with
  | nil => simp [readContent]
  | cons b rest ih =>
    rw [readContent, stringStep]
    dsimp only [Option.bind_none]
    by_cases howed : 1 < owed
    · rw [if_pos howed]
      exact ih _ _ _
    · rw [if_neg howed]
      simp

/-- A digit in base 16 neither ends a string nor starts an escape. -/
theorem ne_of_hexValue? {b : UInt8} {d : Nat} (h : hexValue? b = some d) : b ≠ 0x22 ∧ b ≠ 0x5C := by
  constructor
  · rintro rfl
    exact absurd h (by simp [hexValue?])
  · rintro rfl
    exact absurd h (by simp [hexValue?])

/-- The last digit of an escape is wrong, or leaves the scan inside the string. -/
theorem finishDigits_cases (high : Option Nat) (n : Nat) :
    (∃ cause, finishDigits high n = .wrong cause) ∨
      ∃ next added, finishDigits high n = .go next added ∧ next.scan = .inString := by
  unfold finishDigits
  split
  · split
    · exact Or.inl ⟨_, rfl⟩
    · split <;> exact Or.inr ⟨_, _, rfl, rfl⟩
  · split
    · exact Or.inl ⟨_, rfl⟩
    · exact Or.inr ⟨_, _, rfl, rfl⟩

/-- An octet of a string leaves the scan inside the string, unless an escape has a wrong digit. -/
theorem scan_of_go {state next : StringState} {b : UInt8} {added : Bytes}
    (h : stringStep state b = .go next added) (hdigits : ∀ high owed, next ≠ .digits high owed none)
    (rest : Bytes) : numeralsFrom state.scan (b :: rest) = numeralsFrom next.scan rest := by
  have hinside : b ≠ 0x22 → b ≠ 0x5C →
      numeralsFrom .inString (b :: rest) = numeralsFrom .inString rest := by
    intro hquote hslash
    rw [numeralsFrom, if_neg hquote, if_neg hslash]
  cases state with
  | plain =>
    rw [stringStep] at h
    split at h
    · exact absurd h (by simp)
    · next hquote =>
      split at h
      · next hslash =>
        obtain ⟨rfl, -⟩ := StringStep.go.inj h
        subst hslash
        rfl
      · next hslash =>
        split at h
        · exact absurd h (by simp)
        · obtain ⟨rfl, -⟩ := StringStep.go.inj h
          exact hinside hquote hslash
  | escape =>
    rw [stringStep] at h
    split at h
    · obtain ⟨rfl, -⟩ := StringStep.go.inj h
      rfl
    · split at h
      · obtain ⟨rfl, -⟩ := StringStep.go.inj h
        rfl
      · exact absurd h (by simp)
  | digits high owed value =>
    rw [stringStep] at h
    cases hvalue : value.bind fun v => (hexValue? b).map fun d => v * 16 + d with
    | none =>
      rw [hvalue] at h
      split at h
      · exact absurd (StringStep.go.inj h).1.symm (hdigits _ _)
      · exact absurd h (by simp)
    | some n =>
      obtain ⟨v, -, hd⟩ := Option.bind_eq_some_iff.1 hvalue
      obtain ⟨d, hd, -⟩ := Option.map_eq_some_iff.1 hd
      obtain ⟨hquote, hslash⟩ := ne_of_hexValue? hd
      rw [hvalue] at h
      split at h
      · obtain ⟨rfl, -⟩ := StringStep.go.inj h
        exact hinside hquote hslash
      · rcases finishDigits_cases high n with ⟨cause, hwrong⟩ | ⟨next', added', hgo, hscan⟩
        · exact absurd (hwrong.symm.trans h) (by simp)
        · obtain ⟨rfl, -⟩ := StringStep.go.inj (hgo.symm.trans h)
          rw [hscan]
          exact hinside hquote hslash
  | half high =>
    rw [stringStep] at h
    split at h
    · next hslash =>
      obtain ⟨rfl, -⟩ := StringStep.go.inj h
      subst hslash
      rfl
    · exact absurd h (by simp)
  | halfEscape high =>
    rw [stringStep] at h
    split at h
    · obtain ⟨rfl, -⟩ := StringStep.go.inj h
      rfl
    · exact absurd h (by simp)

/-- Only a quote between two characters ends a string. -/
theorem eq_of_done {state : StringState} {b : UInt8} (h : stringStep state b = .done) :
    state = .plain ∧ b = 0x22 := by
  cases state with
  | plain =>
    by_cases hquote : b = 0x22
    · exact ⟨rfl, hquote⟩
    · grind [stringStep]
  | escape => grind [stringStep]
  | digits high owed value =>
    rw [stringStep] at h
    split at h
    · exact absurd h (by simp)
    · split at h
      · exact absurd h (by simp)
      · next n _ =>
        rcases finishDigits_cases high n with ⟨cause, hwrong⟩ | ⟨next, added, hgo, -⟩
        · exact absurd (hwrong.symm.trans h) (by simp)
        · exact absurd (hgo.symm.trans h) (by simp)
  | half high => grind [stringStep]
  | halfEscape high => grind [stringStep]

/-- Strings hold no numbers. -/
theorem numeralsFrom_readContent {state : StringState} {known text content : Bytes} {n : Nat}
    {after : Cursor} (h : readContent state known n text = .ok (content, after)) :
    numeralsFrom state.scan text = numerals after.rest := by
  induction text generalizing state known n with
  | nil => exact absurd h (by simp [readContent])
  | cons b rest ih =>
    rw [readContent] at h
    split at h
    · next next added hstep =>
      rw [scan_of_go hstep ?_ rest, ih h]
      rintro high owed rfl
      exact readContent_wrongDigits _ _ _ _ _ _ _ h
    · next hstep =>
      obtain ⟨rfl, rfl⟩ := eq_of_done hstep
      obtain ⟨-, rfl⟩ := Prod.mk.inj (Except.ok.inj h)
      rfl
    · exact absurd h (by simp)

theorem numerals_readString {c after : Cursor} {s : String} (h : readString c = .ok (s, after)) :
    numeralsFrom .inString c.rest = numerals after.rest := by
  unfold readString at h
  split at h
  · exact absurd h (by simp)
  · next content stop hcontent =>
    split at h
    · obtain ⟨-, rfl⟩ := Prod.mk.inj (Except.ok.inj h)
      exact numeralsFrom_readContent hcontent
    · exact absurd h (by simp)

end RegistryConsole.Json
