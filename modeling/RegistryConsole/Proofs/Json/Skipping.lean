import RegistryConsole.Json.Skip
import RegistryConsole.Proofs.Json.Texts

/-! # Passing over any value

The octets of a value are told here by the grammar of JSON texts alone: numbers of any size, strings
with any escapes, and white space wherever it may stand. All of them are passed over, to any depth,
and nothing that follows them is taken. -/

namespace RegistryConsole.Json

/-! ## The grammar -/

/-- Whether octets are white space. -/
def IsSpaces (text : Bytes) : Prop :=
  ∀ b ∈ text, Cursor.isSpace b = true

/-- Whether octets are decimal digits, one at least. -/
def AreDigits (text : Bytes) : Prop :=
  text ≠ [] ∧ ∀ b ∈ text, (Cursor.digit? b).isSome = true

/-- The fraction of a number, which may be missing. -/
inductive IsFraction : Bytes → Prop where
  | missing : IsFraction []
  | digits {digits : Bytes} (h : AreDigits digits) : IsFraction (0x2E :: digits)

/-- The exponent of a number, which may be missing. -/
inductive IsExponent : Bytes → Prop where
  | missing : IsExponent []
  | digits {letter : UInt8} {sign digits : Bytes} (hletter : letter = 0x65 ∨ letter = 0x45)
      (hsign : sign = [] ∨ sign = [0x2B] ∨ sign = [0x2D]) (h : AreDigits digits) :
      IsExponent (letter :: (sign ++ digits))

/-- The octets of a number without its sign. A zero at its start is its only digit before the
point. -/
inductive IsMagnitude : Bytes → Prop where
  | intro {whole fraction exponent : Bytes} (hwhole : AreDigits whole)
      (hzero : whole.head? = some 0x30 → whole = [0x30]) (hfraction : IsFraction fraction)
      (hexponent : IsExponent exponent) : IsMagnitude (whole ++ (fraction ++ exponent))

/-- The octets between the quotes of a string: any but quotes, backslashes and controls stand for
themselves. -/
inductive IsContent : Bytes → Prop where
  | nil : IsContent []
  | plain {b : UInt8} {text : Bytes} (hquote : b ≠ 0x22) (hslash : b ≠ 0x5C)
      (hcontrol : 0x20 ≤ b.toNat) (h : IsContent text) : IsContent (b :: text)
  | escape {b : UInt8} {text : Bytes} (hb : (escapeValue? b).isSome = true) (h : IsContent text) :
      IsContent (0x5C :: b :: text)
  | code {a b c d : UInt8} {text : Bytes} (ha : (hexValue? a).isSome = true)
      (hb : (hexValue? b).isSome = true) (hc : (hexValue? c).isSome = true)
      (hd : (hexValue? d).isSome = true) (h : IsContent text) :
      IsContent (0x5C :: 0x75 :: a :: b :: c :: d :: text)

/-- The octet that opens a list or an object. -/
def Bracket.start : Bracket → UInt8
  | .list => 0x5B
  | .object => 0x7B

/-- What stands before the value of an item or a member. -/
inductive IsLead : Bracket → Bytes → Prop where
  | item {spaces : Bytes} (hspaces : IsSpaces spaces) : IsLead .list spaces
  | member {before name colon after : Bytes} (hbefore : IsSpaces before) (hname : IsContent name)
      (hcolon : IsSpaces colon) (hafter : IsSpaces after) :
      IsLead .object (before ++ 0x22 :: (name ++ 0x22 :: (colon ++ 0x3A :: after)))

mutual

/-- The octets of a value. -/
inductive IsText : Bytes → Prop where
  | null : IsText [0x6E, 0x75, 0x6C, 0x6C]
  | yes : IsText [0x74, 0x72, 0x75, 0x65]
  | no : IsText [0x66, 0x61, 0x6C, 0x73, 0x65]
  | positive {digits : Bytes} (h : IsMagnitude digits) : IsText digits
  | negative {digits : Bytes} (h : IsMagnitude digits) : IsText (0x2D :: digits)
  | string {content : Bytes} (h : IsContent content) : IsText (0x22 :: (content ++ [0x22]))
  | empty (bracket : Bracket) {spaces : Bytes} (h : IsSpaces spaces) :
      IsText (bracket.start :: (spaces ++ [bracket.close]))
  | filled (bracket : Bracket) {parts : Bytes} (h : AreParts bracket parts) :
      IsText (bracket.start :: (parts ++ [bracket.close]))

/-- The octets of the items of a list or the members of an object. -/
inductive AreParts : Bracket → Bytes → Prop where
  | one {bracket : Bracket} {lead text spaces : Bytes} (hlead : IsLead bracket lead)
      (htext : IsText text) (hspaces : IsSpaces spaces) :
      AreParts bracket (lead ++ (text ++ spaces))
  | cons {bracket : Bracket} {lead text spaces parts : Bytes} (hlead : IsLead bracket lead)
      (htext : IsText text) (hspaces : IsSpaces spaces) (hparts : AreParts bracket parts) :
      AreParts bracket (lead ++ (text ++ (spaces ++ 0x2C :: parts)))

end

/-! ## Numbers -/

/-- Whether octets do not start with a digit. -/
def EndsDigits (rest : Bytes) : Prop :=
  ∀ b ∈ rest.head?, Cursor.digit? b = none

theorem endsDigits_cons {b : UInt8} (hb : Cursor.digit? b = none) (rest : Bytes) :
    EndsDigits (b :: rest) := by
  intro x hx
  obtain rfl := Option.some.inj hx
  exact hb

theorem EndsNumber.endsDigits {rest : Bytes} (h : EndsNumber rest) : EndsDigits rest :=
  fun b hb => Option.isNone_iff_eq_none.1 (h b hb).1

theorem IsExponent.endsDigits {exponent rest : Bytes} (h : IsExponent exponent)
    (hrest : EndsNumber rest) : EndsDigits (exponent ++ rest) := by
  cases h with
  | missing => exact hrest.endsDigits
  | digits hletter => exact endsDigits_cons (by rcases hletter with rfl | rfl <;> decide) _

theorem IsFraction.endsDigits {fraction rest : Bytes} (h : IsFraction fraction)
    (hrest : EndsDigits rest) : EndsDigits (fraction ++ rest) := by
  cases h with
  | missing => exact hrest
  | digits => exact endsDigits_cons (by decide) _

theorem EndsDigits.atDigit {rest : Bytes} (h : EndsDigits rest) (n : Nat) :
    Cursor.atDigit ⟨rest, n⟩ = false := by
  cases rest with
  | nil => rfl
  | cons b rest =>
    rw [Cursor.atDigit, Cursor.peek?, List.head?_cons, Option.bind_some, h b rfl]
    rfl

theorem AreDigits.atDigit {digits : Bytes} (h : AreDigits digits) (rest : Bytes) (n : Nat) :
    Cursor.atDigit ⟨digits ++ rest, n⟩ = true := by
  obtain ⟨b, digits, rfl⟩ := List.exists_cons_of_ne_nil h.1
  exact h.2 b List.mem_cons_self

theorem next_cons (b : UInt8) (rest : Bytes) (n : Nat) :
    Cursor.next ⟨b :: rest, n⟩ = ⟨rest, n + 1⟩ := rfl

/-- Digits are passed over. -/
theorem skipDigits_digits {digits : Bytes} (h : ∀ b ∈ digits, (Cursor.digit? b).isSome = true)
    {rest : Bytes} (hrest : EndsDigits rest) (n : Nat) :
    Cursor.skipDigits ⟨digits ++ rest, n⟩ = ⟨rest, n + digits.length⟩ := by
  induction digits generalizing n with
  | nil =>
    cases rest with
    | nil => rfl
    | cons b rest => exact if_neg (by rw [hrest b rfl]; simp)
  | cons b digits ih =>
    obtain ⟨hb, hdigits⟩ := List.forall_mem_cons.1 h
    have hstep : Cursor.skipDigits ⟨b :: (digits ++ rest), n⟩ =
        Cursor.skipDigits ⟨digits ++ rest, n + 1⟩ := if_pos hb
    rw [List.cons_append, hstep, ih hdigits, List.length_cons, Nat.add_assoc, Nat.add_comm 1]

/-- An exponent is passed over from its letter on. -/
theorem skipExponent_digits {sign digits : Bytes}
    (hsign : sign = [] ∨ sign = [0x2B] ∨ sign = [0x2D]) (hdigits : AreDigits digits)
    {rest : Bytes} (hrest : EndsDigits rest) (letter : UInt8) (n : Nat) :
    skipExponent ⟨letter :: (sign ++ (digits ++ rest)), n⟩ =
      .ok ⟨rest, n + 1 + sign.length + digits.length⟩ := by
  have hat := hdigits.atDigit rest (n + 1 + sign.length)
  obtain ⟨b, more, rfl⟩ := List.exists_cons_of_ne_nil hdigits.1
  obtain ⟨hb, hmore⟩ := List.forall_mem_cons.1 hdigits.2
  have hplain : b ≠ 0x2B ∧ b ≠ 0x2D := by
    constructor <;> (rintro rfl; exact absurd hb (by decide))
  -- with or without a sign the digits come next
  have hstart : (let c := Cursor.mk (sign ++ (b :: more ++ rest)) (n + 1)
      if c.peek? = some 0x2B ∨ c.peek? = some 0x2D then c.next else c) =
        ⟨b :: more ++ rest, n + 1 + sign.length⟩ := by
    rcases hsign with rfl | rfl | rfl
    · exact if_neg (by simp [Cursor.peek?, hplain])
    · rfl
    · rfl
  unfold skipExponent
  dsimp only at hstart ⊢
  rw [next_cons, hstart, if_pos hat, List.cons_append, next_cons, skipDigits_digits hmore hrest,
    List.length_cons, Nat.add_assoc (n + 1 + sign.length), Nat.add_comm 1]

/-- An exponent is passed over, or that there is none is seen. -/
theorem skipExponent_exponent {exponent : Bytes} (h : IsExponent exponent) {rest : Bytes}
    (hrest : EndsNumber rest) (n : Nat) :
    (if Cursor.atExponent ⟨exponent ++ rest, n⟩ then skipExponent ⟨exponent ++ rest, n⟩
      else .ok ⟨exponent ++ rest, n⟩) = .ok ⟨rest, n + exponent.length⟩ := by
  cases h with
  | missing =>
    refine if_neg ?_
    cases rest with
    | nil => simp [Cursor.atExponent, Cursor.peek?]
    | cons b rest =>
      obtain ⟨-, -, he, hE⟩ := hrest b rfl
      simp [Cursor.atExponent, Cursor.peek?, he, hE]
  | @digits letter sign digits hletter hsign hdigits =>
    have hat : Cursor.atExponent ⟨letter :: (sign ++ digits) ++ rest, n⟩ = true := by
      rcases hletter with rfl | rfl <;> rfl
    rw [if_pos hat, List.cons_append, List.append_assoc,
      skipExponent_digits hsign hdigits hrest.endsDigits, List.length_cons, List.length_append]
    congr 2
    omega

/-- A point starts a fraction, and nothing else after the first digits does. -/
theorem peek?_exponent_ne {exponent : Bytes} (h : IsExponent exponent) {rest : Bytes}
    (hrest : EndsNumber rest) (n : Nat) : Cursor.peek? ⟨exponent ++ rest, n⟩ ≠ some 0x2E := by
  cases h with
  | missing => exact fun hpeek => (hrest _ hpeek).2.1 rfl
  | digits hletter => rcases hletter with rfl | rfl <;> simp [Cursor.peek?]

/-- A number is passed over from its first digit on. -/
theorem skipNumber_magnitude {text : Bytes} (h : IsMagnitude text) {rest : Bytes}
    (hrest : EndsNumber rest) (n : Nat) :
    skipNumber ⟨text ++ rest, n⟩ = .ok ⟨rest, n + text.length⟩ := by
  cases h with
  | @intro whole fraction exponent hwhole hzero hfraction hexponent =>
    have hexpend := hexponent.endsDigits hrest
    have hend := hfraction.endsDigits hexpend
    -- no digit follows a zero at the start, as it is the only digit before the point
    have hzeros : ¬(Cursor.peek? ⟨whole ++ (fraction ++ (exponent ++ rest)), n⟩ = some 0x30 ∧
        (Cursor.next ⟨whole ++ (fraction ++ (exponent ++ rest)), n⟩).atDigit = true) := by
      rintro ⟨hpeek, hmore⟩
      have hhead : whole.head? = some 0x30 := by
        rw [Cursor.peek?, List.head?_append_of_ne_nil _ hwhole.1] at hpeek
        exact hpeek
      rw [hzero hhead, List.singleton_append, next_cons, hend.atDigit] at hmore
      exact absurd hmore (by simp)
    rw [List.append_assoc, List.append_assoc, skipNumber,
      if_neg (by rw [hwhole.atDigit]; simp), if_neg hzeros, skipDigits_digits hwhole.2 hend]
    dsimp only
    cases hfraction with
    | missing =>
      rw [List.nil_append, if_neg (peek?_exponent_ne hexponent hrest _),
        skipExponent_exponent hexponent hrest]
      simp [Nat.add_assoc]
    | @digits digits hdigits =>
      have hpoint : Cursor.peek? ⟨0x2E :: (digits ++ (exponent ++ rest)), n + whole.length⟩ =
          some 0x2E := rfl
      rw [List.cons_append, if_pos hpoint, next_cons, if_neg (by rw [hdigits.atDigit]; simp),
        skipDigits_digits hdigits.2 hexpend, skipExponent_exponent hexponent hrest]
      simp [Nat.add_assoc, Nat.add_comm 1]

/-! ## Strings -/

/-- The octets of a string are passed over with its closing quote. -/
theorem skipContent_content {content : Bytes} (h : IsContent content) (rest : Bytes) (n : Nat) :
    skipContent false 0 true n (content ++ 0x22 :: rest) = .ok ⟨rest, n + content.length + 1⟩ := by
  induction h generalizing n with
  | nil => rfl
  | @plain b text hquote hslash hcontrol _ ih =>
    rw [List.cons_append, skipContent, if_neg (by decide), if_neg (by decide), if_neg hquote,
      if_neg hslash, if_neg (by omega), ih]
    simp [Nat.add_assoc, Nat.add_comm 1]
  | @escape b text hb _ ih =>
    have hcode : b ≠ 0x75 := by
      rintro rfl
      exact absurd hb (by decide)
    rw [List.cons_append, List.cons_append, skipContent, if_neg (by decide), if_neg (by decide),
      if_neg (by decide), if_pos rfl, skipContent, if_neg (by decide), if_pos rfl, if_neg hcode,
      if_pos hb, ih, List.length_cons, List.length_cons]
    congr 2
    omega
  | @code a b c d text ha hb hc hd _ ih =>
    simp [skipContent, ha, hb, hc, hd, ih]
    omega

/-! ## Scalars -/

/-- Passing over a whole scalar. -/
def SkipsToken (text : Bytes) : Prop :=
  ∀ (rest : Bytes) (n : Nat), EndsNumber rest →
    skipToken ⟨text ++ rest, n⟩ = .ok (none, ⟨rest, n + text.length⟩)

/-- A string is passed over from its opening quote on. -/
theorem skipsToken_string {content : Bytes} (h : IsContent content) :
    SkipsToken (0x22 :: (content ++ [0x22])) := by
  intro rest n _
  rw [List.cons_append, List.append_assoc, List.singleton_append]
  show (skipString ⟨content ++ 0x22 :: rest, n + 1⟩).map (none, ·) = _
  rw [skipString, skipContent_content h]
  simp [Except.map, Nat.add_assoc, Nat.add_comm 1]

/-- A number without a minus sign starts with a digit. -/
theorem IsMagnitude.exists_eq {text : Bytes} (h : IsMagnitude text) :
    ∃ b bs, text = b :: bs ∧ (Cursor.digit? b).isSome = true := by
  cases h with
  | intro hwhole =>
    obtain ⟨b, bs, rfl⟩ := List.exists_cons_of_ne_nil hwhole.1
    exact ⟨b, _, rfl, hwhole.2 b List.mem_cons_self⟩

/-- A digit is nothing else. -/
theorem ne_of_digit {b x : UInt8} (hb : (Cursor.digit? b).isSome = true)
    (hx : Cursor.digit? x = none) : b ≠ x := by
  rintro rfl
  rw [hx] at hb
  exact absurd hb (by simp)

theorem isSpace_of_digit {b : UInt8} (hb : (Cursor.digit? b).isSome = true) :
    Cursor.isSpace b = false := by
  simp [Cursor.isSpace, ne_of_digit hb (x := 0x20) (by decide),
    ne_of_digit hb (x := 0x0A) (by decide), ne_of_digit hb (x := 0x09) (by decide),
    ne_of_digit hb (x := 0x0D) (by decide)]

theorem skipsToken_positive {text : Bytes} (h : IsMagnitude text) : SkipsToken text := by
  intro rest n hrest
  have hnumber := skipNumber_magnitude h hrest n
  obtain ⟨b, bs, rfl, hb⟩ := h.exists_eq
  rw [List.cons_append] at hnumber ⊢
  rw [skipToken, skipSpace_of_not_space (isSpace_of_digit hb)]
  dsimp only
  rw [if_neg (ne_of_digit hb (by decide)), if_neg (ne_of_digit hb (by decide)),
    if_neg (ne_of_digit hb (by decide)), if_neg (ne_of_digit hb (by decide)), if_pos hb, hnumber]
  rfl

theorem skipsToken_negative {text : Bytes} (h : IsMagnitude text) :
    SkipsToken (0x2D :: text) := by
  intro rest n hrest
  show (skipNumber ⟨text ++ rest, n + 1⟩).map (none, ·) = _
  rw [skipNumber_magnitude h hrest]
  simp [Except.map, Nat.add_assoc, Nat.add_comm 1]

/-! ## Lists and objects -/

/-- Goes on where the next item or member of a bracket starts. -/
def skipPart (fuel : Nat) (outer : List Bracket) : Bracket → Cursor → Except Fault Cursor
  | .list, c => skipFrom fuel (.list :: outer) c
  | .object, c =>
    match skipName c with
    | .error f => .error f
    | .ok c => skipFrom fuel (.object :: outer) c

/-- Goes on after a value. -/
def skipAfter (fuel : Nat) (opened : List Bracket) (c : Cursor) : Except Fault Cursor :=
  match closeBrackets opened true c with
  | .error f => .error f
  | .ok ([], c) => .ok c
  | .ok (bracket :: outer, c) => skipPart fuel outer bracket c

/-- A scalar is passed over, and what follows it comes next. -/
theorem skipFrom_scalar {text : Bytes} (h : SkipsToken text) {rest : Bytes}
    (hrest : EndsNumber rest) (fuel : Nat) (opened : List Bracket) (n : Nat) :
    skipFrom (fuel + 1) opened ⟨text ++ rest, n⟩ =
      skipAfter fuel opened ⟨rest, n + text.length⟩ := by
  rw [skipFrom, h rest n hrest]
  dsimp only [Option.toList_none, List.nil_append, Option.isNone_none]
  rw [skipAfter]
  rcases closeBrackets opened true ⟨rest, n + text.length⟩ with _ | ⟨_ | ⟨_ | _, _⟩, _⟩ <;> rfl

/-- A bracket is opened, and what comes after it first is looked at. -/
theorem skipFrom_start (bracket : Bracket) (rest : Bytes) (fuel : Nat) (opened : List Bracket)
    (n : Nat) :
    skipFrom (fuel + 1) opened ⟨bracket.start :: rest, n⟩ =
      match closeBrackets (bracket :: opened) false ⟨rest, n + 1⟩ with
      | .error f => .error f
      | .ok ([], c) => .ok c
      | .ok (bracket :: outer, c) => skipPart fuel outer bracket c := by
  have htoken : skipToken ⟨bracket.start :: rest, n⟩ = .ok (some bracket, ⟨rest, n + 1⟩) := by
    cases bracket <;> rfl
  rw [skipFrom, htoken]
  dsimp only [Option.toList_some, List.singleton_append, Option.isNone_some]
  rcases closeBrackets (bracket :: opened) false ⟨rest, n + 1⟩ with _ | ⟨_ | ⟨_ | _, _⟩, _⟩ <;> rfl

/-- The bracket that closes is no white space and no comma. -/
theorem closeBrackets_close {bracket : Bracket} {spaces : Bytes} (hspaces : IsSpaces spaces)
    (rest : Bytes) (afterValue : Bool) (outer : List Bracket) (n : Nat) :
    closeBrackets (bracket :: outer) afterValue ⟨spaces ++ bracket.close :: rest, n⟩ =
      closeBrackets outer true ⟨rest, n + spaces.length + 1⟩ := by
  have hclose : Cursor.isSpace bracket.close = false ∧ bracket.close ≠ 0x2C := by
    cases bracket <;> decide
  rw [closeBrackets, skipSpace_spaces hspaces, skipSpace_of_not_space hclose.1]
  dsimp only [Cursor.peek?, List.head?_cons]
  rw [if_neg fun h => hclose.2 h.1, if_pos rfl]
  rfl

theorem skipAfter_close {bracket : Bracket} {spaces : Bytes} (hspaces : IsSpaces spaces)
    (rest : Bytes) (fuel : Nat) (outer : List Bracket) (n : Nat) :
    skipAfter fuel (bracket :: outer) ⟨spaces ++ bracket.close :: rest, n⟩ =
      skipAfter fuel outer ⟨rest, n + spaces.length + 1⟩ := by
  rw [skipAfter, closeBrackets_close hspaces, skipAfter]

/-- After a comma the next item or member starts. -/
theorem skipAfter_comma {bracket : Bracket} {spaces : Bytes} (hspaces : IsSpaces spaces)
    (rest : Bytes) (fuel : Nat) (outer : List Bracket) (n : Nat) :
    skipAfter fuel (bracket :: outer) ⟨spaces ++ 0x2C :: rest, n⟩ =
      skipPart fuel outer bracket ⟨rest, n + spaces.length + 1⟩ := by
  rw [skipAfter, closeBrackets, skipSpace_spaces hspaces, skipSpace_of_not_space (by decide)]
  rfl

/-- An empty list or object is a value. -/
theorem skipFrom_empty (bracket : Bracket) {spaces : Bytes} (hspaces : IsSpaces spaces)
    (rest : Bytes) (fuel : Nat) (opened : List Bracket) (n : Nat) :
    skipFrom (fuel + 1) opened ⟨bracket.start :: (spaces ++ bracket.close :: rest), n⟩ =
      skipAfter fuel opened ⟨rest, n + 1 + spaces.length + 1⟩ := by
  rw [skipFrom_start, closeBrackets_close hspaces, skipAfter]

/-! ### Parts -/

/-- White space before a part does not matter. -/
theorem skipFrom_spaces {spaces : Bytes} (hspaces : IsSpaces spaces) (rest : Bytes) (fuel : Nat)
    (opened : List Bracket) (n : Nat) :
    skipFrom (fuel + 1) opened ⟨spaces ++ rest, n⟩ =
      skipFrom (fuel + 1) opened ⟨rest, n + spaces.length⟩ := by
  have htoken : skipToken ⟨spaces ++ rest, n⟩ = skipToken ⟨rest, n + spaces.length⟩ := by
    rw [skipToken, skipSpace_spaces hspaces, skipToken]
  rw [skipFrom, htoken, skipFrom]

theorem skipPart_skipSpace (fuel : Nat) (outer : List Bracket) (bracket : Bracket) (c : Cursor) :
    skipPart (fuel + 1) outer bracket c.skipSpace = skipPart (fuel + 1) outer bracket c := by
  have hskip : c.skipSpace.skipSpace = c.skipSpace := skipSpace_skipFrom c.taken c.rest
  cases bracket with
  | list =>
    have htoken : skipToken c.skipSpace = skipToken c := by rw [skipToken, hskip, skipToken]
    rw [skipPart, skipPart, skipFrom, htoken, skipFrom]
  | object =>
    have hname : skipName c.skipSpace = skipName c := by rw [skipName, hskip, skipName]
    rw [skipPart, skipPart, hname]

/-- A name is passed over with its colon. -/
theorem skipName_member {before name colon : Bytes} (hbefore : IsSpaces before)
    (hname : IsContent name) (hcolon : IsSpaces colon) (rest : Bytes) (n : Nat) :
    skipName ⟨before ++ 0x22 :: (name ++ 0x22 :: (colon ++ 0x3A :: rest)), n⟩ =
      .ok ⟨rest, n + before.length + 1 + name.length + 1 + colon.length + 1⟩ := by
  rw [skipName, skipSpace_spaces hbefore, skipSpace_of_not_space (by decide)]
  dsimp only [Cursor.peek?, List.head?_cons]
  rw [if_neg (by decide), next_cons, skipString, skipContent_content hname]
  dsimp only
  rw [takeColon, skipSpace_spaces hcolon, skipSpace_of_not_space (by decide)]
  rfl

/-- What stands before the value of a part is passed over. -/
theorem skipPart_lead {bracket : Bracket} {lead : Bytes} (h : IsLead bracket lead) (rest : Bytes)
    (fuel : Nat) (outer : List Bracket) (n : Nat) :
    skipPart (fuel + 1) outer bracket ⟨lead ++ rest, n⟩ =
      skipFrom (fuel + 1) (bracket :: outer) ⟨rest, n + lead.length⟩ := by
  cases h with
  | item hspaces => exact skipFrom_spaces hspaces rest fuel _ n
  | @member before name colon after hbefore hname hcolon hafter =>
    simp only [List.append_assoc, List.cons_append]
    rw [skipPart, skipName_member hbefore hname hcolon]
    dsimp only
    rw [skipFrom_spaces hafter]
    simp only [List.length_append, List.length_cons]
    congr 2
    omega

/-- A value starts as one. -/
theorem IsText.startsValue {text : Bytes} (h : IsText text) : StartsValue text := by
  cases h with
  | positive h =>
    obtain ⟨b, bs, rfl, hb⟩ := h.exists_eq
    exact ⟨b, bs, rfl, isSpace_of_digit hb, ne_of_digit hb (by decide)⟩
  | null | yes | no | negative | string => exact ⟨_, _, rfl, by decide, by decide⟩
  | empty bracket | filled bracket =>
    exact ⟨_, _, rfl, by cases bracket <;> decide, by cases bracket <;> decide⟩

/-- The first octet of a part that is no white space does not close the bracket. -/
theorem IsLead.exists_eq {bracket : Bracket} {lead text : Bytes} (h : IsLead bracket lead)
    (htext : StartsValue text) :
    ∃ spaces b bs, lead ++ text = spaces ++ b :: bs ∧ IsSpaces spaces ∧
      Cursor.isSpace b = false ∧ b ≠ bracket.close := by
  cases h with
  | item hspaces =>
    obtain ⟨b, bs, rfl, hspace, hclose⟩ := htext
    exact ⟨lead, b, bs, rfl, hspaces, hspace, hclose⟩
  | member hbefore => exact ⟨_, 0x22, _, List.append_assoc _ _ _, hbefore, by decide, by decide⟩

/-- A bracket with something in it stays open. -/
theorem closeBrackets_lead {bracket : Bracket} {lead text : Bytes} (h : IsLead bracket lead)
    (htext : StartsValue text) (rest : Bytes) (outer : List Bracket) (n : Nat) :
    closeBrackets (bracket :: outer) false ⟨lead ++ (text ++ rest), n⟩ =
      .ok (bracket :: outer, Cursor.skipSpace ⟨lead ++ (text ++ rest), n⟩) := by
  obtain ⟨spaces, b, bs, heq, hspaces, hspace, hclose⟩ := h.exists_eq htext
  rw [← List.append_assoc, heq, List.append_assoc, List.cons_append, closeBrackets,
    skipSpace_spaces hspaces, skipSpace_of_not_space hspace]
  dsimp only [Cursor.peek?, List.head?_cons]
  rw [if_neg (by simp), if_neg hclose]
  rfl

theorem AreParts.closeBrackets {bracket : Bracket} {parts : Bytes} (h : AreParts bracket parts)
    (rest : Bytes) (outer : List Bracket) (n : Nat) :
    closeBrackets (bracket :: outer) false ⟨parts ++ rest, n⟩ =
      .ok (bracket :: outer, Cursor.skipSpace ⟨parts ++ rest, n⟩) := by
  cases h with
  | one hlead htext =>
    rw [List.append_assoc, List.append_assoc]
    exact closeBrackets_lead hlead htext.startsValue _ outer n
  | cons hlead htext =>
    rw [List.append_assoc, List.append_assoc]
    exact closeBrackets_lead hlead htext.startsValue _ outer n

/-- The parts of a list or an object are gone through from its bracket on. -/
theorem skipFrom_filled {bracket : Bracket} {parts : Bytes} (h : AreParts bracket parts)
    (rest : Bytes) (fuel : Nat) (opened : List Bracket) (n : Nat) :
    skipFrom (fuel + 2) opened ⟨bracket.start :: (parts ++ rest), n⟩ =
      skipPart (fuel + 1) opened bracket ⟨parts ++ rest, n + 1⟩ := by
  rw [skipFrom_start, h.closeBrackets]
  exact skipPart_skipSpace fuel opened bracket _

/-! ## Values -/

/-- White space, a comma and the brackets that close end a number. -/
theorem endsNumber_spaces {spaces : Bytes} (hspaces : IsSpaces spaces) {rest : Bytes}
    (hrest : EndsNumber rest) : EndsNumber (spaces ++ rest) := by
  cases spaces with
  | nil => exact hrest
  | cons b spaces =>
    intro x hx
    have hb := hspaces x (List.mem_cons.2 (Or.inl (Option.some.inj hx).symm))
    simp only [Cursor.isSpace, Bool.or_eq_true, beq_iff_eq] at hb
    rcases hb with ((rfl | rfl) | rfl) | rfl <;> decide

theorem endsNumber_close (bracket : Bracket) (rest : Bytes) :
    EndsNumber (bracket.close :: rest) :=
  endsNumber_cons (by cases bracket <;> decide) rest

/-- Whether octets are passed over as a value, in fewer rounds than there are octets. -/
def Skips (text : Bytes) : Prop :=
  ∃ used, used < text.length ∧ ∀ (fuel : Nat) (opened : List Bracket) (rest : Bytes) (n : Nat),
    EndsNumber rest → skipFrom (fuel + used + 1) opened ⟨text ++ rest, n⟩ =
      skipAfter fuel opened ⟨rest, n + text.length⟩

/-- Whether octets are passed over as the parts of a list or an object, together with the bracket
that closes it. -/
def SkipsParts (bracket : Bracket) (parts : Bytes) : Prop :=
  ∃ used, used < parts.length ∧ ∀ (fuel : Nat) (outer : List Bracket) (rest : Bytes) (n : Nat),
    skipPart (fuel + used + 1) outer bracket ⟨parts ++ bracket.close :: rest, n⟩ =
      skipAfter fuel outer ⟨rest, n + parts.length + 1⟩

theorem SkipsToken.skips {text : Bytes} (h : SkipsToken text) (hne : text ≠ []) : Skips text :=
  ⟨0, List.length_pos_iff.2 hne, fun fuel opened _ n hrest =>
    skipFrom_scalar h hrest fuel opened n⟩

theorem skips_empty (bracket : Bracket) {spaces : Bytes} (h : IsSpaces spaces) :
    Skips (bracket.start :: (spaces ++ [bracket.close])) := by
  refine ⟨0, by simp, fun fuel opened rest n _ => ?_⟩
  rw [List.cons_append, List.append_assoc, List.singleton_append, Nat.add_zero,
    skipFrom_empty bracket h, List.length_cons, List.length_append, List.length_singleton]
  congr 2
  omega

theorem SkipsParts.skips {bracket : Bracket} {parts : Bytes} (h : SkipsParts bracket parts)
    (hparts : AreParts bracket parts) : Skips (bracket.start :: (parts ++ [bracket.close])) := by
  obtain ⟨used, hused, hskip⟩ := h
  refine ⟨used + 1, by simp; omega, fun fuel opened rest n _ => ?_⟩
  rw [List.cons_append, List.append_assoc, List.singleton_append, ← Nat.add_assoc fuel,
    skipFrom_filled hparts, hskip, List.length_cons, List.length_append, List.length_singleton]
  congr 2
  omega

/-- The last part ends where the bracket closes. -/
theorem skipsParts_one {bracket : Bracket} {lead text spaces : Bytes} (hlead : IsLead bracket lead)
    (htext : Skips text) (hspaces : IsSpaces spaces) :
    SkipsParts bracket (lead ++ (text ++ spaces)) := by
  obtain ⟨used, hused, hskip⟩ := htext
  refine ⟨used, by simp; omega, fun fuel outer rest n => ?_⟩
  have hend := endsNumber_spaces hspaces (endsNumber_close bracket rest)
  rw [List.append_assoc, List.append_assoc, skipPart_lead hlead, hskip _ _ _ _ hend,
    skipAfter_close hspaces, List.length_append, List.length_append]
  congr 2
  omega

/-- Every other part ends at a comma. -/
theorem skipsParts_cons {bracket : Bracket} {lead text spaces parts : Bytes}
    (hlead : IsLead bracket lead) (htext : Skips text) (hspaces : IsSpaces spaces)
    (hparts : SkipsParts bracket parts) :
    SkipsParts bracket (lead ++ (text ++ (spaces ++ 0x2C :: parts))) := by
  obtain ⟨used, hused, hskip⟩ := htext
  obtain ⟨more, hmore, hothers⟩ := hparts
  -- what this part leaves of the rounds is enough for those after it
  refine ⟨more + 1 + used, by simp; omega, fun fuel outer rest n => ?_⟩
  have hend : EndsNumber (spaces ++ 0x2C :: (parts ++ bracket.close :: rest)) :=
    endsNumber_spaces hspaces (endsNumber_cons (Or.inl rfl) _)
  rw [List.append_assoc, List.append_assoc, List.append_assoc, List.cons_append,
    skipPart_lead hlead, ← Nat.add_assoc fuel, hskip _ _ _ _ hend, skipAfter_comma hspaces,
    ← Nat.add_assoc fuel, hothers, List.length_append, List.length_append, List.length_append,
    List.length_cons]
  congr 2
  omega

/-- Every value is passed over. The induction is on the grammar of values and of their parts at
once. -/
theorem IsText.skips {text : Bytes} (h : IsText text) : Skips text := by
  refine @IsText.rec (fun text _ => Skips text) (fun bracket parts _ => SkipsParts bracket parts)
    ?null ?yes ?no ?positive ?negative ?string ?empty ?filled ?one ?cons text h
  case null | yes | no => exact SkipsToken.skips (fun _ _ _ => rfl) (List.cons_ne_nil _ _)
  case positive =>
    intro digits h
    obtain ⟨b, bs, hne, -⟩ := h.exists_eq
    exact (skipsToken_positive h).skips (by rw [hne]; exact List.cons_ne_nil _ _)
  case negative => exact fun h => (skipsToken_negative h).skips (List.cons_ne_nil _ _)
  case string => exact fun h => (skipsToken_string h).skips (List.cons_ne_nil _ _)
  case empty => exact fun bracket _ h => skips_empty bracket h
  case filled => exact fun _ _ hparts ih => ih.skips hparts
  case one => exact fun hlead _ hspaces ih => skipsParts_one hlead ih hspaces
  case cons => exact fun hlead _ hspaces _ ih ihparts => skipsParts_cons hlead ih hspaces ihparts

/-- Any value is passed over, whatever follows it. -/
theorem IsText.skipValue {text : Bytes} (h : IsText text) {rest : Bytes} (hrest : EndsNumber rest)
    (n : Nat) : skipValue ⟨text ++ rest, n⟩ = .ok ⟨rest, n + text.length⟩ := by
  obtain ⟨used, hused, hskip⟩ := h.skips
  -- there is a round for each octet, which is more than the value takes
  have hfuel : (text ++ rest).length + 1 = (text ++ rest).length - used + used + 1 := by
    rw [List.length_append]
    omega
  rw [Json.skipValue, hfuel, hskip _ _ _ _ hrest]
  rfl

end RegistryConsole.Json
