import RegistryConsole.Proofs.Json.Decimals
import RegistryConsole.Proofs.Json.Reads

/-! # Texts and their places

A text is read here as it is written: numbers with all their digits, and the members of an object in
their order, even those of one name. Whatever is read as a value is read so too, and the numbers of
the value stand at the places of those of the text. A member that is followed by another one of its
name has no place. -/

namespace RegistryConsole.Json

/-- A text, as it is written. -/
inductive Document where
  | null
  | bool (b : Bool)
  | numeral (n : Numeral)
  | string (s : String)
  | array (items : List Document)
  | object (members : List (String × Document))

/-- A step from a value to one that is inside it. -/
inductive Step where
  | item (index : Nat)
  | member (name : String)
  deriving DecidableEq

/-- The member of a name: the last one. -/
def lastMember? {α : Type} (name : String) (members : List (String × α)) : Option α :=
  (members.reverse.find? fun m => m.1 == name).map (·.2)

namespace Document

/-- What a step leads to. -/
def inside? : Document → Step → Option Document
  | .array items, .item index => items[index]?
  | .object members, .member name => lastMember? name members
  | _, _ => none

/-- What stands at a place. -/
def at? (d : Document) : List Step → Option Document
  | [] => some d
  | step :: place => (d.inside? step).bind fun inner => inner.at? place

/-- Whether a number is written somewhere in a text. -/
inductive Writes (n : Numeral) : Document → Prop
  | here : Writes n (.numeral n)
  | item {items : List Document} {d : Document} (hd : d ∈ items) (h : Writes n d) :
      Writes n (.array items)
  | member {members : List (String × Document)} {m : String × Document} (hm : m ∈ members)
      (h : Writes n m.2) : Writes n (.object members)

/-- Whether a number is written in a member of an object that has another one of that name after
it. -/
inductive Replaces (n : Numeral) : Document → Prop
  | here {members : List (String × Document)} {m : String × Document} (hm : m ∈ members)
      (hlast : lastMember? m.1 members ≠ some m.2) (h : Writes n m.2) : Replaces n (.object members)
  | item {items : List Document} {d : Document} (hd : d ∈ items) (h : Replaces n d) :
      Replaces n (.array items)
  | member {members : List (String × Document)} {m : String × Document} (hm : m ∈ members)
      (h : Replaces n m.2) : Replaces n (.object members)

/-- Every number that is written has a place, unless it is in a member that is replaced. -/
theorem Writes.exists_place {n : Numeral} {d : Document} (h : d.Writes n) :
    (∃ place, d.at? place = some (.numeral n)) ∨ d.Replaces n := by
  induction h with
  | here => exact Or.inl ⟨[], rfl⟩
  | @item items d hd _ ih =>
    rcases ih with ⟨place, hplace⟩ | hreplaces
    · obtain ⟨i, hi⟩ := List.getElem?_of_mem hd
      have hinside : inside? (.array items) (.item i) = some d := hi
      exact Or.inl ⟨.item i :: place, by rw [at?, hinside, Option.bind_some, hplace]⟩
    · exact Or.inr (.item hd hreplaces)
  | @member members m hm hwrites ih =>
    by_cases hlast : lastMember? m.1 members = some m.2
    · rcases ih with ⟨place, hplace⟩ | hreplaces
      · have hinside : inside? (.object members) (.member m.1) = some m.2 := hlast
        exact Or.inl ⟨.member m.1 :: place, by rw [at?, hinside, Option.bind_some, hplace]⟩
      · exact Or.inr (.member hm hreplaces)
    · exact Or.inr (.here hm hlast hwrites)

end Document

/-- What a step leads to in a value. -/
def inside? : Json → Step → Option Json
  | .array items, .item index => items[index]?
  | .object members, .member name => lastMember? name members
  | _, _ => none

/-- What stands at a place of a value. -/
def at? (j : Json) : List Step → Option Json
  | [] => some j
  | step :: place => (j.inside? step).bind fun inner => inner.at? place

/-! ## Reading a text as it is written -/

namespace Document

/-- Reads a text as it is written; `inner` reads what is inside it, if it may be there. -/
def readWith (inner : Option (Cursor → Except Fault (Document × Cursor))) (c : Cursor) :
    Except Fault (Document × Cursor) :=
  if c.skipSpace.peek?.any startsNumeral then
    let (n, c) := Numeral.read c.skipSpace
    .ok (.numeral n, c)
  else match readToken c with
    | .error f => .error f
    | .ok (.null, c) => .ok (.null, c)
    | .ok (.bool b, c) => .ok (.bool b, c)
    | .ok (.number _, c) => c.faultNext .expectedValue
    | .ok (.string s, c) => .ok (.string s, c)
    | .ok (.openList, c) =>
      match inner with
      | none => c.faultNext .tooDeep
      | some read =>
        (readItems read (c.rest.length + 1) true c.next).map fun (items, c) => (.array items, c)
    | .ok (.openObject, c) =>
      match inner with
      | none => c.faultNext .tooDeep
      | some read =>
        (readMembers read (c.rest.length + 1) true c.next).map fun (members, c) =>
          (.object members, c)

/-- Reads a text in which lists and objects nest at most `levels` deep. -/
def readValue : (levels : Nat) → Cursor → Except Fault (Document × Cursor)
  | 0, c => readWith none c
  | levels + 1, c => readWith (some (readValue levels)) c

/-- A whole text, as it is written. -/
def ofBytes? (text : Bytes) : Except Fault Document :=
  readWhole (readValue maxLevels) text

end Document

/-! ## Two readers -/

variable {α β : Type}

/-- Whether whatever is read by one reader is read by another one too, up to the same place, and is
related. -/
def Follows (read : Cursor → Except Fault (α × Cursor))
    (other : Cursor → Except Fault (β × Cursor)) (r : α → β → Prop) : Prop :=
  ∀ c after x, read c = .ok (x, after) → ∃ y, other c = .ok (y, after) ∧ r x y

variable {read : Cursor → Except Fault (α × Cursor)} {other : Cursor → Except Fault (β × Cursor)}
  {r : α → β → Prop}

theorem Follows.of_readWhole (h : Follows read other r) {text : Bytes} {x : α}
    (hread : readWhole read text = .ok x) : ∃ y, readWhole other text = .ok y ∧ r x y := by
  unfold readWhole at hread
  split at hread
  · exact absurd hread (by simp)
  · next x' c hx =>
    obtain ⟨y, hy, hr⟩ := h _ _ _ hx
    dsimp only at hread
    split at hread
    · next hend =>
      obtain rfl := Except.ok.inj hread
      refine ⟨y, ?_, hr⟩
      rw [readWhole, hy]
      exact if_pos hend
    · exact absurd hread faultNext_ne_ok

theorem Follows.readItems (h : Follows read other r) (fuel : Nat) (first : Bool) :
    Follows (readItems read fuel first) (readItems other fuel first) (List.Forall₂ r) := by
  intro c after items hread
  have hstep : ∀ start x after, TakesItem read start x after →
      ∃ y, TakesItem other start y after ∧ r x y := fun start x after hx => h start after x hx
  obtain ⟨ys, hys, hrs⟩ := (readItems_ok_iff.1 hread).follows hstep
  exact ⟨ys, readItems_ok_iff.2 hys, hrs⟩

theorem Follows.readMembers (h : Follows read other r) (fuel : Nat) (first : Bool) :
    Follows (readMembers read fuel first) (readMembers other fuel first)
      (List.Forall₂ fun m n => m.1 = n.1 ∧ r m.2 n.2) := by
  intro c after members hread
  have hstep : ∀ start m after, TakesMember read start m after →
      ∃ n, TakesMember other start n after ∧ m.1 = n.1 ∧ r m.2 n.2 := by
    rintro start ⟨name, x⟩ after ⟨colon, before, hname, hcolon, hvalue⟩
    obtain ⟨y, hy, hr⟩ := h _ _ _ hvalue
    exact ⟨(name, y), ⟨colon, before, hname, hcolon, hy⟩, rfl, hr⟩
  obtain ⟨ys, hys, hrs⟩ := (readMembers_ok_iff.1 hread).follows hstep
  exact ⟨ys, readMembers_ok_iff.2 hys, hrs⟩

/-! ## Values and their texts -/

/-- Whether every integer of a text is read as it should, at the same place of a value. -/
def Spells (j : Json) (d : Document) : Prop :=
  ∀ place n, d.at? place = some (.numeral n) → n.IsInteger →
    ∃ x, j.at? place = some (.number x) ∧ n.Reads x

/-- Only a number is a number. -/
theorem spells_of_empty {j : Json} {d : Document} (hinside : ∀ step, d.inside? step = none)
    (hd : ∀ n, d ≠ .numeral n) : Spells j d := by
  intro place n hn
  cases place with
  | nil => exact absurd (Option.some.inj hn) (hd n)
  | cons step place =>
    rw [Document.at?, hinside step] at hn
    exact absurd hn (by simp)

theorem spells_number {x : Number} {n : Numeral} (h : n.IsInteger → n.Reads x) :
    Spells (.number x) (.numeral n) := by
  intro place m hm hinteger
  cases place with
  | nil =>
    obtain rfl := Document.numeral.inj (Option.some.inj hm)
    exact ⟨x, rfl, h hinteger⟩
  | cons step place =>
    have hnone : Document.inside? (.numeral n) step = none := rfl
    rw [Document.at?, hnone] at hm
    exact absurd hm (by simp)

theorem exists_getElem?_of_forall₂ {xs : List α} {ys : List β} (h : List.Forall₂ r xs ys)
    {i : Nat} {y : β} (hy : ys[i]? = some y) : ∃ x, xs[i]? = some x ∧ r x y := by
  induction h generalizing i with
  | nil => exact absurd hy (by simp)
  | @cons x y' xs ys hr _ ih =>
    cases i with
    | zero =>
      obtain rfl := Option.some.inj hy
      exact ⟨x, rfl, hr⟩
    | succ i => exact ih hy

theorem spells_array {items : List Json} {ds : List Document} (h : List.Forall₂ Spells items ds) :
    Spells (.array items) (.array ds) := by
  intro place n hn hinteger
  cases place with
  | nil => exact absurd (Option.some.inj hn) (by simp)
  | cons step place =>
    cases step with
    | member name =>
      have hnone : Document.inside? (.array ds) (.member name) = none := rfl
      rw [Document.at?, hnone] at hn
      exact absurd hn (by simp)
    | item i =>
      obtain ⟨d, hd, hplace⟩ := Option.bind_eq_some_iff.1 hn
      obtain ⟨item, hitem, hspells⟩ := exists_getElem?_of_forall₂ h hd
      obtain ⟨x, hx, hreads⟩ := hspells place n hplace hinteger
      refine ⟨x, ?_, hreads⟩
      have hinside : inside? (.array items) (.item i) = some item := hitem
      rw [at?, hinside, Option.bind_some, hx]

/-- The last members of a name are related, if all members are. -/
theorem exists_lastMember?_of_forall₂ {xs : List (String × α)} {ys : List (String × β)}
    (h : List.Forall₂ (fun m n => m.1 = n.1 ∧ r m.2 n.2) xs ys) {name : String} {y : β}
    (hy : lastMember? name ys = some y) : ∃ x, lastMember? name xs = some x ∧ r x y := by
  obtain ⟨m, hm, rfl⟩ := Option.map_eq_some_iff.1 hy
  have hreverse := List.rel_reverse h
  unfold lastMember?
  generalize xs.reverse = xs at hreverse ⊢
  generalize ys.reverse = ys at hreverse hm
  induction hreverse with
  | nil => exact absurd hm (by simp)
  | @cons x y xs ys hxy _ ih =>
    rw [List.find?_cons] at hm ⊢
    rw [hxy.1]
    split at hm
    · obtain rfl := Option.some.inj hm
      exact ⟨x.2, rfl, hxy.2⟩
    · exact ih hm

/-- Once members are in order, each name has the last one that it had before. -/
theorem lastMember?_sortMembers (name : String) (members : List (String × α)) :
    lastMember? name (sortMembers members) = lastMember? name members := by
  rw [lastMember?, ← find?_sortMembers, sortMembers_of_inOrder (inOrder_sortMembers members),
    find?_sortMembers, lastMember?]

theorem spells_object {members : List (String × Json)} {ds : List (String × Document)}
    (h : List.Forall₂ (fun m n => m.1 = n.1 ∧ Spells m.2 n.2) members ds) :
    Spells (.object (sortMembers members)) (.object ds) := by
  intro place n hn hinteger
  cases place with
  | nil => exact absurd (Option.some.inj hn) (by simp)
  | cons step place =>
    cases step with
    | item i =>
      have hnone : Document.inside? (.object ds) (.item i) = none := rfl
      rw [Document.at?, hnone] at hn
      exact absurd hn (by simp)
    | member name =>
      obtain ⟨d, hd, hplace⟩ := Option.bind_eq_some_iff.1 hn
      obtain ⟨value, hvalue, hspells⟩ := exists_lastMember?_of_forall₂ h hd
      obtain ⟨x, hx, hreads⟩ := hspells place n hplace hinteger
      refine ⟨x, ?_, hreads⟩
      have hinside : inside? (.object (sortMembers members)) (.member name) = some value :=
        (lastMember?_sortMembers name members).trans hvalue
      rw [at?, hinside, Option.bind_some, hx]

/-! ## What is read -/

/-- Where a number starts, a number is read. -/
theorem readToken_of_startsNumeral {b : UInt8} (hb : startsNumeral b = true) {rest : Bytes}
    {k : Nat} {token : Token} {after : Cursor} (h : readToken ⟨b :: rest, k⟩ = .ok (token, after)) :
    ∃ x, token = .number x ∧
      ((b = 0x2D ∧ readNumber false ⟨rest, k + 1⟩ = .ok (x, after)) ∨
        (b ≠ 0x2D ∧ readNumber true ⟨b :: rest, k⟩ = .ok (x, after))) := by
  by_cases hminus : b = 0x2D
  · subst hminus
    rw [readToken_minus] at h
    obtain ⟨⟨x, stop⟩, hx, htoken⟩ := exists_of_map_eq_ok h
    obtain ⟨rfl, rfl⟩ := Prod.mk.inj htoken
    exact ⟨x, rfl, Or.inl ⟨rfl, hx⟩⟩
  · have hdigit : (Cursor.digit? b).isSome = true := by
      simpa [startsNumeral, hminus] using hb
    rw [readToken_digit hdigit] at h
    obtain ⟨⟨x, stop⟩, hx, htoken⟩ := exists_of_map_eq_ok h
    obtain ⟨rfl, rfl⟩ := Prod.mk.inj htoken
    exact ⟨x, rfl, Or.inr ⟨hminus, hx⟩⟩

/-- Elsewhere no number is read. -/
theorem ne_number_of_readToken {c after : Cursor} {b : UInt8} {rest : Bytes}
    (hrest : c.skipSpace.rest = b :: rest) (hb : startsNumeral b = false) {token : Token}
    (h : readToken c = .ok (token, after)) (x : Number) : token ≠ .number x := by
  have hnumber : (Cursor.digit? b).isSome = false ∧ (b == 0x2D) = false :=
    Bool.or_eq_false_iff.1 hb
  have hword : ∀ {letters : Bytes} {word : Token},
      (c.skipSpace.next.takeWord letters).map (fun c => (word, c)) = .ok (token, after) →
      word ≠ .number x → token ≠ .number x := by
    intro letters word htaken hword
    obtain ⟨stop, -, hw⟩ := exists_of_map_eq_ok htaken
    rwa [← (Prod.mk.inj hw).1]
  unfold readToken at h
  dsimp only at h
  rw [hrest] at h
  dsimp only at h
  split at h
  · rw [← (Prod.mk.inj (Except.ok.inj h)).1]
    exact nofun
  split at h
  · rw [← (Prod.mk.inj (Except.ok.inj h)).1]
    exact nofun
  split at h
  · obtain ⟨⟨s, stop⟩, -, htoken⟩ := exists_of_map_eq_ok h
    rw [← (Prod.mk.inj htoken).1]
    exact nofun
  rw [if_neg (by simpa using hnumber.2), if_neg (by simp [hnumber.1])] at h
  split at h
  · exact hword h nofun
  split at h
  · exact hword h nofun
  split at h
  · exact hword h nofun
  · exact absurd h faultNext_ne_ok

/-- A number is read where one starts. -/
theorem readToken_number {c after : Cursor} {x : Number}
    (h : readToken c = .ok (.number x, after)) :
    ∃ b rest, c.skipSpace = ⟨b :: rest, c.skipSpace.taken⟩ ∧ startsNumeral b = true ∧
      ((b = 0x2D ∧ readNumber false ⟨rest, c.skipSpace.taken + 1⟩ = .ok (x, after)) ∨
        (b ≠ 0x2D ∧ readNumber true ⟨b :: rest, c.skipSpace.taken⟩ = .ok (x, after))) := by
  cases hrest : c.skipSpace.rest with
  | nil =>
    rw [readToken] at h
    simp [hrest, Cursor.faultNext] at h
  | cons b rest =>
    have hcursor : c.skipSpace = ⟨b :: rest, c.skipSpace.taken⟩ := by rw [← hrest]
    cases hb : startsNumeral b with
    | false => exact absurd rfl (ne_number_of_readToken hrest hb h x)
    | true =>
      rw [← readToken_skipSpace, hcursor] at h
      obtain ⟨y, hy, hread⟩ := readToken_of_startsNumeral hb h
      obtain rfl := Token.number.inj hy
      exact ⟨b, rest, hcursor, hb, hread⟩

/-- A number that is read is the one that is written there. -/
theorem exists_numeral_of_readToken {c after : Cursor} {x : Number}
    (h : readToken c = .ok (.number x, after)) :
    c.skipSpace.peek?.any startsNumeral = true ∧
      ∃ n, Numeral.read c.skipSpace = (n, after) ∧ (n.IsInteger → n.Reads x) := by
  obtain ⟨b, rest, hcursor, hb, hread⟩ := readToken_number h
  rw [hcursor]
  refine ⟨hb, ?_⟩
  rcases hread with ⟨rfl, hx⟩ | ⟨hminus, hx⟩
  · exact readNumber_ok hx
  · have hsign : Cursor.peek? ⟨b :: rest, c.skipSpace.taken⟩ ≠ some 0x2D :=
      fun hpeek => hminus (Option.some.inj hpeek)
    obtain ⟨n, hn, hreads⟩ := readNumber_ok hx
    refine ⟨n, ?_, hreads⟩
    rw [Numeral.read, if_neg hsign]
    exact hn

/-- What is read and is no number starts with something else. -/
theorem any_startsNumeral_of_readToken {c after : Cursor} {token : Token}
    (h : readToken c = .ok (token, after)) (htoken : ∀ x, token ≠ .number x) :
    c.skipSpace.peek?.any startsNumeral = false := by
  cases hrest : c.skipSpace.rest with
  | nil => rw [Cursor.peek?, hrest]; rfl
  | cons b rest =>
    have hpeek : c.skipSpace.peek? = some b := by rw [Cursor.peek?, hrest, List.head?_cons]
    have hcursor : c.skipSpace = ⟨b :: rest, c.skipSpace.taken⟩ := by rw [← hrest]
    rw [hpeek]
    cases hb : startsNumeral b with
    | false => exact hb
    | true =>
      rw [← readToken_skipSpace, hcursor] at h
      obtain ⟨x, hx, -⟩ := readToken_of_startsNumeral hb h
      exact absurd hx (htoken x)

/-- A reader of texts at one level follows that of values, if the readers of what is inside do. -/
theorem follows_readWith {inner : Option (Cursor → Except Fault (Json × Cursor))}
    {other : Option (Cursor → Except Fault (Document × Cursor))}
    (hinner : ∀ read ∈ inner, ∃ read' ∈ other, Follows read read' Spells) :
    Follows (readWith inner) (Document.readWith other) Spells := by
  intro c after j h
  unfold readWith at h
  cases htoken : readToken c with
  | error f =>
    rw [htoken] at h
    exact absurd h (by simp)
  | ok result =>
    obtain ⟨token, stop⟩ := result
    rw [htoken] at h
    unfold Document.readWith
    cases token with
    | number x =>
      obtain ⟨rfl, rfl⟩ := Prod.mk.inj (Except.ok.inj h)
      obtain ⟨hstart, n, hn, hreads⟩ := exists_numeral_of_readToken htoken
      refine ⟨.numeral n, ?_, spells_number hreads⟩
      rw [if_pos hstart, hn]
    | null | bool | string =>
      obtain ⟨rfl, rfl⟩ := Prod.mk.inj (Except.ok.inj h)
      rw [any_startsNumeral_of_readToken htoken (fun _ => nofun), htoken]
      exact ⟨_, rfl, spells_of_empty (fun _ => rfl) (fun _ => nofun)⟩
    | openList =>
      rw [any_startsNumeral_of_readToken htoken (fun _ => nofun), htoken]
      dsimp only at h
      split at h
      · exact absurd h faultNext_ne_ok
      · next read =>
        obtain ⟨read', hother, hfollows⟩ := hinner read rfl
        obtain ⟨⟨items, last⟩, hitems, hj⟩ := exists_of_map_eq_ok h
        obtain ⟨rfl, rfl⟩ := Prod.mk.inj hj
        obtain ⟨ds, hds, hspells⟩ := hfollows.readItems _ _ _ _ _ hitems
        refine ⟨.array ds, ?_, spells_array hspells⟩
        rw [hother, if_neg (by simp)]
        dsimp only
        rw [hds]
        rfl
    | openObject =>
      rw [any_startsNumeral_of_readToken htoken (fun _ => nofun), htoken]
      dsimp only at h
      split at h
      · exact absurd h faultNext_ne_ok
      · next read =>
        obtain ⟨read', hother, hfollows⟩ := hinner read rfl
        obtain ⟨⟨members, last⟩, hmembers, hj⟩ := exists_of_map_eq_ok h
        obtain ⟨rfl, rfl⟩ := Prod.mk.inj hj
        obtain ⟨ds, hds, hspells⟩ := hfollows.readMembers _ _ _ _ _ hmembers
        refine ⟨.object ds, ?_, spells_object hspells⟩
        rw [hother, if_neg (by simp)]
        dsimp only
        rw [hds]
        rfl

/-- A text of any depth that is read as a value is read as it is written. -/
theorem follows_readValue (levels : Nat) :
    Follows (readValue levels) (Document.readValue levels) Spells := by
  induction levels with
  | zero => exact follows_readWith fun read hread => absurd hread (by simp)
  | succ levels ih =>
    refine follows_readWith fun read hread => ⟨_, rfl, ?_⟩
    obtain rfl := Option.some.inj hread
    exact ih

/-- A whole text that is read as a value spells it. -/
theorem exists_document_of_ofBytes? {text : Bytes} {j : Json} (h : ofBytes? text = .ok j) :
    ∃ d, Document.ofBytes? text = .ok d ∧ Spells j d :=
  (follows_readValue maxLevels).of_readWhole h

/-! ## What is written -/

mutual

/-- What is written for a value. -/
def document : Json → Document
  | .null => .null
  | .bool b => .bool b
  | .number x => .numeral x.numeral
  | .string s => .string s
  | .array items => .array (itemDocuments items)
  | .object members => .object (memberDocuments members)

/-- What is written for the values of a list. -/
def itemDocuments : List Json → List Document
  | [] => []
  | item :: items => item.document :: itemDocuments items

/-- What is written for the members of an object. -/
def memberDocuments : List (String × Json) → List (String × Document)
  | [] => []
  | (name, value) :: members => (name, value.document) :: memberDocuments members

end

theorem itemDocuments_eq_map (items : List Json) : itemDocuments items = items.map document := by
  induction items with
  | nil => rfl
  | cons item items ih => rw [itemDocuments, ih, List.map_cons]

theorem memberDocuments_eq_map (members : List (String × Json)) :
    memberDocuments members = members.map fun m => (m.1, m.2.document) := by
  induction members with
  | nil => rfl
  | cons m members ih => rw [memberDocuments, ih, List.map_cons]

/-- Every step leads to what is written for what it leads to in the value. -/
theorem inside?_document (j : Json) (step : Step) :
    j.document.inside? step = (j.inside? step).map document := by
  cases j with
  | null | bool | number | string => rfl
  | array items =>
    cases step with
    | member name => rfl
    | item i =>
      show (itemDocuments items)[i]? = (items[i]?).map document
      rw [itemDocuments_eq_map, List.getElem?_map]
  | object members =>
    cases step with
    | item i => rfl
    | member name =>
      show lastMember? name (memberDocuments members) = (lastMember? name members).map document
      rw [memberDocuments_eq_map, lastMember?, lastMember?, ← List.map_reverse, List.find?_map,
        Option.map_map, Option.map_map]
      rfl

/-- What is written for a value has each of its parts at the place of that part. -/
theorem at?_document (j : Json) (place : List Step) :
    j.document.at? place = (j.at? place).map document := by
  induction place generalizing j with
  | nil => rfl
  | cons step place ih =>
    rw [Document.at?, at?, inside?_document]
    cases j.inside? step with
    | none => rfl
    | some inner => exact ih inner

/-- A number starts as numbers do. -/
theorem exists_encode_text_eq (x : Number) :
    ∃ b bs, Utf8.encode x.text = b :: bs ∧ startsNumeral b = true := by
  obtain ⟨c, cs, htext, rfl | hc⟩ := exists_text_eq x
  · exact ⟨0x2D, Utf8.encode cs, by rw [htext]; rfl, by decide⟩
  · obtain ⟨hoctet, hdigit⟩ := encodeChar_isDigit hc
    refine ⟨UInt8.ofNat c.toNat, Utf8.encode cs, by rw [htext, Utf8.encode_cons, hoctet]; rfl, ?_⟩
    rw [startsNumeral, hdigit]
    rfl

/-- A scalar is found again at any level. -/
theorem readsAs_document_scalar (inner : Option (Cursor → Except Fault (Document × Cursor)))
    {j : Json} (hscalar : j.IsScalar) : ReadsAs (Document.readWith inner) j j.document := by
  intro rest k hrest
  cases j with
  | null => rfl
  | bool b => cases b <;> rfl
  | string s =>
    have htoken := readToken_stringText s rest k
    have hstart := any_startsNumeral_of_readToken htoken fun _ => nofun
    show Document.readWith inner ⟨Utf8.encode (stringText s) ++ rest, k⟩ = _
    rw [Document.readWith, if_neg (by simp [hstart]), htoken]
    rfl
  | number x =>
    obtain ⟨b, bs, htext, hb⟩ := exists_encode_text_eq x
    obtain ⟨_, _, hcompact, hspace, -⟩ := exists_encode_compact_eq (.number x)
    have htext' : Utf8.encode (compact (.number x)) = b :: bs := htext
    obtain rfl := (List.cons.inj (hcompact.symm.trans htext')).1
    have hread := Numeral.read_text x.isPlain_numeral hrest k
    rw [x.text_numeral, htext, List.cons_append] at hread
    have hstart : (Cursor.peek? ⟨_ :: (bs ++ rest), k⟩).any startsNumeral = true := hb
    rw [htext', List.cons_append, Document.readWith, skipSpace_of_not_space hspace,
      if_pos hstart, hread]
    rfl
  | array items => exact absurd hscalar id
  | object members => exact absurd hscalar id

theorem forall₂_itemDocuments {read : Cursor → Except Fault (Document × Cursor)}
    {items : List Json} (h : ∀ item ∈ items, ReadsAs read item item.document) :
    List.Forall₂ (ReadsAs read) items (itemDocuments items) := by
  induction items with
  | nil => exact .nil
  | cons item items ih =>
    exact .cons (h item List.mem_cons_self) (ih fun x hx => h x (List.mem_cons_of_mem item hx))

theorem forall₂_memberDocuments {read : Cursor → Except Fault (Document × Cursor)}
    {members : List (String × Json)} (h : ∀ m ∈ members, ReadsAs read m.2 m.2.document) :
    List.Forall₂ (MemberReadsAs read) members (memberDocuments members) := by
  induction members with
  | nil => exact .nil
  | cons m members ih =>
    obtain ⟨name, value⟩ := m
    exact .cons ⟨rfl, h (name, value) List.mem_cons_self⟩
      (ih fun x hx => h x (List.mem_cons_of_mem (name, value) hx))

/-- What is written for a value that does not nest too deep is found again, fractions included. -/
theorem readsAs_document {levels : Nat} {j : Json} (hj : Nests levels j) :
    ReadsAs (Document.readValue levels) j j.document := by
  induction levels generalizing j with
  | zero =>
    cases j with
    | array items => exact absurd hj (by simp [Nests])
    | object members => exact absurd hj (by simp [Nests])
    | null | bool | string | number => exact readsAs_document_scalar none trivial
  | succ levels ih =>
    cases j with
    | null | bool | string | number =>
      exact readsAs_document_scalar (some (Document.readValue levels)) trivial
    | array items =>
      intro rest k _
      have hitems : ∀ item ∈ items, Nests levels item := hj
      have hread := readItems_array
        (forall₂_itemDocuments fun item hitem => ih (hitems item hitem)) rest k
      show (readItems (Document.readValue levels)
        ((Utf8.encode (compact (.array items)) ++ rest).length + 1) true
        ⟨Utf8.encode (compactItems true items) ++ rest, k + 1⟩).map _ = _
      rw [hread]
      rfl
    | object members =>
      intro rest k _
      have hmembers : ∀ m ∈ members, Nests levels m.2 := hj
      have hread := readMembers_object
        (forall₂_memberDocuments fun m hm => ih (hmembers m hm)) rest k
      show (readMembers (Document.readValue levels)
        ((Utf8.encode (compact (.object members)) ++ rest).length + 1) true
        ⟨Utf8.encode (compactMembers true members) ++ rest, k + 1⟩).map _ = _
      rw [hread]
      rfl

/-- The octets of a value that does not nest too deep are a text, and what is written for the
value. -/
theorem ofBytes?_document {j : Json} (hj : Nests maxLevels j) :
    Document.ofBytes? j.bytes = .ok j.document :=
  readWhole_bytes (readsAs_document hj)

end RegistryConsole.Json
