import RegistryConsole.Json.Record
import RegistryConsole.Json.Table
import RegistryConsole.Proofs.Json.RoundTrip
import RegistryConsole.Proofs.Json.Skipping

/-! # Reading typed values back

What a codec writes for a value it reads back as that value. For lists, tables and records this
comes from their parts: the members of a record are read one after the other into its slots, in
whatever order they come, and whatever is not written has a value that stands for it. -/

namespace RegistryConsole.Json

variable {α : Type}

/-- Whether a codec reads a value back from what it writes for it, where lists and objects may nest
`levels` deep. -/
def Codec.ReadsBack (codec : Codec α) (levels : Nat) (x : α) : Prop :=
  ReadsAs (codec.read levels) (codec.write x) x

namespace Codec

/-- What is read back within the greatest depth is read back from a whole text. -/
theorem ofBytes?_bytes {codec : Codec α} {x : α} (h : codec.ReadsBack maxLevels x) :
    codec.ofBytes? (codec.bytes x) = .ok x :=
  readWhole_bytes h

/-! ## Scalars -/

/-- A text is read as the text that it is, whatever else could be expected there. -/
theorem readsAs_readText (expected : String) (s : String) :
    ReadsAs (readText expected) (.string s) s := by
  intro rest n _
  have htoken : readToken ⟨Utf8.encode (compact (.string s)) ++ rest, n⟩ = _ :=
    readToken_stringText s rest n
  rw [readText, htoken]
  rfl

theorem string_readsBack (levels : Nat) (s : String) : string.ReadsBack levels s :=
  readsAs_readText _ s

theorem path_readsBack (levels : Nat) (s : String) : path.ReadsBack levels s :=
  readsAs_readText _ s

theorem bool_readsBack (levels : Nat) (b : Bool) : bool.ReadsBack levels b := by
  intro rest n _
  cases b <;> rfl

/-- An integer is read as what stands for it, if it is accepted. -/
theorem readsAs_readInteger {expected : String} {accept? : Int → Option α} {k : Int}
    (hfits : -0x8000000000000000 ≤ k ∧ k < 0x10000000000000000) {x : α} (h : accept? k = some x) :
    ReadsAs (readInteger expected accept?) (.number (.integer k hfits)) x := by
  intro rest n hrest
  have htoken : readToken ⟨Utf8.encode (compact (.number (.integer k hfits))) ++ rest, n⟩ = _ :=
    readToken_integer hfits hrest n
  rw [readInteger, htoken]
  dsimp only
  rw [h]
  rfl

theorem int64_readsBack (levels : Nat) (k : Int64) : int64.ReadsBack levels k := by
  have hlower := Int64.le_toInt k
  have hupper := Int64.toInt_lt k
  refine readsAs_readInteger _ ?_
  rw [if_pos ⟨hlower, by omega⟩, Int64.ofInt_toInt]

theorem nat64_readsBack (name : String) (levels : Nat) (k : UInt64) :
    (nat64 name).ReadsBack levels k := by
  have hupper := k.toNat_lt
  refine readsAs_readInteger _ ?_
  rw [if_pos ⟨by omega, by omega⟩, Int.toNat_natCast, UInt64.ofNat_toNat]

theorem nat16_readsBack (levels : Nat) (k : UInt16) : nat16.ReadsBack levels k := by
  have hupper := k.toNat_lt
  refine readsAs_readInteger _ ?_
  rw [if_pos ⟨by omega, by omega⟩, Int.toNat_natCast, UInt16.ofNat_toNat]

/-! ## Lists and tables -/

/-- A list is read if its items are, whatever their octets. -/
theorem list_readsText {codec : Codec α} {levels : Nat} {texts : List Bytes} {xs : List α}
    (h : List.Forall₂ (ReadsText (codec.read levels)) texts xs)
    (hstart : ∀ text ∈ texts, StartsValue text) :
    ReadsText ((list codec).read (levels + 1)) (arrayText texts) xs :=
  fun rest n _ => readItems_arrayText h hstart rest n

/-- A table is read from an object whose values are texts. -/
theorem table_readsText {levels : Nat} {members : List (String × Bytes)}
    {entries : List (String × String)}
    (h : List.Forall₂ (MemberReadsText (string.read levels)) members entries) :
    ReadsText (table.read (levels + 1)) (objectText members) (Table.ofList entries) := by
  intro rest n _
  show (readMembers (string.read levels) ((objectText members ++ rest).length + 1) true
    ⟨membersText true members ++ rest, n + 1⟩).map _ = _
  rw [readMembers_objectText h rest n]
  rfl

/-! ## Values that may be null -/

theorem optional_none_readsBack (codec : Codec α) (levels : Nat) :
    codec.optional.ReadsBack levels none :=
  fun _ _ _ => rfl

/-- A value that may be null is read as what it is, unless it starts as null does. -/
theorem optional_readsText {codec : Codec α} {levels : Nat} {text : Bytes} {x : α}
    (h : ReadsText (codec.read levels) text x)
    (hstart : ∃ b bs, text = b :: bs ∧ Cursor.isSpace b = false ∧ b ≠ 0x6E) :
    ReadsText (codec.optional.read levels) text (some x) := by
  intro rest n hrest
  obtain ⟨b, bs, rfl, hspace, hletter⟩ := hstart
  have hread := h rest n hrest
  rw [List.cons_append] at hread ⊢
  unfold optional
  dsimp only
  rw [skipSpace_of_not_space hspace, Cursor.peek?, List.head?_cons,
    if_neg (fun hn => hletter (Option.some.inj hn)), hread]
  rfl

end Codec

/-! ## Records -/

namespace Values

variable {levels : Nat} {m : Member} {ms : List Member}

/-- Whether some named octets are those of the value of the member of that name: the codec of the
member reads them so. -/
def ReadsAt (levels : Nat) : (ms : List Member) → Values ms → String × Bytes → Prop
  | [], _, _ => False
  | m :: ms, (x, xs), e =>
    if e.1 = m.name then ReadsText (m.codec.read levels) e.2 x else ReadsAt levels ms xs e

/-- The slots with the values of the members of some names. -/
def filled (names : List String) : (ms : List Member) → Values ms → Slots ms
  | [], _ => PUnit.unit
  | m :: ms, (x, xs) => (if m.name ∈ names then some x else none, filled names ms xs)

/-- Whether all values but those of some names stand for what is absent. -/
def AreThere (names : List String) : (ms : List Member) → Values ms → Prop
  | [], _ => True
  | m :: ms, (x, xs) => (m.name ∈ names ∨ m.absent? = some x) ∧ AreThere names ms xs

/-- Without names no slot is filled. -/
theorem filled_nil (xs : Values ms) : filled [] ms xs = Slots.empty ms := by
  induction ms with
  | nil => rfl
  | cons m ms ih => exact congrArg _ (ih xs.2)

/-- A name that is none of the members' fills no slot. -/
theorem filled_concat_of_notMem {name : String} (h : name ∉ ms.map Member.name)
    (names : List String) (xs : Values ms) :
    filled (names ++ [name]) ms xs = filled names ms xs := by
  induction ms with
  | nil => rfl
  | cons m ms ih =>
    obtain ⟨x, xs⟩ := xs
    obtain ⟨hne, hrest⟩ := not_or.1 (List.mem_cons.not.1 h)
    have hslot : (if m.name ∈ names ++ [name] then some x else none) =
        if m.name ∈ names then some x else none := by simp [Ne.symm hne]
    rw [filled, filled, ih hrest, hslot]

/-- A named value at its member fills the slot of the member, if it is the first of its name. -/
theorem read_filled (hnames : (ms.map Member.name).Nodup) {xs : Values ms} {name : String}
    {text : Bytes} (h : ReadsAt levels ms xs (name, text)) {names : List String}
    (hnew : name ∉ names) {rest : Bytes} (hrest : EndsNumber rest) (n : Nat) :
    Slots.read levels name ms (filled names ms xs) ⟨0x3A :: (text ++ rest), n⟩ =
      .ok (some (filled (names ++ [name]) ms xs, ⟨rest, n + 1 + text.length⟩)) := by
  induction ms with
  | nil => exact absurd h id
  | cons m ms ih =>
    obtain ⟨x, xs⟩ := xs
    obtain ⟨hother, hnames⟩ := List.nodup_cons.1 hnames
    rw [ReadsAt] at h
    rw [filled, filled, Slots.read]
    split at h
    · next hname =>
      obtain rfl : name = m.name := hname
      rw [filled_concat_of_notMem hother, if_neg hnew,
        if_pos (List.mem_append_right _ List.mem_cons_self), if_pos rfl]
      simp only [Option.isSome_none, Bool.false_eq_true, if_false, takeColon_colon,
        h rest (n + 1) hrest]
      rfl
    · next hname =>
      have hname : name ≠ m.name := hname
      have hslot : (if m.name ∈ names ++ [name] then some x else none) =
          if m.name ∈ names then some x else none := by simp [Ne.symm hname]
      rw [hslot, if_neg hname, ih hnames h]
      rfl

/-- A name that is none of the members' has no slot. -/
theorem read_of_notMem {name : String} (h : name ∉ ms.map Member.name) (slots : Slots ms)
    (c : Cursor) : Slots.read levels name ms slots c = .ok none := by
  induction ms with
  | nil => rfl
  | cons m ms ih =>
    obtain ⟨hne, hrest⟩ := not_or.1 (List.mem_cons.not.1 h)
    obtain ⟨slot, slots⟩ := slots
    rw [Slots.read, if_neg hne, ih hrest]
    rfl

/-- The slots give all values again, if no value is missing. -/
theorem values?_filled {names : List String} {xs : Values ms} (h : AreThere names ms xs) :
    Slots.values? ms (filled names ms xs) = .ok xs := by
  induction ms with
  | nil => rfl
  | cons m ms ih =>
    obtain ⟨x, xs⟩ := xs
    obtain ⟨hx, hxs⟩ := h
    have hslot : (if m.name ∈ names then some x else none).or m.absent? = some x := by
      by_cases hmem : m.name ∈ names
      · rw [if_pos hmem]
        rfl
      · rw [if_neg hmem]
        exact hx.resolve_left hmem
    rw [filled, Slots.values?, hslot]
    dsimp only
    rw [ih hxs]
    rfl

/-! ### Members in any order, among others -/

/-- Whether some named octets may stand in a record: those of a member's name are those of its
value, and those of any other name are any value. -/
def Admits (levels : Nat) (ms : List Member) (xs : Values ms) (e : String × Bytes) : Prop :=
  (e.1 ∈ ms.map Member.name → ReadsAt levels ms xs e) ∧ (e.1 ∉ ms.map Member.name → IsText e.2)

/-- One member of an object, whether it has a slot or not, takes the slots on for those after it. -/
theorem readSlots_cons (hnames : (ms.map Member.name).Nodup) {xs : Values ms} {name : String}
    {text : Bytes} (h : Admits levels ms xs (name, text)) {names : List String}
    (hnew : name ∈ ms.map Member.name → name ∉ names) {fuel : Nat} {first : Bool}
    {c after peeked : Cursor} {rest : Bytes} {p : Nat} {result : Except Fault (Slots ms × Cursor)}
    (hnext : nextName? first c = .ok (some after, peeked))
    (hname : readString after = .ok (name, ⟨0x3A :: (text ++ rest), p⟩)) (hrest : EndsNumber rest)
    (hmore : readSlots levels ms fuel false (filled (names ++ [name]) ms xs)
      ⟨rest, p + 1 + text.length⟩ = result) :
    readSlots levels ms (fuel + 1) first (filled names ms xs) c = result := by
  rw [readSlots, hnext]
  dsimp only
  rw [hname]
  dsimp only
  by_cases hmem : name ∈ ms.map Member.name
  · rw [read_filled hnames (h.1 hmem) (hnew hmem) hrest]
    exact hmore
  · rw [read_of_notMem hmem, takeColon_colon]
    dsimp only
    rw [(h.2 hmem).skipValue hrest]
    rw [filled_concat_of_notMem hmem] at hmore
    exact hmore

/-- The members of an object fill the slots of their names, up to the bracket that closes it. No
name of a member may come twice, while other names may. -/
theorem readSlots_membersText (hnames : (ms.map Member.name).Nodup) {xs : Values ms}
    {members : List (String × Bytes)} (h : ∀ e ∈ members, Admits levels ms xs e)
    {names : List String}
    (hnew : ((names ++ members.map Prod.fst).filter (· ∈ ms.map Member.name)).Nodup)
    (first : Bool) {fuel : Nat} (hfuel : members.length < fuel) (rest : Bytes) (n : Nat) :
    ∃ k, readSlots levels ms fuel first (filled names ms xs)
        ⟨membersText first members ++ rest, n⟩ =
          .ok (filled (names ++ members.map Prod.fst) ms xs, ⟨0x7D :: rest, k⟩) ∧
      k + 1 = n + (membersText first members).length := by
  -- `names` are those of the members before, known or not: every slot of one of them is filled
  induction members generalizing names first fuel n with
  | nil =>
    rw [List.map_nil, List.append_nil]
    cases fuel with
    | zero => exact absurd hfuel (by simp)
    | succ fuel => cases first <;> exact ⟨n, rfl, rfl⟩
  | cons e members ih =>
    obtain ⟨name, text⟩ := e
    obtain ⟨hfirst, hothers⟩ := List.forall_mem_cons.1 h
    cases fuel with
    | zero => exact absurd hfuel (by simp)
    | succ fuel =>
      obtain ⟨p, peeked, after, hnext, hname, hp⟩ :=
        exists_nextName?_eq first name text members rest n
      have hone : name ∈ ms.map Member.name → name ∉ names := by
        intro hmem hold
        rw [List.filter_append, List.nodup_append] at hnew
        exact hnew.2.2 name (List.mem_filter.2 ⟨hold, decide_eq_true hmem⟩) name
          (List.mem_filter.2 ⟨List.mem_cons_self, decide_eq_true hmem⟩) rfl
      have hsplit : names ++ ((name, text) :: members).map Prod.fst =
          names ++ [name] ++ members.map Prod.fst := by simp
      rw [hsplit] at hnew ⊢
      obtain ⟨k, hrun, hk⟩ := ih hothers hnew false (Nat.lt_of_succ_lt_succ hfuel)
        (p + 1 + text.length)
      exact ⟨k, readSlots_cons hnames hfirst hone hnext hname
        (endsNumber_membersText members rest) hrun, hk.trans hp⟩

end Values

/-- Whether a member has its value again from any octets in some form of what is written for it, and
a value that is not written stands for itself where it is absent. -/
structure Member.KeepsIn (m : Member) (form : Json → Bytes → Prop) (levels : Nat)
    (x : m.Carrier) : Prop where
  written : m.hidden x = false →
    ∀ text, form (m.codec.write x) text → ReadsText (m.codec.read levels) text x
  hidden : m.hidden x = true → m.absent? = some x

namespace Values

variable {levels : Nat} {m : Member} {ms : List Member}

/-! ## What is written -/

/-- Whether all members have their values again from any octets in some form of what is written for
them. The form may differ from name to name. -/
def KeepIn (form : String → Json → Bytes → Prop) (levels : Nat) :
    (ms : List Member) → Values ms → Prop
  | [], _ => True
  | m :: ms, (x, xs) => m.KeepsIn (form m.name) levels x ∧ KeepIn form levels ms xs

/-- What is written has the names of members, in their order. -/
theorem sublist_write (xs : Values ms) :
    ((write ms xs).map Prod.fst).Sublist (ms.map Member.name) := by
  induction ms with
  | nil => exact List.Sublist.slnil
  | cons m ms ih =>
    obtain ⟨x, xs⟩ := xs
    rw [write]
    split
    · exact (ih xs).cons _
    · exact (ih xs).cons_cons _

/-- All that is written is read at its member, in any such form. -/
theorem readsAt_of_mem_write {form : String → Json → Bytes → Prop}
    (hnames : (ms.map Member.name).Nodup) {xs : Values ms} (h : KeepIn form levels ms xs)
    {e : String × Json} (he : e ∈ write ms xs) {text : Bytes} (htext : form e.1 e.2 text) :
    ReadsAt levels ms xs (e.1, text) := by
  induction ms with
  | nil => exact absurd he List.not_mem_nil
  | cons m ms ih =>
    obtain ⟨x, xs⟩ := xs
    obtain ⟨hx, hxs⟩ := h
    obtain ⟨hother, hnames⟩ := List.nodup_cons.1 hnames
    have hrest : e ∈ write ms xs → ReadsAt levels (m :: ms) (x, xs) (e.1, text) := by
      intro he
      have hname : e.1 ≠ m.name := fun heq =>
        hother (heq ▸ (sublist_write xs).subset (List.mem_map_of_mem he))
      rw [ReadsAt, if_neg hname]
      exact ih hnames hxs he
    rw [write] at he
    split at he
    · exact hrest he
    · next hhidden =>
      rcases List.mem_cons.1 he with rfl | he
      · rw [ReadsAt, if_pos rfl]
        exact hx.written (Bool.eq_false_iff.2 hhidden) text htext
      · exact hrest he

/-- What is not written stands for what is absent. -/
theorem areThere_of_keepIn {form : String → Json → Bytes → Prop} {xs : Values ms}
    (h : KeepIn form levels ms xs) {names : List String}
    (hnames : ∀ e ∈ write ms xs, e.1 ∈ names) : AreThere names ms xs := by
  induction ms with
  | nil => trivial
  | cons m ms ih =>
    obtain ⟨x, xs⟩ := xs
    obtain ⟨hx, hxs⟩ := h
    rw [write] at hnames
    cases hhidden : m.hidden x with
    | true =>
      rw [if_pos hhidden] at hnames
      exact ⟨Or.inr (hx.hidden hhidden), ih hxs hnames⟩
    | false =>
      rw [if_neg (by simp [hhidden])] at hnames
      obtain ⟨hname, hrest⟩ := List.forall_mem_cons.1 hnames
      exact ⟨Or.inl hname, ih hxs hrest⟩

end Values

/-- Whether named octets are in some form of a named value, under its name. -/
def InForm (form : String → Json → Bytes → Prop) (m : String × Json) (e : String × Bytes) : Prop :=
  m.1 = e.1 ∧ form m.1 m.2 e.2

theorem map_fst_of_inForm {form : String → Json → Bytes → Prop} {members : List (String × Json)}
    {known : List (String × Bytes)} (h : List.Forall₂ (InForm form) members known) :
    members.map Prod.fst = known.map Prod.fst := by
  induction h with
  | nil => rfl
  | cons hfirst _ ih => rw [List.map_cons, List.map_cons, hfirst.1, ih]

/-- Whatever is in such a form is so of something that was there. -/
theorem exists_of_mem_inForm {form : String → Json → Bytes → Prop} {members : List (String × Json)}
    {known : List (String × Bytes)} (h : List.Forall₂ (InForm form) members known)
    {e : String × Bytes} (he : e ∈ known) : ∃ m ∈ members, InForm form m e := by
  induction h with
  | nil => exact absurd he List.not_mem_nil
  | @cons m _ members _ hfirst _ ih =>
    rcases List.mem_cons.1 he with rfl | he
    · exact ⟨m, List.mem_cons_self, hfirst⟩
    · obtain ⟨m, hm, hform⟩ := ih he
      exact ⟨m, List.mem_cons_of_mem _ hm, hform⟩

/-- All octets that are in some form of what is written may stand in the record. -/
theorem Values.admits_of_inForm {form : String → Json → Bytes → Prop} {levels : Nat}
    {ms : List Member} {xs : Values ms} (hnames : (ms.map Member.name).Nodup)
    (h : Values.KeepIn form levels ms xs) {known : List (String × Bytes)}
    (hknown : List.Forall₂ (InForm form) (Values.write ms xs) known) :
    ∀ e ∈ known, Values.Admits levels ms xs e := by
  intro e he
  obtain ⟨m, hm, hname, hform⟩ := exists_of_mem_inForm hknown he
  have hread := readsAt_of_mem_write hnames h hm hform
  have hmem := (sublist_write xs).subset (List.mem_map_of_mem hm)
  rw [hname] at hread hmem
  exact ⟨fun _ => hread, fun hother => absurd hmem hother⟩

/-- Among other members those of some names stay without a name twice. -/
theorem nodup_filter_names {β : Type} {names : List String} {known added all : List (String × β)}
    (hall : all.Perm (known ++ added)) (hknown : (known.map Prod.fst).Nodup)
    (hadded : ∀ e ∈ added, e.1 ∉ names) : ((all.map Prod.fst).filter (· ∈ names)).Nodup := by
  have hothers : (added.map Prod.fst).filter (· ∈ names) = [] := by
    refine List.filter_eq_nil_iff.2 fun name hname => ?_
    obtain ⟨e, he, rfl⟩ := List.mem_map.1 hname
    exact fun hmem => hadded e he (of_decide_eq_true hmem)
  rw [((hall.map Prod.fst).filter _).nodup_iff, List.map_append, List.filter_append, hothers,
    List.append_nil]
  exact hknown.filter _

namespace Layout

variable {layout : Layout α} {levels : Nat} {x : α}

/-- A record is read from an object with what is written for its members, in any form from which
they have their values again, in any order, and among members with other names and any values. -/
theorem readsText_objectText (hnames : (layout.members.map Member.name).Nodup)
    (hbuild : layout.build (layout.parts x) = x) {form : String → Json → Bytes → Prop}
    (h : Values.KeepIn form levels layout.members (layout.parts x))
    {known added all : List (String × Bytes)}
    (hknown : List.Forall₂ (InForm form) (Values.write layout.members (layout.parts x)) known)
    (hadded : ∀ e ∈ added, e.1 ∉ layout.members.map Member.name ∧ IsText e.2)
    (hall : all.Perm (known ++ added)) :
    ReadsText (layout.codec.read (levels + 1)) (objectText all) x := by
  intro rest n _
  have hwritten := map_fst_of_inForm hknown
  have hadmits : ∀ e ∈ all, Values.Admits levels layout.members (layout.parts x) e := by
    intro e he
    rcases List.mem_append.1 (hall.mem_iff.1 he) with he | he
    · exact Values.admits_of_inForm hnames h hknown e he
    · exact ⟨fun hmem => absurd hmem (hadded e he).1, fun _ => (hadded e he).2⟩
  have hnew : (([] ++ all.map Prod.fst).filter (· ∈ layout.members.map Member.name)).Nodup := by
    have hnodup := (Values.sublist_write (layout.parts x)).nodup hnames
    rw [hwritten] at hnodup
    exact nodup_filter_names hall hnodup fun e he => (hadded e he).1
  have hthere : Values.AreThere (all.map Prod.fst) layout.members (layout.parts x) := by
    refine Values.areThere_of_keepIn h fun e he => ((hall.map Prod.fst).mem_iff).2 ?_
    rw [List.map_append, ← hwritten]
    exact List.mem_append_left _ (List.mem_map_of_mem he)
  have hfuel : all.length < (membersText true all ++ rest).length + 1 := by
    have hlength := length_le_membersText all true
    rw [List.length_append]
    omega
  obtain ⟨k, hread, hk⟩ :=
    Values.readSlots_membersText hnames hadmits hnew true hfuel rest (n + 1)
  rw [Values.filled_nil, List.nil_append] at hread
  show layout.readObject levels ⟨membersText true all ++ rest, n + 1⟩ = _
  rw [Layout.readObject, hread]
  dsimp only
  rw [Values.values?_filled hthere]
  have hplace : k + 1 = n + (objectText all).length := by
    rw [objectText, List.length_cons]
    omega
  show Except.ok (layout.build (layout.parts x), (⟨rest, k + 1⟩ : Cursor)) = _
  rw [hbuild, hplace]

end Layout

end RegistryConsole.Json
