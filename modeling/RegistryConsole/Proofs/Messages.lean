import Mathlib.Data.List.Nodup
import RegistryConsole.Proofs.Json.Reads
import RegistryConsole.Proofs.Operations
import RegistryConsole.Proofs.Utf8

/-! # Messages of refusals

The message of a refusal is taken from the first place that has one: a member of a JSON answer, the
answer as a whole, its text, or else the status. Every refusal has a message, whatever its header
and its body are and whether the body could be read, and every operation fails with it. -/

namespace RegistryConsole

/-! ## Texts that are not empty -/

/-- No value has an empty text. -/
theorem Json.text_ne_empty (j : Json) : j.text ≠ "" := by
  obtain ⟨b, bs, hb, -⟩ := exists_encode_compact_eq j
  intro hempty
  have hcompact : j.compact = [] := by
    simpa [text] using hempty
  rw [hcompact] at hb
  exact absurd hb (by simp)

namespace Utf8

/-- In the middle of a character something is still to come. -/
theorem lossyFrom_some_ne_nil (p : Pending) (text : Bytes) : lossyFrom (some p) text ≠ [] := by
  induction text generalizing p with
  | nil => exact List.cons_ne_nil _ _
  | cons b rest ih =>
    rw [lossyFrom]
    split
    · exact List.cons_ne_nil _ _
    · exact ih _
    · split <;> exact List.cons_ne_nil _ _

/-- Octets that are some have a text that is some. -/
theorem lossy_ne_nil {text : Bytes} (h : text ≠ []) : lossy text ≠ [] := by
  cases text with
  | nil => exact absurd rfl h
  | cons b rest =>
    rw [lossy, lossyFrom]
    split
    · exact List.cons_ne_nil _ _
    · exact lossyFrom_some_ne_nil _ _
    · exact List.cons_ne_nil _ _

/-- ASCII characters are their octets. -/
theorem toLatin_encode {cs : List Char} (h : ∀ c ∈ cs, c.toNat < 0x80) :
    Bytes.toLatin (encode cs) = cs := by
  induction cs with
  | nil => rfl
  | cons c cs ih =>
    obtain ⟨hc, hcs⟩ := List.forall_mem_cons.1 h
    have hoctet : (UInt8.ofNat c.toNat).toNat = c.toNat := toNat_octet (by omega)
    have hcons : Bytes.toLatin (encode (c :: cs)) =
        Char.ofNat (UInt8.ofNat c.toNat).toNat :: Bytes.toLatin (encode cs) := by
      rw [encode_cons, encodeChar_ascii hc]
      rfl
    rw [hcons, ih hcs, hoctet, Char.ofNat_toNat]

end Utf8

/-! ## What a status is called -/

/-- Whether `text` is what a status is called: its phrase, or its number where it has none. -/
structure Status.IsTitle (status : Status) (text : String) : Prop where
  phrase : ∀ phrase, (status.code, phrase) ∈ phrases → text = phrase
  number : (∀ phrase, (status.code, phrase) ∉ phrases) → text = toString status.code

/-- No code has two phrases. -/
theorem Status.nodup_phrases : (phrases.map (·.1)).Nodup := by
  decide

theorem Status.isTitle_title (status : Status) : status.IsTitle status.title := by
  unfold title
  cases hfind : phrases.find? fun p => p.1 == status.code with
  | none =>
    refine ⟨fun phrase hphrase => ?_, fun _ => rfl⟩
    exact absurd (List.find?_eq_none.1 hfind _ hphrase) (by simp)
  | some p =>
    have hmem := List.mem_of_find?_eq_some hfind
    have hcode : p.1 = status.code := by simpa using List.find?_some hfind
    refine ⟨fun phrase hphrase => ?_, fun hnone => ?_⟩
    · have hsame : p = (status.code, phrase) :=
        List.inj_on_of_nodup_map nodup_phrases hmem hphrase hcode
      rw [hsame]
    · exact absurd (hcode ▸ hmem) (hnone p.2)

namespace Refusal

/-! ## JSON answers -/

/-- Whether a text occurs in another. -/
theorem occursIn_iff {part : List Char} {cs : List Char} :
    occursIn part cs = true ↔ part <:+: cs := by
  induction cs with
  | nil => rw [occursIn, List.isEmpty_iff, List.infix_nil]
  | cons c cs ih =>
    rw [occursIn, Bool.or_eq_true, List.isPrefixOf_iff_prefix, ih, List.infix_cons_iff]

/-- Whether the first media type of an answer is a text of visible characters that names JSON. -/
def IsTypedJson (r : Response) : Prop :=
  ∃ text : List Char, (r.headers.values "content-type").head? = some (Utf8.encode text) ∧
    (∀ c ∈ text, c.toNat = 0x09 ∨ 0x20 ≤ c.toNat ∧ c.toNat < 0x7F) ∧
    "application/json".toList <:+: text

theorem saysJson_iff (r : Response) : saysJson r = true ↔ IsTypedJson r := by
  unfold saysJson IsTypedJson
  rw [Headers.first?_eq_head?]
  cases (r.headers.values "content-type").head? with
  | none => simp
  | some value =>
    dsimp only
    rw [Bool.and_eq_true, List.all_eq_true, occursIn_iff]
    constructor
    · rintro ⟨hvisible, hnames⟩
      have hvisible : ∀ b ∈ value, b.toNat = 0x09 ∨ 0x20 ≤ b.toNat ∧ b.toNat < 0x7F := by
        simpa using hvisible
      refine ⟨Bytes.toLatin value, ?_, ?_, hnames⟩
      · rw [Utf8.encode_toLatin fun b hb => by have := hvisible b hb; omega]
      · intro c hc
        obtain ⟨b, hb, rfl⟩ := List.mem_map.1 hc
        rw [Utf8.toNat_ofNat_octet]
        exact hvisible b hb
    · rintro ⟨text, hvalue, hvisible, hnames⟩
      obtain rfl := Option.some.inj hvalue
      have hascii : ∀ c ∈ text, c.toNat < 0x80 := fun c hc => by
        have := hvisible c hc
        omega
      refine ⟨fun b hb => ?_, by rwa [Utf8.toLatin_encode hascii]⟩
      obtain ⟨c, hc, hoctet⟩ := List.mem_flatMap.1 hb
      rw [Utf8.encodeChar_ascii (hascii c hc), List.mem_singleton] at hoctet
      have hcode : b.toNat = c.toNat := by
        rw [hoctet]
        exact Utf8.toNat_octet (by have := hascii c hc; omega)
      simpa [hcode] using hvisible c hc

/-- The values that say nothing of a refusal. -/
def IsSilent (value : Json) : Prop :=
  value = .null ∨ value = .bool false ∨ value = .string ""

/-- What a value says: a text itself, every other value in its compact form. -/
def said : Json → String
  | .string s => s
  | value => value.text

/-- Whether a value is an object in which `name` stands for `value`. -/
def HasMember (body : Json) (name : String) (value : Json) : Prop :=
  ∃ members, body = .object members ∧ (name, value) ∈ members

/-- Whether `text` is what a JSON answer tells: what its member `error` says, or else its member
`message`, or else the whole of it. -/
structure IsToldBy (body : Json) (text : String) : Prop where
  error : ∀ value, HasMember body "error" value → ¬IsSilent value → text = said value
  message : (∀ value, HasMember body "error" value → IsSilent value) →
    ∀ value, HasMember body "message" value → ¬IsSilent value → text = said value
  whole : (∀ value, HasMember body "error" value → IsSilent value) →
    (∀ value, HasMember body "message" value → IsSilent value) → text = body.text

/-- A member that says something is what it says. -/
theorem memberText?_some (value : Json) :
    (IsSilent value ∧ memberText? (some value) = none) ∨
      (¬IsSilent value ∧ memberText? (some value) = some (said value)) := by
  unfold IsSilent
  cases value with
  | null => exact Or.inl ⟨by simp, rfl⟩
  | bool b => cases b with
    | false => exact Or.inl ⟨by simp, rfl⟩
    | true => exact Or.inr ⟨by simp, rfl⟩
  | string s =>
    by_cases hs : s = ""
    · subst hs
      exact Or.inl ⟨by simp, rfl⟩
    · exact Or.inr ⟨by simp [hs], by simp [memberText?, said]⟩
  | number | array | object => exact Or.inr ⟨by simp, rfl⟩

/-- What says something says it in some text. -/
theorem said_ne_empty {value : Json} (h : ¬IsSilent value) : said value ≠ "" := by
  cases value with
  | string s =>
    intro hs
    exact h (Or.inr (Or.inr (congrArg Json.string hs)))
  | null | bool | number | array | object => exact Json.text_ne_empty _

/-- In a value that was read, a member is found by its name. -/
theorem hasMember_iff {body : Json} {levels : Nat} (hbody : Json.IsOrdered levels body)
    (name : String) (value : Json) :
    HasMember body name value ↔ body.member? name = some value := by
  cases body with
  | object members =>
    rw [Json.member?_of_inOrder (Json.inOrder_of_sorted hbody.sorted)]
    refine ⟨?_, fun h => ⟨members, rfl, h⟩⟩
    rintro ⟨_, hmembers, h⟩
    obtain rfl := Json.object.inj hmembers
    exact h
  | null | bool | number | string | array =>
    refine ⟨?_, fun h => absurd h (by simp [Json.member?])⟩
    rintro ⟨_, hmembers, -⟩
    exact absurd hmembers (by simp)

/-- A member has a text, or each of its values is silent. -/
theorem memberText?_cases {body : Json} {levels : Nat} (hbody : Json.IsOrdered levels body)
    (name : String) :
    ((∀ value, HasMember body name value → IsSilent value) ∧
      memberText? (body.member? name) = none) ∨
    ∃ text, memberText? (body.member? name) = some text ∧ text ≠ "" ∧
      (∃ value, HasMember body name value ∧ ¬IsSilent value) ∧
      ∀ value, HasMember body name value → text = said value := by
  simp only [hasMember_iff hbody]
  cases body.member? name with
  | none => exact Or.inl ⟨fun value hvalue => absurd hvalue (by simp), rfl⟩
  | some value =>
    rcases memberText?_some value with ⟨hsilent, hnone⟩ | ⟨hspeaks, htext⟩
    · refine Or.inl ⟨fun other hother => ?_, hnone⟩
      rwa [← Option.some.inj hother]
    · refine Or.inr ⟨_, htext, said_ne_empty hspeaks, ⟨value, rfl, hspeaks⟩,
        fun other hother => ?_⟩
      rw [Option.some.inj hother]

/-- What is taken from a JSON answer is what it tells, and not empty. -/
theorem isToldBy_jsonText {body : Json} {levels : Nat} (hbody : Json.IsOrdered levels body) :
    IsToldBy body (jsonText body) ∧ jsonText body ≠ "" := by
  unfold jsonText
  rcases memberText?_cases hbody "error" with
    ⟨herror, hnone⟩ | ⟨text, htext, hsome, ⟨error, hmember, hspeaks⟩, hsaid⟩
  · rw [hnone]
    rcases memberText?_cases hbody "message" with
      ⟨hmessage, hnone⟩ | ⟨text, htext, hsome, ⟨message, hmember, hspeaks⟩, hsaid⟩
    · rw [hnone]
      exact ⟨⟨fun v hv hs => absurd (herror v hv) hs, fun _ v hv hs => absurd (hmessage v hv) hs,
        fun _ _ => rfl⟩, Json.text_ne_empty body⟩
    · rw [htext]
      exact ⟨⟨fun v hv hs => absurd (herror v hv) hs, fun _ v hv _ => hsaid v hv,
        fun _ hsilent => absurd (hsilent message hmember) hspeaks⟩, hsome⟩
  · rw [htext]
    exact ⟨⟨fun v hv _ => hsaid v hv, fun hsilent => absurd (hsilent error hmember) hspeaks,
      fun hsilent => absurd (hsilent error hmember) hspeaks⟩, hsome⟩

/-! ## All answers -/

/-- Whether `text` is what is said of an action when the answer says nothing. -/
def IsFallback (action : String) (status : Status) (text : String) : Prop :=
  ∃ title, status.IsTitle title ∧ text = "Failed to " ++ action ++ ": " ++ title

/-- Whether `text` is the message of an answer that refuses an action. -/
structure IsMessage (action : String) (r : Response) (text : String) : Prop where
  nonempty : text ≠ ""
  /-- An answer that says it is JSON, and is, tells what its members or the whole of it tell. -/
  json : IsTypedJson r → ∀ body value, r.body.whole? = some body →
    Json.ofBytes? body = .ok value → IsToldBy value text
  /-- If it is not, there is only the status to tell. -/
  unparsable : IsTypedJson r → (∀ body value, r.body.whole? = some body →
    Json.ofBytes? body ≠ .ok value) → IsFallback action r.status text
  /-- Every other answer is its text. -/
  plain : ¬IsTypedJson r → ∀ body, r.body.whole? = some body → body ≠ [] →
    text = String.ofList (Utf8.lossy body)
  /-- If it has none, there is only the status to tell. -/
  silent : ¬IsTypedJson r → (∀ body, r.body.whole? = some body → body = []) →
    IsFallback action r.status text

theorem isFallback_fallback (action : String) (status : Status) :
    IsFallback action status (fallback action status) :=
  ⟨status.title, status.isTitle_title, rfl⟩

theorem fallback_ne_empty (action : String) (status : Status) : fallback action status ≠ "" := by
  intro hempty
  have hlead := (String.append_eq_empty_iff.1 hempty).1
  have hlead := (String.append_eq_empty_iff.1 hlead).1
  exact absurd (String.append_eq_empty_iff.1 hlead).1 (by decide)

/-- Every answer has its message. -/
theorem isMessage_message (action : String) (r : Response) :
    IsMessage action r (message action r) := by
  have hfallback := isFallback_fallback action r.status
  have hsome := fallback_ne_empty action r.status
  unfold message
  cases hwhole : r.body.whole? with
  | none =>
    refine ⟨hsome, ?_, fun _ _ => hfallback, ?_, fun _ _ => hfallback⟩
    · exact fun _ body value hbody => absurd (hwhole ▸ hbody) (by simp)
    · exact fun _ body hbody => absurd (hwhole ▸ hbody) (by simp)
  | some body =>
    have hsame : ∀ other, r.body.whole? = some other → other = body :=
      fun other hother => Option.some.inj (hother.symm.trans hwhole)
    dsimp only
    by_cases htyped : saysJson r = true
    · have htyped' := (saysJson_iff r).1 htyped
      rw [if_pos htyped]
      cases hread : Json.ofBytes? body with
      | error f =>
        refine ⟨hsome, ?_, fun _ _ => hfallback, fun h => absurd htyped' h,
          fun h => absurd htyped' h⟩
        intro _ other value hother hvalue
        rw [hsame other hother, hread] at hvalue
        exact absurd hvalue (by simp)
      | ok value =>
        obtain ⟨htold, hsome⟩ := isToldBy_jsonText (Json.isOrdered_of_ofBytes? hread)
        refine ⟨hsome, ?_, fun _ hnone => absurd hread (hnone body value hwhole),
          fun h => absurd htyped' h, fun h => absurd htyped' h⟩
        intro _ other again hother hagain
        rw [hsame other hother, hread] at hagain
        rwa [← Except.ok.inj hagain]
    · have htyped' := fun h => htyped ((saysJson_iff r).2 h)
      rw [if_neg htyped]
      by_cases hempty : body = []
      · rw [if_pos hempty]
        refine ⟨hsome, fun h => absurd h htyped', fun h => absurd h htyped', ?_,
          fun _ _ => hfallback⟩
        intro _ other hother hother'
        exact absurd ((hsame other hother).trans hempty) hother'
      · rw [if_neg hempty]
        refine ⟨?_, fun h => absurd h htyped', fun h => absurd h htyped', ?_, ?_⟩
        · exact fun h => Utf8.lossy_ne_nil hempty (by simpa using h)
        · intro _ other hother _
          rw [hsame other hother]
        · exact fun _ hnone => absurd (hnone body hwhole) hempty

end Refusal

namespace Client

variable {σ : Type}

/-- If the answer that a task ends with is no success, the task fails with the status and the
message of that answer, and so does every operation that carries it out. -/
theorem refused_with_message {c : Client} {task : Task} {call : Call}
    (hcall : c.ready? task = .ok call) {net : Network σ} {s : σ} {r : Response}
    (hr : (agent.follow net call.url Agent.maxRedirects call s).1 = .ok r)
    (hrefuses : ¬(200 ≤ r.status.code ∧ r.status.code < 300)) :
    ∃ text, (c.perform net task s).1 = .error (.refused r.status text) ∧
      Refusal.IsMessage task.action r text ∧
      ∀ op : Operation, op.task = task → (op.run c net s).1 = some (.refused r.status text) := by
  have hfailed : ¬r.status.isSuccess = true := by
    rwa [Status.isSuccess, Bool.and_eq_true, decide_eq_true_eq, decide_eq_true_eq]
  have hperform : (c.perform net task s).1 =
      .error (.refused r.status (Refusal.message task.action r)) := by
    rw [perform_eq, hcall]
    dsimp only
    rw [hr]
    exact if_neg hfailed
  refine ⟨_, hperform, Refusal.isMessage_message task.action r, ?_⟩
  rintro op rfl
  exact (op.passesOn_run c net s).fault _ hperform

/-- A refusal whose member `error` is empty, and whose member `message` is an object. -/
theorem refused_with_message_member :
    let net := Backend.network fun _ b => some b
    let answer : Response := ⟨.notFound,
      [⟨"content-type", Utf8.ofString "application/json; charset=utf-8", false⟩],
      .sized (Utf8.ofString "\x7b\"error\":\"\",\"message\":\x7b\"code\": 7\x7d\x7d")⟩
    let backend : Backend := ⟨fun _ => true, [], answer, []⟩
    (Operation.listNamespaces.run (Client.of "http://ui.example") net backend).1 =
      some (.refused .notFound "\x7b\"code\":7\x7d") := by
  intro net answer backend
  obtain ⟨call, hcall, -⟩ := exists_ready_namespaces
  -- the answer is no redirect, so the call ends with it
  have hr : (agent.follow net call.url Agent.maxRedirects call backend).1 =
      .ok (Agent.reported net call.method answer) := by
    have hsent : net.deliver call.wire backend = (some answer, _) := rfl
    rw [Agent.follow_of_sent hsent, Agent.next?_eq_none (by decide)]
  have hmethod : call.method = .get := (ready?_ok hcall).1
  rw [hmethod] at hr
  obtain ⟨text, -, hmessage, hrun⟩ := refused_with_message hcall hr (by decide)
  have hvalue : Json.ofBytes? (Utf8.ofString
      "\x7b\"error\":\"\",\"message\":\x7b\"code\": 7\x7d\x7d") = .ok (.object
        [("error", .string ""), ("message", .object [("code", .ofNat 7)])]) := rfl
  have hvisible : "application/json; charset=utf-8".toList.all (fun c =>
      decide (c.toNat = 0x09 ∨ 0x20 ≤ c.toNat ∧ c.toNat < 0x7F)) = true := by decide
  have htyped : Refusal.IsTypedJson (Agent.reported net .get answer) :=
    ⟨"application/json; charset=utf-8".toList, rfl,
      fun c hc => of_decide_eq_true (List.all_eq_true.1 hvisible c hc), [],
      "; charset=utf-8".toList, rfl⟩
  have htold := hmessage.json htyped _ _ rfl hvalue
  have hsilent : ∀ value, Refusal.HasMember (.object [("error", .string ""),
      ("message", .object [("code", .ofNat 7)])]) "error" value → Refusal.IsSilent value := by
    rintro value ⟨members, hmembers, hmem⟩
    obtain rfl := Json.object.inj hmembers
    rcases List.mem_cons.1 hmem with hmem | hmem
    · exact Or.inr (Or.inr (Prod.mk.inj hmem).2)
    · exact absurd (Prod.mk.inj (List.mem_singleton.1 hmem)).1 (by decide)
  have hmember : text = "\x7b\"code\":7\x7d" :=
    htold.message hsilent (.object [("code", .ofNat 7)])
      ⟨_, rfl, List.mem_cons_of_mem _ List.mem_cons_self⟩ (by simp [Refusal.IsSilent])
  rw [hrun .listNamespaces rfl, hmember]
  rfl

end Client

end RegistryConsole
