import RegistryConsole.Http.Wire
import RegistryConsole.Proofs.Answers
import RegistryConsole.Proofs.Requests

/-! # Codings

A body may come in codings, and the header names them. An answer that names none is taken for what
its body says, so the names may be left out only if all the codings are undone. The agent undoes at
most one, the first that is named, and only by the exact name. -/

namespace RegistryConsole

/-! ## What a header announces -/

/-- The codings that a value names, in the order in which they were applied. Case is of no matter,
and one name stands for no coding. -/
def Coding.announced (value : Bytes) : List Bytes :=
  ((value.splitOnP (· == 0x2C)).map fun name => Wire.trim (name.map lowerOctet)).filter
    fun name => name ≠ [] ∧ name ≠ Utf8.ofString "identity"

/-- A name by which the agent knows a coding announces just that one. -/
theorem Coding.announced_of_ofName? {name : Bytes} {coding : Coding}
    (h : ofName? name = some coding) : announced name = [name] := by
  rw [ofName?, Option.map_eq_some_iff] at h
  obtain ⟨known, hfind, -⟩ := h
  have hmem := List.mem_of_find?_eq_some hfind
  have hname : Utf8.ofString known.1 = name := by simpa using List.find?_some hfind
  subst hname
  rw [names] at hmem
  rcases List.mem_cons.1 hmem with rfl | hmem
  · decide
  · rcases List.mem_cons.1 hmem with rfl | hmem
    · decide
    · obtain rfl := List.mem_singleton.1 hmem
      decide

namespace Headers

variable {h : Headers}

/-- The codings that a header announces, in the order in which they were applied. -/
def codings (h : Headers) : List Bytes :=
  (h.values "content-encoding").flatMap Coding.announced

/-- The codings that the agent undoes. -/
def undone (h : Headers) : List Bytes :=
  ((h.first? "content-encoding").filter fun name => (Coding.ofName? name).isSome).toList

/-- Whatever is undone is announced, before all the rest. -/
theorem exists_codings_eq (h : Headers) : ∃ rest, h.codings = h.undone ++ rest := by
  rw [codings, undone, first?_eq_head?]
  cases h.values "content-encoding" with
  | nil => exact ⟨[], rfl⟩
  | cons first later =>
    rw [List.head?_cons]
    cases hcoding : Coding.ofName? first with
    | none =>
      rw [Option.filter_some, hcoding]
      exact ⟨_, rfl⟩
    | some coding =>
      rw [Option.filter_some, hcoding, List.flatMap_cons, Coding.announced_of_ofName? hcoding]
      exact ⟨_, rfl⟩

/-- Everything that is announced is undone as soon as it is not more. -/
theorem codings_eq_undone_of_length (hlength : h.codings.length = h.undone.length) :
    h.codings = h.undone := by
  obtain ⟨rest, hrest⟩ := h.exists_codings_eq
  have hnil : rest = [] := by
    rw [hrest, List.length_append] at hlength
    exact List.length_eq_zero_iff.1 (by omega)
  rw [hrest, hnil, List.append_nil]

end Headers

/-! ## Bodies without their codings -/

/-- The body before a coding was applied. Nothing is the coding of nothing, and a body that is none
in the coding breaks off. -/
def MessageBody.undone (undo : Bytes → Option Bytes) (body : MessageBody) : MessageBody :=
  match body.received with
  | [] => body
  | bytes =>
    match undo bytes with
    | some plain => .streamed plain body.whole?.isSome
    | none => .streamed [] false

/-- The body before any of the codings was applied: the last of them is undone first. -/
def MessageBody.plain (meaning : Bytes → Bytes → Option Bytes) (codings : List Bytes)
    (body : MessageBody) : MessageBody :=
  codings.foldr (fun name body => body.undone (meaning name)) body

/-- Whether the agent undoes codings in the way that their names mean. -/
def Network.Undoes {σ : Type} (net : Network σ) (meaning : Bytes → Bytes → Option Bytes) : Prop :=
  ∀ name coding, Coding.ofName? name = some coding → net.undo coding = meaning name

/-- The network on which every request gets the same answer. -/
def Network.standing (answered : Response) (undo : Coding → Bytes → Option Bytes) : Network Unit :=
  ⟨fun _ s => (some answered, s), undo⟩

variable {σ : Type} {net : Network σ} {meaning : Bytes → Bytes → Option Bytes}

/-- The agent reports the body without the codings that it undoes. -/
theorem Agent.reported_body (hundoes : net.Undoes meaning) (method : Method)
    (answered : Response) :
    (reported net method answered).body =
      (receive method answered).body.plain meaning answered.headers.undone := by
  rw [reported, decoded, receive_headers, Headers.undone]
  cases answered.headers.first? "content-encoding" with
  | none => rfl
  | some name =>
    cases hcoding : Coding.ofName? name with
    | none =>
      rw [Option.bind_some, hcoding, Option.filter_some, hcoding]
      rfl
    | some coding =>
      rw [Option.bind_some, hcoding, Option.filter_some, hcoding]
      dsimp only
      rw [undone, hundoes name coding hcoding]
      rfl

/-- What a coding may mean to tell how often it was undone: each time adds an octet. -/
def countingMeaning : Bytes → Bytes → Option Bytes :=
  fun _ b => some (b ++ [0])

/-- A body that is there tells how many codings were undone. -/
theorem MessageBody.length_plain_counting (codings : List Bytes) {body : MessageBody}
    (h : body.received ≠ []) :
    (body.plain countingMeaning codings).received.length =
      body.received.length + codings.length := by
  -- every coding that is undone adds one octet, so there is always something left to undo
  induction codings with
  | nil => rfl
  | cons name codings ih =>
    have hstep : body.plain countingMeaning (name :: codings) =
        (body.plain countingMeaning codings).undone (countingMeaning name) := rfl
    rw [hstep, undone]
    cases hreceived : (body.plain countingMeaning codings).received with
    | nil =>
      rw [hreceived, List.length_nil] at ih
      exact absurd (List.length_eq_zero_iff.1 (by omega)) h
    | cons first rest =>
      rw [hreceived] at ih
      simp only [countingMeaning, received, List.length_append, List.length_cons] at ih ⊢
      simp only [List.length_nil]
      omega

/-- Without anything in it, a body has no coding. -/
theorem MessageBody.received_plain_of_nil (codings : List Bytes) {body : MessageBody}
    (h : body.received = []) : (body.plain meaning codings).received = [] := by
  induction codings with
  | nil => exact h
  | cons name codings ih =>
    have hstep : body.plain meaning (name :: codings) =
        (body.plain meaning codings).undone (meaning name) := rfl
    rw [hstep, undone, ih]
    exact ih

namespace Gateway

variable {g : Gateway} {now : Int64} {call : ForwardCall}

/-! ## Truthful answers -/

/-- A gateway that issues tokens. -/
def exampleGateway : Gateway := ⟨"http://registry.example", exampleIssuer⟩

/-- A call for a page. -/
def examplePage : ForwardCall := .reading "ns/a.json" none

/-- The address of the page is one that can be called. -/
theorem exists_url_examplePage :
    ∃ u, Url.ofText (exampleGateway.targetUrl examplePage.path examplePage.query) = .ok u ∧
      u.IsCallable := by
  have hurl : exampleGateway.targetUrl examplePage.path examplePage.query =
      "http://registry.example/ns/a.json" := by decide
  have hcallable := (Url.isCallable_of_user_eq (u := ⟨"http".toList, [], none,
    some "registry.example".toList, none, .segments ["ns".toList, "a.json".toList], none, none⟩)
    (by decide) (by decide) (by decide) (by decide)).1
  exact ⟨_, by rw [hurl]; rfl, hcallable⟩

/-- So there is a call that is sent first for the page, and it reads. -/
theorem exists_first_examplePage :
    ∃ c, exampleGateway.firstCall? 0 examplePage = .ok c ∧ c.method = .get := by
  obtain ⟨token, htoken⟩ := exists_token_of_exampleIssuer
  obtain ⟨u, hu, hcallable⟩ := exists_url_examplePage
  obtain ⟨c, hc, hmethod, -⟩ := exists_firstCall? (g := exampleGateway) examplePage htoken hu
    hcallable
  exact ⟨c, hc, hmethod⟩

/-- Whether what comes back may be taken for what it says: unless it announces codings, its body is
that of the registry's answer with every coding undone that was announced there. -/
def IsTruthful (meaning : Bytes → Bytes → Option Bytes) (method : Method) (answered r : Response) :
    Prop :=
  r.headers.values "content-encoding" = [] →
    r.body = (Agent.receive method answered).body.plain meaning answered.headers.codings

/-- An answer is relayed with the codings undone that the agent undoes, and announces none. -/
theorem IsRelayed.plain {method : Method} {answered r : Response} (hundoes : net.Undoes meaning)
    (h : IsRelayed (Agent.reported net method answered) r) :
    r.headers.values "content-encoding" = [] ∧
      r.body = (Agent.receive method answered).body.plain meaning answered.headers.undone := by
  refine ⟨h.dropped _ (by decide), ?_⟩
  rw [h.body, Agent.reported_body hundoes]

/-- An answer that leads nowhere comes back. -/
theorem forward_of_answered {c : Call} {s s' : σ} {answered : Response}
    (hfirst : g.firstCall? now call = .ok c)
    (hsent : net.deliver c.wire s = (some answered, s'))
    (hend : c.next? (Agent.receive c.method answered) = none) :
    g.forward net now call s =
      (.ok (answer call.method (Agent.reported net c.method answered)), s') := by
  have hnext : (if (agentFor call.method).follows then
      c.next? (Agent.receive c.method answered) else none) = none := by
    rw [hend, ite_self]
  rw [forward_eq, hfirst]
  dsimp only
  unfold Agent.maxRedirects Agent.follow
  rw [hsent]
  dsimp only
  rw [hnext]
  rfl

/-- A call that reads comes back with the answer that the registry has for it, without the codings
that the agent undoes, and announces none. -/
theorem exists_forward_of_standing (call : ForwardCall) {answered : Response}
    (hok : answered.status = .ok) {undo : Coding → Bytes → Option Bytes}
    (hundoes : (Network.standing answered undo).Undoes meaning) {u : Url}
    (hget : call.method = .get)
    (hu : Url.ofText (exampleGateway.targetUrl call.path call.query) = .ok u)
    (hcallable : u.IsCallable) :
    ∃ r, exampleGateway.forward (.standing answered undo) 0 call () = (.ok r, ()) ∧
      r.status = .ok ∧ r.headers.values "content-encoding" = [] ∧
      r.body = (Agent.receive .get answered).body.plain meaning answered.headers.undone := by
  obtain ⟨token, htoken⟩ := exists_token_of_exampleIssuer
  obtain ⟨c, hfirst, -⟩ := exists_firstCall? (g := exampleGateway) call htoken hu hcallable
  obtain ⟨_, _, _, _, hc⟩ := isFirstCall_of_firstCall? hfirst
  have hmethod : c.method = .get := hc.method.trans hget
  -- an answer that is no redirect leads nowhere, whatever else is in its header
  have hend : c.next? (Agent.receive c.method answered) = none := by
    apply Call.next?_eq_none
    rw [Agent.receive_status, hok]
    decide
  have hput : ¬(Method.get = .put ∧
      (Agent.reported (.standing answered undo) .get answered).status.isRedirection = true) :=
    fun h => absurd h.1 (by decide)
  have hplain := (isRelayed_answer hput).plain hundoes
  refine ⟨_, forward_of_answered hfirst rfl hend, ?_⟩
  rw [hget, hmethod, answer_status, Agent.reported_status]
  exact ⟨hok, hplain⟩

/-- So it is with the call for the page. -/
theorem exists_examplePage_of_standing {answered : Response} (hok : answered.status = .ok)
    {undo : Coding → Bytes → Option Bytes}
    (hundoes : (Network.standing answered undo).Undoes meaning) :
    ∃ r, exampleGateway.forward (.standing answered undo) 0 examplePage () = (.ok r, ()) ∧
      r.status = .ok ∧ r.headers.values "content-encoding" = [] ∧
      r.body = (Agent.receive .get answered).body.plain meaning answered.headers.undone := by
  obtain ⟨u, hu, hcallable⟩ := exists_url_examplePage
  exact exists_forward_of_standing examplePage hok hundoes rfl hu hcallable

/-- What is relayed of an answer with the header `h` may always be taken for what it says exactly if
`h` announces no other coding than the one that the agent undoes. It may not if a coding is unknown
to the agent, or spelled in another case, or one of several. -/
theorem forward_truthful_iff (h : Headers) :
    h.codings = h.undone ↔
      ∀ (σ : Type) (meaning : Bytes → Bytes → Option Bytes) (net : Network σ),
        net.Undoes meaning →
        ∀ (g : Gateway) (now : Int64) (call : ForwardCall) (s s' : σ) (r : Response),
          g.forward net now call s = (.ok r, s') →
          ¬(call.method = .put ∧ r.status.isRedirection = true) →
          ∃ (last : Call) (t : σ) (answered : Response),
            net.deliver last.wire t = (some answered, s') ∧
            IsRelayed (Agent.reported net last.method answered) r ∧
            (answered.headers = h → IsTruthful meaning last.method answered r) := by
  constructor
  · intro hcodings σ meaning net hundoes g now call s s' r hrun hrelayed
    obtain ⟨last, t, answered, hsent, hr⟩ := exists_isRelayed_of_forward hrun hrelayed
    refine ⟨last, t, answered, hsent, hr, ?_⟩
    rintro rfl -
    rw [(hr.plain hundoes).2, hcodings]
  · intro htruthful
    -- codings that count how often they are undone, and a registry that always answers with `h`
    let undo : Coding → Bytes → Option Bytes := fun _ => countingMeaning []
    let answered : Response := ⟨.ok, h, .sized [0]⟩
    have hundoes : (Network.standing answered undo).Undoes countingMeaning := fun _ _ _ => rfl
    obtain ⟨r, hrun, -, hnone, hundone⟩ := exists_examplePage_of_standing rfl hundoes
    obtain ⟨last, t, answered', hsent, -, hbody⟩ := htruthful Unit countingMeaning _ hundoes _ _ _
      _ _ _ hrun fun hput => absurd hput.1 (by decide)
    obtain rfl : answered = answered' := Option.some.inj (congrArg Prod.fst hsent)
    have hplain := hbody rfl hnone
    have hthere : ∀ method, ¬Response.IsBare method .ok →
        (Agent.receive method answered).body = .streamed [0] true :=
      fun _ hbody => Agent.receive_body hbody
    have hsome : (MessageBody.streamed [0] true).received ≠ [] := List.cons_ne_nil 0 []
    -- the octets of what comes back count the codings that are undone, and those that are announced
    have hcount : r.body.received.length = 1 + h.undone.length := by
      rw [hundone, hthere _ (by decide), MessageBody.length_plain_counting _ hsome]
      rfl
    apply Headers.codings_eq_undone_of_length
    by_cases hbare : Response.IsBare last.method .ok
    · rw [hplain, MessageBody.received_plain_of_nil _ (by
        rw [Agent.receive_body_of_bare hbare]
        rfl), List.length_nil] at hcount
      omega
    · rw [hplain, hthere _ hbare, MessageBody.length_plain_counting _ hsome] at hcount
      exact Nat.add_left_cancel hcount

/-- A page in a coding that the agent does not know comes back still in that coding, and nothing
tells of it. -/
theorem forward_untruthful_of_zstd :
    let frame : Bytes := [0x28, 0xB5, 0x2F, 0xFD, 0x20, 0x02, 0x11, 0x00, 0x00, 0x7B, 0x7D]
    let meaning : Bytes → Bytes → Option Bytes := fun name b =>
      if name = Utf8.ofString "zstd" ∧ b = frame then some (Utf8.ofString "{}") else none
    let answered : Response :=
      ⟨.ok, [⟨"content-encoding", Utf8.ofString "zstd", false⟩], .sized frame⟩
    ∃ r, exampleGateway.forward (.standing answered fun _ _ => none) 0 examplePage () =
        (.ok r, ()) ∧
      r.headers.values "content-encoding" = [] ∧ r.body.whole? = some frame ∧
      (answered.body.plain meaning answered.headers.codings).whole? = some (Utf8.ofString "{}") ∧
      ¬IsTruthful meaning .get answered r := by
  intro frame meaning answered
  have hundoes : (Network.standing answered fun _ _ => none).Undoes meaning := by
    intro name coding hname
    have hzstd : name ≠ Utf8.ofString "zstd" := by
      rintro rfl
      have hunknown : Coding.ofName? (Utf8.ofString "zstd") = none := by decide
      exact absurd (hunknown.symm.trans hname) (by simp)
    funext b
    exact (if_neg fun h => hzstd h.1).symm
  obtain ⟨r, hrun, -, hnone, hbody⟩ := exists_examplePage_of_standing rfl hundoes
  have hframe : r.body = .streamed frame true := by
    rw [hbody]
    decide
  refine ⟨r, hrun, hnone, by rw [hframe]; rfl, by decide, ?_⟩
  intro htruthful
  have hplain := htruthful hnone
  rw [hframe] at hplain
  exact absurd hplain (by decide)

end Gateway

end RegistryConsole
