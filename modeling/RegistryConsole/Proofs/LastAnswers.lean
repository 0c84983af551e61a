import RegistryConsole.Proofs.Codings
import RegistryConsole.Proofs.Runs

/-! # The last answer to a forwarded call

A call that is forwarded comes back with an answer exactly if its run ends with one. That answer is
the last one that the registry gave, with its status, with the values that the agent reports of
every name but those of the codings, and with the body that the agent yields. A body that cannot be
read to its end does not end in what comes back either. -/

namespace RegistryConsole

variable {σ : Type}

namespace Agent

variable {agent : Agent} {net : Network σ} {first : Url} {left : Nat} {c : Call} {s last : σ}
  {steps : List (Exchange σ)} {result : Except CallFault Response} {method : Method}

/-- There is one run of a call: what following the call comes to. -/
theorem Run.follow_eq (h : agent.Run net first left c s steps result last) :
    agent.follow net first left c s = (result, last) := by
  induction h with
  | lost hsent =>
    unfold follow
    rw [hsent]
  | ended hsent hnext =>
    rw [follow_of_sent hsent, hnext]
  | limited hsent hnext => rw [follow_of_sent hsent, hnext]
  | barred hsent hnext hhttp =>
    rw [follow_of_sent hsent, hnext]
    dsimp only
    rw [if_neg (by rw [hhttp]; simp)]
  | redirected hsent hnext hhttp _ ih =>
    rw [follow_of_sent hsent, hnext]
    dsimp only
    rw [if_pos hhttp, ih]

/-- What a run reports is the answer to its last request, after which nothing is sent. -/
theorem Run.reported_eq {r : Response} (h : agent.Run net first left c s steps (.ok r) last) :
    ∃ e answered, steps.getLast? = some e ∧
      net.deliver e.request e.before = (some answered, last) ∧
      r = reported net e.request.method answered := by
  generalize hresult : Except.ok r = result at h
  induction h with
  | lost | limited | barred => exact absurd hresult (by simp)
  | @ended _ c s _ answer hsent =>
    exact ⟨⟨c.wire, s⟩, answer, rfl, hsent, Except.ok.inj hresult⟩
  | @redirected _ c _ s _ _ _ later _ _ _ _ _ ih =>
    obtain ⟨e, answered, hlast, hsent, hr⟩ := ih hresult
    refine ⟨e, answered, ?_, hsent, hr⟩
    rw [List.getLast?_cons, hlast]
    rfl

/-! ## What is reported of an answer -/

/-- The agent reports what the registry says of every name, except that a body with its coding
undone has neither the name of the coding nor the length that it had before. -/
theorem reported_values (net : Network σ) (method : Method) (answered : Response) {n : String}
    (hcoding : n ≠ "content-encoding") (hlength : n ≠ "content-length") :
    (reported net method answered).headers.values n = answered.headers.values n := by
  unfold reported decoded
  split
  · rw [receive_headers]
  · dsimp only
    rw [Headers.values_without, if_neg (by simp [hcoding, hlength]), receive_headers]

/-- What breaks off has no end without its coding either. -/
theorem whole?_undone_of_broken {body : MessageBody} (h : body.whole? = none)
    (undo : Coding → Bytes → Option Bytes) (coding : Coding) :
    (undone undo coding body).whole? = none := by
  unfold undone
  split
  · exact h
  · split
    · rw [h]
      rfl
    · rfl

/-- Where there is no body, there is none in a coding either. -/
theorem whole?_reported_of_bare (net : Network σ) {answered : Response}
    (hbare : Response.IsBare method answered.status) :
    (reported net method answered).body.whole? = some [] := by
  have hreceived := receive_body_of_bare (r := answered) hbare
  unfold reported decoded
  split
  · rw [hreceived]
    rfl
  · dsimp only
    rw [hreceived]
    rfl

/-- A body that breaks off on the way is reported as one that breaks off. -/
theorem whole?_reported_of_broken (net : Network σ) {answered : Response}
    (hbody : ¬Response.IsBare method answered.status) (h : answered.body.whole? = none) :
    (reported net method answered).body.whole? = none := by
  have hreceived : (receive method answered).body.whole? = none := by
    rw [receive_body hbody, h]
    rfl
  unfold reported decoded
  split
  · exact hreceived
  · exact whole?_undone_of_broken hreceived net.undo _

/-- So is a body that is none in the coding that the header names. -/
theorem whole?_reported_of_undecodable {net : Network σ} {answered : Response} {coding : Coding}
    (hbody : ¬Response.IsBare method answered.status) (hsome : answered.body.received ≠ [])
    (hcoding : (answered.headers.first? "content-encoding").bind Coding.ofName? = some coding)
    (hundo : net.undo coding answered.body.received = none) :
    (reported net method answered).body.whole? = none := by
  rw [reported, decoded, receive_headers, hcoding]
  dsimp only
  rw [undone, receive_body hbody]
  cases hreceived : answered.body.received with
  | nil => exact absurd hreceived hsome
  | cons b rest =>
    rw [hreceived] at hundo
    dsimp only [MessageBody.received]
    rw [hundo]
    rfl

end Agent

namespace Gateway

variable {g : Gateway} {net : Network σ} {now : Int64} {call : ForwardCall} {s last : σ}
  {e : Exchange σ} {answered : Response} {method : Method}

/-- Whether the run of a forwarded call ends with `answered`, the answer to the request `e`, and
leaves the network as `last`. -/
inductive EndsWith (g : Gateway) (net : Network σ) (now : Int64) (call : ForwardCall) (s : σ)
    (e : Exchange σ) (answered : Response) (last : σ) : Prop
  | intro {c : Call} {steps : List (Exchange σ)} {r : Response}
      (hfirst : g.firstCall? now call = .ok c)
      (hrun : (agentFor call.method).Run net c.url Agent.maxRedirects c s steps (.ok r) last)
      (hlast : steps.getLast? = some e)
      (hanswered : net.deliver e.request e.before = (some answered, last))

/-- Whether `r` has everything of the answer to a request with the method `method`: the whole report
of the agent, without what concerns only the connection. -/
structure KeepsAll (net : Network σ) (method : Method) (answered r : Response) : Prop
    extends IsRelayed (Agent.reported net method answered) r where
  sameStatus : r.status = answered.status
  /-- The values are the registry's own. Only of a length may the agent report less. -/
  sameValues : ∀ n, n ∉ responseOnly → n ≠ "content-length" →
    r.headers.values n = answered.headers.values n
  /-- What has no body comes back without one. -/
  bare : Response.IsBare method answered.status → r.body.whole? = some []
  /-- What broke off on the way does not end. -/
  broken : ¬Response.IsBare method answered.status → answered.body.whole? = none →
    r.body.whole? = none
  /-- Nor does what cannot be read in its coding. -/
  undecodable : ∀ coding,
    (answered.headers.first? "content-encoding").bind Coding.ofName? = some coding →
    ¬Response.IsBare method answered.status → answered.body.received ≠ [] →
    net.undo coding answered.body.received = none → r.body.whole? = none

/-- What is relayed of a report has everything of the answer. -/
theorem keepsAll_of_isRelayed {r : Response}
    (h : IsRelayed (Agent.reported net method answered) r) : KeepsAll net method answered r where
  toIsRelayed := h
  sameStatus := by rw [h.status, Agent.reported_status]
  sameValues := by
    intro n hn hlength
    have hcoding : n ≠ "content-encoding" := fun heq => hn (heq ▸ by decide)
    rw [h.kept n hn, Agent.reported_values net method answered hcoding hlength]
  bare := by
    intro hbare
    rw [h.body, Agent.whole?_reported_of_bare net hbare]
  broken := by
    intro hbody hbroken
    rw [h.body, Agent.whole?_reported_of_broken net hbody hbroken]
  undecodable := by
    intro coding hcoding hbody hsome hundo
    rw [h.body, Agent.whole?_reported_of_undecodable hbody hsome hcoding hundo]

/-- A call whose run ends with an answer comes back with what the gateway makes of it. -/
theorem EndsWith.forward_eq (h : EndsWith g net now call s e answered last) :
    g.forward net now call s =
      (.ok (answer call.method (Agent.reported net e.request.method answered)), last) := by
  obtain ⟨hfirst, hrun, hlast, hanswered⟩ := h
  -- the run has one last request, and that one has one answer
  obtain ⟨e', answered', hlast', hanswered', rfl⟩ := hrun.reported_eq
  obtain rfl := Option.some.inj (hlast.symm.trans hlast')
  obtain rfl := Option.some.inj (congrArg Prod.fst (hanswered.symm.trans hanswered'))
  rw [Gateway.forward_eq, hfirst]
  dsimp only
  rw [hrun.follow_eq]
  rfl

/-- Nothing comes back of a call but what its run ends with. -/
theorem exists_endsWith_of_forward {r : Response} (h : g.forward net now call s = (.ok r, last)) :
    ∃ e answered, EndsWith g net now call s e answered last := by
  rw [Gateway.forward_eq] at h
  split at h
  · exact absurd (congrArg Prod.fst h) (by simp)
  · next c hfirst =>
    obtain ⟨steps, hrun⟩ := (agentFor call.method).exists_run net c.url Agent.maxRedirects c s
    dsimp only at h
    cases hfollow : (agentFor call.method).follow net c.url Agent.maxRedirects c s with
    | mk result t =>
      rw [hfollow] at h hrun
      obtain rfl : t = last := congrArg Prod.snd h
      cases result with
      | error f => exact absurd (congrArg Prod.fst h) (by simp [finished])
      | ok reported =>
        obtain ⟨e, answered, hlast, hanswered, -⟩ := hrun.reported_eq
        exact ⟨e, answered, hfirst, hrun, hlast, hanswered⟩

/-- A forwarded call comes back with an answer exactly if its run ends with one, and unless that is
the redirect of an upload, nothing of it is lost. -/
theorem forward_keepsAll (g : Gateway) (net : Network σ) (now : Int64) (call : ForwardCall)
    (s : σ) :
    (∀ e answered last, EndsWith g net now call s e answered last →
      ∃ r, g.forward net now call s = (.ok r, last) ∧
        (¬(call.method = .put ∧ answered.status.isRedirection = true) →
          KeepsAll net e.request.method answered r)) ∧
    ∀ r last, g.forward net now call s = (.ok r, last) →
      ∃ e answered, EndsWith g net now call s e answered last := by
  constructor
  · intro e answered last hends
    refine ⟨_, hends.forward_eq, fun hrelayed => keepsAll_of_isRelayed (isRelayed_answer ?_)⟩
    rwa [Agent.reported_status]
  · intro r last hforward
    exact exists_endsWith_of_forward hforward

/-- A page that sets two cookies and breaks off comes back with both, and breaks off. -/
theorem forward_keepsAll_broken :
    let answered : Response := ⟨.ok, [⟨"set-cookie", Utf8.ofString "a=1", false⟩,
      ⟨"transfer-encoding", Utf8.ofString "chunked", false⟩,
      ⟨"set-cookie", Utf8.ofString "b=2", false⟩], .streamed [0x7B] false⟩
    let net : Network Unit := .standing answered fun _ _ => none
    ∃ e r, EndsWith exampleGateway net 0 examplePage () e answered () ∧
      exampleGateway.forward net 0 examplePage () = (.ok r, ()) ∧ r.status = .ok ∧
      r.headers.values "set-cookie" = [Utf8.ofString "a=1", Utf8.ofString "b=2"] ∧
      r.headers.values "transfer-encoding" = [] ∧ r.body.whole? = none := by
  intro answered net
  obtain ⟨c, hfirst, hmethod⟩ := exists_first_examplePage
  have hends : EndsWith exampleGateway net 0 examplePage () ⟨c.wire, ()⟩ answered () :=
    ⟨hfirst, .ended rfl (Agent.next?_eq_none (by decide) ..), rfl, rfl⟩
  obtain ⟨r, hr, hkeeps⟩ :=
    (forward_keepsAll exampleGateway net 0 examplePage ()).1 _ _ _ hends
  have hall := hkeeps (by decide)
  have hbare : ¬Response.IsBare c.wire.method answered.status := by
    show ¬Response.IsBare c.method .ok
    rw [hmethod]
    decide
  exact ⟨_, r, hends, hr, hall.sameStatus, hall.sameValues _ (by decide) (by decide),
    hall.dropped _ (by decide), hall.broken hbare rfl⟩

end Gateway

end RegistryConsole
