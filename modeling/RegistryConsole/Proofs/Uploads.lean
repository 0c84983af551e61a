import RegistryConsole.Proofs.Answers
import RegistryConsole.Proofs.Requests

/-! # Uploads

An upload is sent once, to the registry. Its redirect goes back as it came, so that the user's own
program can follow it; every other answer is relayed. No other method is answered in this way. -/

namespace RegistryConsole

variable {σ : Type}

/-- An agent that follows no redirects sends one request, and reports the answer to it. -/
theorem Agent.follow_of_not_follows {agent : Agent} (h : agent.follows = false)
    (net : Network σ) (first : Url) (left : Nat) (c : Call) (s : σ) :
    agent.follow net first left c s =
      match net.deliver c.wire s with
      | (none, t) => (.error (.notSent first), t)
      | (some answered, t) => (.ok (reported net c.method answered), t) := by
  cases left with
  | zero =>
    unfold follow
    cases net.deliver c.wire s with
    | mk answer t =>
      cases answer with
      | none => rfl
      | some answered => simp only [h, Bool.false_eq_true, if_false, reported]
  | succ left =>
    unfold follow
    cases net.deliver c.wire s with
    | mk answer t =>
      cases answer with
      | none => rfl
      | some answered => simp only [h, Bool.false_eq_true, if_false, reported]

namespace Gateway

variable {g : Gateway} {now : Int64} {call : ForwardCall}

/-- Whether `r` is what an upload gets back when the registry has answered it with `answered`. -/
structure AnswersUpload (net : Network σ) (answered r : Response) : Prop where
  status : r.status = answered.status
  /-- A redirect goes back with all that it came with, unless its body is in a coding that the agent
  undoes. A body that breaks off does so here too; one with the status 304 has none. -/
  redirect : 300 ≤ answered.status.code → answered.status.code ≤ 399 →
    (∀ v ∈ answered.headers.first? "content-encoding", Coding.ofName? v = none) →
    (∀ n, r.headers.values n = answered.headers.values n) ∧
      if answered.status.code = 304 then r.body.whole? = some []
      else r.body.received = answered.body.received ∧ r.body.whole? = answered.body.whole?
  /-- Any other answer is relayed. -/
  other : ¬(300 ≤ answered.status.code ∧ answered.status.code ≤ 399) →
    IsRelayed (Agent.reported net .put answered) r

/-- Whether a request goes to the address of a call at the registry. -/
def IsSentTo (g : Gateway) (call : ForwardCall) (w : WireRequest) : Prop :=
  ∃ u, Url.ofText (g.targetUrl call.path call.query) = .ok u ∧
    w.origin = u.origin ∧ w.target = u.target

/-- How an upload may go: what comes of it, what was sent for it, and what is left of the network.
There is no way for it to send a second request. -/
inductive UploadRun (g : Gateway) (net : Network σ) (call : ForwardCall) (s : σ) :
    Except GatewayFault Response → List WireRequest → σ → Prop
  | unsent (f : GatewayFault) : UploadRun g net call s (.error f) [] s
  | failed (f : GatewayFault) {w : WireRequest} {left : σ} (method : w.method = call.method)
      (address : g.IsSentTo call w) (delivered : net.deliver w s = (none, left)) :
      UploadRun g net call s (.error f) [w] left
  | answered {w : WireRequest} {left : σ} {answered r : Response} (method : w.method = call.method)
      (address : g.IsSentTo call w) (delivered : net.deliver w s = (some answered, left))
      (result : AnswersUpload net answered r) : UploadRun g net call s (.ok r) [w] left

/-- An upload that is sent and answered gets an answer. -/
theorem UploadRun.exists_answer {net : Network σ} {s left : σ} {sent : List WireRequest}
    {result : Except GatewayFault Response} (h : UploadRun g net call s result sent left)
    {first : WireRequest} (hfirst : sent.head? = some first) {answered : Response}
    (hanswered : (net.deliver first s).1 = some answered) :
    ∃ r, result = .ok r ∧ sent = [first] ∧ AnswersUpload net answered r := by
  cases h with
  | unsent f => exact absurd hfirst (by simp)
  | failed f _ _ delivered =>
    obtain rfl := Option.some.inj hfirst
    rw [delivered] at hanswered
    exact absurd hanswered (by simp)
  | @answered w _ _ r _ _ delivered result =>
    obtain rfl := Option.some.inj hfirst
    rw [delivered] at hanswered
    obtain rfl := Option.some.inj hanswered
    exact ⟨r, rfl, rfl, result⟩

/-- The first call goes to the address of the forwarded call, unless that is for a tunnel. -/
theorem isSentTo_of_firstCall? {c : Call} (hmethod : call.method ≠ .connect)
    (h : g.firstCall? now call = .ok c) : c.method = call.method ∧ g.IsSentTo call c.wire := by
  obtain ⟨token, u, -, hu, hfirst⟩ := isFirstCall_of_firstCall? h
  have htarget : c.target = c.url.target := Call.target_of_ne (by rwa [hfirst.method])
  have hurl : c.wire.origin = u.origin ∧ c.wire.target = u.target := by
    rw [Call.wire]
    dsimp only
    rw [htarget]
    rcases hfirst.url with h | h
    · rw [h]
      exact ⟨rfl, rfl⟩
    · rw [h]
      exact ⟨rfl, rfl⟩
  exact ⟨hfirst.method, u, hu, hurl⟩

/-- The codes of redirections. -/
theorem isRedirection_iff {status : Status} :
    status.isRedirection = true ↔ 300 ≤ status.code ∧ status.code ≤ 399 := by
  rw [Status.isRedirection, Bool.and_eq_true, decide_eq_true_eq, decide_eq_true_eq,
    Nat.lt_succ_iff]

/-- The answer to an upload comes back as it must. -/
theorem answersUpload_answer (net : Network σ) (answered : Response) :
    AnswersUpload net answered (answer .put (Agent.reported net .put answered)) := by
  constructor
  case status => rw [answer_status, Agent.reported_status]
  case redirect =>
    intro hlow hhigh hcoding
    have hredirection : (Agent.reported net .put answered).status.isRedirection = true := by
      rw [Agent.reported_status]
      exact isRedirection_iff.2 ⟨hlow, hhigh⟩
    rw [answer_of_redirect hredirection, Agent.reported_eq_receive hcoding]
    refine ⟨fun n => by rw [Agent.receive_headers], ?_⟩
    by_cases hbare : answered.status.code = 304
    · rw [if_pos hbare, Agent.receive_body_of_bare (Or.inr (Or.inr (Or.inr hbare)))]
      rfl
    · have hthere : ¬Response.IsBare .put answered.status := by
        rintro (hhead | ⟨hconnect, -⟩ | hcode | hcode)
        · exact absurd hhead (by decide)
        · exact absurd hconnect (by decide)
        · omega
        · exact hbare hcode
      rw [if_neg hbare, Agent.receive_body hthere]
      refine ⟨rfl, ?_⟩
      cases answered.body with
      | sized bytes => rfl
      | streamed bytes complete => cases complete <;> rfl
  case other =>
    intro hcode
    refine isRelayed_answer fun h => hcode ?_
    rw [Agent.reported_status] at h
    exact isRedirection_iff.1 h.2

/-- An upload goes in one of the ways in which it may. -/
theorem uploadRun_of_put (hput : call.method = .put) (g : Gateway) (net : Network σ)
    (now : Int64) (s : σ) :
    let result := g.forward net.recorded now call ([], s)
    UploadRun g net call s result.1 result.2.1 result.2.2 := by
  intro result
  have hresult : result = g.forward net.recorded now call ([], s) := rfl
  rw [forward_eq] at hresult
  cases hfirst : g.firstCall? now call with
  | error f =>
    rw [hfirst] at hresult
    rw [hresult]
    exact .unsent f
  | ok c =>
    have htunnel : call.method ≠ .connect := by
      rw [hput]
      decide
    obtain ⟨hmethod, haddress⟩ := isSentTo_of_firstCall? htunnel hfirst
    -- the agent for uploads follows nothing, so the run is one request and the answer to it
    have hagent : (agentFor call.method).follows = false := by
      rw [hput]
      rfl
    rw [hfirst] at hresult
    dsimp only at hresult
    rw [Agent.follow_of_not_follows hagent] at hresult
    dsimp only [Network.recorded] at hresult
    cases hsent : net.deliver c.wire s with
    | mk delivered left =>
      rw [hsent] at hresult
      cases delivered with
      | none =>
        rw [hresult]
        exact .failed _ hmethod haddress hsent
      | some answered =>
        rw [hmethod, hput] at hresult
        rw [hresult]
        exact .answered hmethod haddress hsent (answersUpload_answer net answered)

/-- An upload is sent once, to its address at the registry, and its redirect is handed back as it
came. With any other method, every answer that comes back is relayed, redirects included. -/
theorem forward_hands_back (g : Gateway) (net : Network σ) (now : Int64) (call : ForwardCall)
    (s : σ) :
    let result := g.forward net.recorded now call ([], s)
    (call.method = .put → UploadRun g net call s result.1 result.2.1 result.2.2) ∧
    (call.method ≠ .put → ∀ r, result.1 = .ok r →
      ∃ (last : Call) (t : σ) (answered : Response),
        net.deliver last.wire t = (some answered, result.2.2) ∧
        IsRelayed (Agent.reported net last.method answered) r) := by
  intro result
  refine ⟨fun hput => uploadRun_of_put hput g net now s, ?_⟩
  intro hother r hr
  have hrun : g.forward net now call s = (.ok r, result.2.2) := by
    rw [← forward_of_recorded, ← hr]
  exact exists_isRelayed_of_forward hrun fun h => hother h.1

/-- An upload that is answered with a redirect, with cookies and a coding that nobody undoes: one
request is sent, and all of the answer comes back. -/
theorem forward_hands_back_redirect :
    let g : Gateway := ⟨"http://registry.example", exampleIssuer⟩
    let net := Backend.network fun _ b => some b
    let redirect : Response := ⟨⟨307⟩, [⟨"location", Utf8.ofString "//store.example/up", false⟩,
      ⟨"set-cookie", [0x61], false⟩, ⟨"content-encoding", Utf8.ofString "zstd", false⟩,
      ⟨"set-cookie", [0x62], false⟩], .sized [0x28, 0xB5]⟩
    let backend : Backend := ⟨fun _ => true, [some redirect], ⟨.ok, [], .empty⟩, []⟩
    let call : ForwardCall := ⟨.put, "ns/big.bin", none, [], [1, 2]⟩
    let result := g.forward net.recorded 0 call ([], backend)
    ∃ w r, result.2.1 = [w] ∧ result.1 = .ok r ∧ r.status = ⟨307⟩ ∧
      (∀ n, r.headers.values n = redirect.headers.values n) ∧
      r.body.whole? = some [0x28, 0xB5] := by
  intro g net redirect backend call result
  have hurl : g.targetUrl "ns/big.bin" none = "http://registry.example/ns/big.bin" := by decide
  obtain ⟨token, htoken⟩ := exists_token_of_exampleIssuer
  obtain ⟨first, hfirst, -⟩ := exists_first_sent (g := g) (u := ⟨"http".toList, [], none,
    some "registry.example".toList, none, .segments ["ns".toList, "big.bin".toList], none, none⟩)
    call (by decide) htoken (by rw [hurl]; rfl) (by decide) (by decide)
    (by decide) (by decide) net backend
  have hresult : result = g.forward net.recorded 0 call ([], backend) := rfl
  have hanswered : (net.deliver first backend).1 = some redirect := rfl
  have hrun := (forward_hands_back g net 0 call backend).1 rfl
  obtain ⟨r, hr, hsent, hanswers⟩ := hrun.exists_answer hfirst hanswered
  obtain ⟨hheaders, hbody⟩ := hanswers.redirect (by decide) (by decide) (by decide)
  rw [hresult]
  exact ⟨first, r, hsent, hr, hanswers.status, hheaders, hbody.2⟩

end Gateway

end RegistryConsole
