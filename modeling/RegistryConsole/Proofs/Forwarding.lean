import RegistryConsole.Gateway.Forward
import RegistryConsole.Proofs.Json.Writable
import RegistryConsole.Proofs.Redirects
import RegistryConsole.Proofs.Token

/-! # The run of a forwarded call

Everything that can go wrong before a request goes out is decided by the call, the time and the
gateway alone. What is left is a call ready to be sent, and the rest of the run is its chain of
redirects. -/

namespace RegistryConsole

/-! ## What goes on, and what comes back -/

namespace ForwardBody

variable {method : Method} {received : Bytes}

/-- A body is classified as a JSON text only if it is one, and the method does more than read. -/
theorem of_classify_structured {value : Json}
    (h : classify method received = some (.structured value)) :
    method ≠ .get ∧ method ≠ .head ∧ Json.ofBytes? received = .ok value := by
  unfold classify at h
  split at h
  · exact absurd h nofun
  · next hreads =>
    split at h
    · next v hv =>
      obtain rfl := structured.inj (Option.some.inj h)
      exact ⟨fun hget => hreads (Or.inl hget), fun hhead => hreads (Or.inr hhead), hv⟩
    · exact absurd h nofun

/-- Whatever a body is taken for, it can be written. -/
theorem written?_of_classify {body : ForwardBody} (h : classify method received = some body) :
    body.written? = some body.bytes := by
  apply if_pos
  cases body with
  | structured value => exact Json.isWritable_of_ofBytes? (of_classify_structured h).2.2
  | raw b => rfl

end ForwardBody

namespace Gateway

variable {σ : Type} {g : Gateway} {now : Int64} {call : ForwardCall}

/-- The answer that comes back, which can always be built. -/
def answer (method : Method) (r : Response) : Response :=
  if method = .put ∧ r.status.isRedirection then r
  else { r with headers := relayed r.headers }

theorem answer?_eq (method : Method) (r : Response) : answer? method r = .ok (answer method r) := by
  unfold answer? answer
  split <;> rfl

/-- Nothing that comes back has another status than it was answered with. -/
@[simp] theorem answer_status (method : Method) (r : Response) :
    (answer method r).status = r.status := by
  unfold answer
  split <;> rfl

/-- Of what goes on, only the token can be wrong. -/
theorem outboundWith?_eq (call : ForwardCall) (token : String) :
    outboundWith? call token =
      match outbound? call.headers token with
      | none => .error .header
      | some h =>
        let body := ForwardBody.classify call.method call.body
        .ok (if body.any ForwardBody.isStructured then
            h.put ⟨"content-type", Response.jsonType, false⟩ else h,
          body.map ForwardBody.bytes) := by
  unfold outboundWith?
  cases outbound? call.headers token with
  | none => rfl
  | some h =>
    cases hbody : ForwardBody.classify call.method call.body with
    | none => rfl
    | some body =>
      dsimp only
      rw [ForwardBody.written?_of_classify hbody]
      rfl

/-! ## The address of a call -/

/-- What a query adds to the path before it: nothing if it is empty. -/
def queryText (query : Option String) : List Char :=
  match query with
  | some q => if q = "" then [] else '?' :: q.toList
  | none => []

/-- A query adds itself after its mark, unless it is absent or empty. -/
theorem queryText_cases (query : Option String) :
    (queryText query = [] ∧ ∀ q ∈ query, q = "") ∨
      ∃ q, query = some q ∧ q ≠ "" ∧ queryText query = '?' :: q.toList := by
  cases query with
  | none => exact Or.inl ⟨rfl, fun q hq => absurd hq (by simp)⟩
  | some q =>
    by_cases hq : q = ""
    · exact Or.inl ⟨if_pos hq, fun x hx => Option.some.inj hx ▸ hq⟩
    · exact Or.inr ⟨q, rfl, hq, if_neg hq⟩

theorem targetUrl_eq (g : Gateway) (path : String) (query : Option String) :
    g.targetUrl path query = g.apiUrl ++ "/" ++ String.ofList (path.toList ++ queryText query) := by
  apply String.toList_inj.1
  cases query with
  | none => simp [targetUrl, queryText]
  | some q =>
    by_cases hq : q = ""
    · simp [targetUrl, queryText, hq]
    · simp [targetUrl, queryText, hq]

/-! ## The first call and what follows it -/

/-- The call that is sent first when a call is forwarded, or why none is. -/
def firstCall? (g : Gateway) (now : Int64) (call : ForwardCall) : Except GatewayFault Call :=
  match g.issuer.issue now with
  | .error f => .error (.signing f)
  | .ok token =>
    match outboundWith? call token with
    | .error f => .error f
    | .ok (headers, body) =>
      let url := g.targetUrl call.path call.query
      match (agentFor call.method).prepared? call.method url headers body with
      | .error f => .error (.registry f)
      | .ok c => .ok c

/-- What comes of following the first call. -/
def finished (method : Method) : Except CallFault Response → Except GatewayFault Response
  | .error f => .error (.registry f)
  | .ok r => .ok (answer method r)

/-- A call is forwarded by sending its first call and following the answers to it. Without a first
call the network is left alone. -/
theorem forward_eq (g : Gateway) (net : Network σ) (now : Int64) (call : ForwardCall) (s : σ) :
    g.forward net now call s =
      match g.firstCall? now call with
      | .error f => (.error f, s)
      | .ok c =>
        let run := (agentFor call.method).follow net c.url Agent.maxRedirects c s
        (finished call.method run.1, run.2) := by
  unfold forward firstCall?
  cases g.issuer.issue now with
  | error f => rfl
  | ok token =>
    dsimp only
    cases outboundWith? call token with
    | error f => rfl
    | ok out =>
      obtain ⟨headers, body⟩ := out
      dsimp only
      rw [Agent.sendTo_eq]
      cases (agentFor call.method).prepared? call.method (g.targetUrl call.path call.query)
          headers body with
      | error f => rfl
      | ok c =>
        dsimp only
        cases (agentFor call.method).follow net c.url Agent.maxRedirects c s with
        | mk result s' =>
          cases result with
          | error f => rfl
          | ok r =>
            dsimp only
            rw [answer?_eq]
            rfl

/-- The parts of a first call: the token of this very time, the header and the body that go on, and
the agent's own fields. -/
theorem firstCall?_ok {c : Call} (h : g.firstCall? now call = .ok c) :
    ∃ token headers body,
      g.issuer.issue now = .ok token ∧ outboundWith? call token = .ok (headers, body) ∧
      (agentFor call.method).prepared? call.method (g.targetUrl call.path call.query)
        headers body = .ok c := by
  unfold firstCall? at h
  split at h
  · exact absurd h (by simp)
  · next token htoken =>
    split at h
    · exact absurd h (by simp)
    · next headers body hout =>
      dsimp only at h
      split at h
      · exact absurd h (by simp)
      · next c' hc =>
        exact ⟨token, headers, body, htoken, hout, Except.ok.inj h ▸ hc⟩

/-- An issued token may stand in a header. -/
theorem isValue_bearer {token : String} (h : g.issuer.issue now = .ok token) :
    HeaderField.isValue (bearer token) = true := by
  have hbearer : bearer token = Utf8.ofString "Bearer " ++ Utf8.ofString token := by
    rw [bearer, Utf8.ofString, Utf8.ofString, Utf8.ofString, String.toList_append,
      Utf8.encode_append]
  rw [HeaderField.isValue, hbearer, List.all_append, Bool.and_eq_true]
  refine ⟨by decide, ?_⟩
  apply List.all_eq_true.2
  intro b hb
  have hvisible := Token.isVisible_of_issue h b hb
  rw [HeaderField.isValueOctet, Bool.or_eq_true, Bool.and_eq_true, decide_eq_true_eq,
    decide_eq_true_eq]
  exact Or.inl ⟨by omega, by omega⟩

/-- With a token there is a header that goes on. -/
theorem exists_outboundWith? {token : String} (h : g.issuer.issue now = .ok token)
    (call : ForwardCall) : ∃ headers body, outboundWith? call token = .ok (headers, body) := by
  rw [outboundWith?_eq, outbound?, if_pos (isValue_bearer h)]
  exact ⟨_, _, rfl⟩

/-- What is wrong with a call of which nothing is sent: there is no token, or the address is none
that may be called. -/
theorem firstCall?_error {f : GatewayFault} (h : g.firstCall? now call = .error f) :
    (∃ i, g.issuer.issue now = .error i ∧ f = .signing i) ∨
      f = .registry .malformed ∨ ∃ u, f = .registry (.badUrl u) := by
  unfold firstCall? at h
  split at h
  · next i hi => exact Or.inl ⟨i, hi, (Except.error.inj h).symm⟩
  · next token htoken =>
    obtain ⟨headers, body, hout⟩ := exists_outboundWith? htoken call
    rw [hout] at h
    dsimp only at h
    split at h
    · next f' hf =>
      rw [← Except.error.inj h]
      rcases Agent.prepared?_error hf with rfl | ⟨u, rfl⟩
      · exact Or.inr (Or.inl rfl)
      · exact Or.inr (Or.inr ⟨u, rfl⟩)
    · exact absurd h (by simp)

/-- A forwarded call on a network that keeps a record: nothing is sent, or the requests are those
of a chain of at most eleven calls. Result and network are the same as without the record. -/
theorem forward_recorded (g : Gateway) (net : Network σ) (now : Int64) (call : ForwardCall)
    (s : σ) :
    (∃ f, g.firstCall? now call = .error f ∧
      g.forward net.recorded now call ([], s) = (.error f, ([], s)) ∧
      g.forward net now call s = (.error f, s)) ∨
    ∃ (c : Call) (later : List Call), g.firstCall? now call = .ok c ∧
      g.forward net.recorded now call ([], s) =
        ((g.forward net now call s).1,
          ((c :: later).map Call.wire, (g.forward net now call s).2)) ∧
      later.length ≤ Agent.maxRedirects ∧ List.IsChain Call.LeadsTo (c :: later) := by
  cases hc : g.firstCall? now call with
  | error f =>
    refine Or.inl ⟨f, rfl, ?_, ?_⟩
    · rw [forward_eq, hc]
    · rw [forward_eq, hc]
  | ok c =>
    obtain ⟨later, hrun, hlength, hchain⟩ :=
      (agentFor call.method).follow_recorded net c.url Agent.maxRedirects c [] s
    refine Or.inr ⟨c, later, rfl, ?_, hlength, hchain⟩
    rw [forward_eq, forward_eq, hc]
    dsimp only
    rw [hrun, List.nil_append]

/-- With a token, there is a first call to an address that can be called. -/
theorem exists_firstCall? (call : ForwardCall) {token : String} {u : Url}
    (htoken : g.issuer.issue now = .ok token)
    (hu : Url.ofText (g.targetUrl call.path call.query) = .ok u) (hcallable : u.IsCallable) :
    ∃ c, g.firstCall? now call = .ok c ∧ c.method = call.method ∧ c.url = Call.sentUrl u := by
  obtain ⟨headers, body, hout⟩ := exists_outboundWith? htoken call
  obtain ⟨c, hc, hmethod, hurl, -⟩ := (agentFor call.method).exists_prepare
    (c := ⟨call.method, u, headers, body⟩) hcallable
  refine ⟨c, ?_, hmethod, hurl⟩
  rw [firstCall?, htoken]
  dsimp only
  rw [hout]
  dsimp only
  rw [Agent.prepared?, hu]
  dsimp only
  rw [hc]

/-- The request of the first call is the first one on a record. -/
theorem head?_forward {c : Call} (hc : g.firstCall? now call = .ok c) (net : Network σ) (s : σ) :
    (g.forward net.recorded now call ([], s)).2.1.head? = some c.wire := by
  rcases forward_recorded g net now call s with ⟨f, hf, -, -⟩ | ⟨d, later, hd, hrun, -, -⟩
  · exact absurd (hf.symm.trans hc) (by simp)
  · obtain rfl := Except.ok.inj (hd.symm.trans hc)
    rw [hrun]
    rfl

/-- With a token, a call to a URL of the web that has a host, names no user and is not too long is
sent, and asks for what the URL says unless it is for a tunnel. -/
theorem exists_first_sent (call : ForwardCall) (hmethod : call.method ≠ .connect) {token : String}
    {u : Url} (htoken : g.issuer.issue now = .ok token)
    (hu : Url.ofText (g.targetUrl call.path call.query) = .ok u)
    (huser : u.user = [] ∧ u.password = none) (hhost : u.hasHost = true)
    (hhttp : u.isHttp = true) (htext : (RequestTarget.ofBytes? (Utf8.ofString u.text)).isOk)
    (net : Network σ) (s : σ) :
    ∃ first, (g.forward net.recorded now call ([], s)).2.1.head? = some first ∧
      first.target = u.target := by
  obtain ⟨hcallable, hsent⟩ := Url.isCallable_of_user_eq huser hhost hhttp htext
  obtain ⟨c, hc, hasked, hurl⟩ := exists_firstCall? call htoken hu hcallable
  refine ⟨c.wire, head?_forward hc net s, ?_⟩
  rw [← hsent, ← hurl]
  exact Call.target_of_ne (hasked ▸ hmethod)

/-- If nothing is sent for a call, then there is no token, or the address is none that may be
called; and the network is left alone. -/
theorem forward_unsent {net : Network σ} {s : σ}
    (h : (g.forward net.recorded now call ([], s)).2.1 = []) :
    ∃ f, g.forward net now call s = (.error f, s) ∧
      ((∃ i, g.issuer.issue now = .error i ∧ f = .signing i) ∨
        f = .registry .malformed ∨ ∃ u, f = .registry (.badUrl u)) := by
  rcases forward_recorded g net now call s with ⟨f, hf, -, hrun⟩ | ⟨c, later, -, hrun, -, -⟩
  · exact ⟨f, hrun, firstCall?_error hf⟩
  · -- a first call is always sent
    rw [hrun] at h
    exact absurd h (by simp)

/-- To keep a record changes neither the result nor the network. -/
theorem forward_of_recorded (g : Gateway) (net : Network σ) (now : Int64) (call : ForwardCall)
    (s : σ) :
    ((g.forward net.recorded now call ([], s)).1, (g.forward net.recorded now call ([], s)).2.2) =
      g.forward net now call s := by
  rcases forward_recorded g net now call s with ⟨f, -, hrun, h⟩ | ⟨c, later, -, hrun, -, -⟩
  · rw [hrun, h]
  · rw [hrun]

/-- What every request leaves true of a network, a forwarded call leaves true of it. -/
theorem forward_preserves {p : σ → Prop} {net : Network σ}
    (hstep : ∀ w t, p t → p (net.deliver w t).2) (g : Gateway) (now : Int64) (call : ForwardCall)
    {s : σ} (hs : p s) : p (g.forward net now call s).2 := by
  rw [forward_eq]
  cases g.firstCall? now call with
  | error f => exact hs
  | ok c => exact Agent.follow_preserves hstep (agentFor call.method) c.url Agent.maxRedirects c hs

/-- What servers receive of a forwarded call are those of the recorded requests that reach them. -/
theorem forward_received (g : Gateway) (undo : Coding → Bytes → Option Bytes) (now : Int64)
    (call : ForwardCall) (backend : Backend) :
    (g.forward (Backend.network undo) now call backend).2.received =
      backend.received ++
        (g.forward (Backend.network undo).recorded now call ([], backend)).2.1.filter
          fun w => backend.reaches w.origin := by
  have hstart : backend.IsAfter ([], backend) := ⟨rfl, (List.append_nil _).symm⟩
  have hend := forward_preserves (Backend.isAfter_deliver undo) g now call hstart
  rw [← hend.received, ← forward_of_recorded]

/-- The result of a call that goes well is made of the last answer that came over the network. -/
theorem forward_ok {net : Network σ} {s s' : σ} {r : Response}
    (h : g.forward net now call s = (.ok r, s')) :
    ∃ (last : Call) (t : σ) (answered : Response),
      net.deliver last.wire t = (some answered, s') ∧
      r = answer call.method (Agent.decoded net.undo (Agent.receive last.method answered)) := by
  rw [forward_eq] at h
  split at h
  · exact absurd (congrArg Prod.fst h) (by simp)
  · next c _ =>
    dsimp only at h
    cases hrun : (agentFor call.method).follow net c.url Agent.maxRedirects c s with
    | mk result t =>
      rw [hrun] at h
      cases result with
      | error f => exact absurd (congrArg Prod.fst h) (by simp [finished])
      | ok answered =>
        obtain ⟨hr, rfl⟩ := Prod.mk.inj h
        -- the chain ends with an answer, and that one comes back
        obtain ⟨last, u, from_net, hsent, hanswered⟩ := Agent.follow_ok hrun
        exact ⟨last, u, from_net, hsent, by rw [← hanswered]; exact (Except.ok.inj hr).symm⟩

end Gateway

end RegistryConsole
