import RegistryConsole.Proofs.Requests

/-! # What a caller says of itself

Two headers say the same if every name has the same values in both; the order between different
names carries no meaning. Calls whose headers say the same are made ready, sent and redirected
alike, so that servers which do not look at that order give them the same answers. A gateway takes
out what a caller says of itself and of its connection before anything else, and calls that differ
in nothing else are the same to it. -/

namespace RegistryConsole

variable {σ : Type}

/-! ## Headers that say the same -/

/-- Whether every name has the same values in two headers. -/
def Headers.Same (h k : Headers) : Prop :=
  ∀ n, h.values n = k.values n

namespace Headers.Same

variable {h k : Headers}

theorem has_eq (hsame : h.Same k) (n : String) : h.has n = k.has n := by
  rw [Bool.eq_iff_iff, has_iff, has_iff, hsame n]

theorem append (hsame : h.Same k) (more : Headers) : Same (h ++ more) (k ++ more) := by
  intro n
  rw [values_append, values_append, hsame n]

theorem without (hsame : h.Same k) (names : List String) :
    (h.without names).Same (k.without names) := by
  intro n
  rw [values_without, values_without, hsame n]

theorem put (hsame : h.Same k) (f : HeaderField) : (h.put f).Same (k.put f) := by
  intro n
  rw [values_put, values_put, hsame n]

theorem putAbsent (hsame : h.Same k) (m : String) (v : Bytes) :
    (h.putAbsent m v).Same (k.putAbsent m v) := by
  intro n
  rw [values_putAbsent, values_putAbsent, hsame n]

end Headers.Same

/-! ## Calls that say the same -/

/-- Whether two calls are the same but for the order between names of their headers. -/
structure Call.Same (c d : Call) : Prop where
  method : c.method = d.method
  url : c.url = d.url
  body : c.body = d.body
  headers : c.headers.Same d.headers

/-- Whether two requests are the same but for the order between names of their headers. -/
structure WireRequest.Same (w v : WireRequest) : Prop where
  origin : w.origin = v.origin
  isSecure : w.isSecure = v.isSecure
  method : w.method = v.method
  target : w.target = v.target
  body : w.body = v.body
  headers : w.headers.Same v.headers

namespace Call.Same

variable {c d : Call}

theorem withCredentials (h : c.Same d) : c.withCredentials.Same d.withCredentials := by
  unfold Call.withCredentials
  rw [h.url]
  cases credentials? d.url with
  | none => exact h
  | some pair =>
    refine ⟨h.method, rfl, h.body, ?_⟩
    dsimp only
    rw [h.headers.has_eq]
    split
    · exact h.headers
    · exact h.headers.append _

theorem withDefaults (h : c.Same d) (agent : Agent) :
    (c.withDefaults agent).Same (d.withDefaults agent) := by
  refine ⟨h.method, h.url, h.body, ?_⟩
  have haccept := h.headers.putAbsent "accept" (Utf8.ofString "*/*")
  unfold Call.withDefaults
  cases agent.name with
  | none =>
    dsimp only
    rw [haccept.has_eq]
    split
    · exact haccept
    · exact haccept.putAbsent _ _
  | some name =>
    have hnamed := haccept.putAbsent "user-agent" (Utf8.ofString name)
    dsimp only
    rw [hnamed.has_eq]
    split
    · exact hnamed
    · exact hnamed.putAbsent _ _

theorem wire (h : c.Same d) : c.wire.Same d.wire := by
  have htarget : c.target = d.target := by rw [Call.target, Call.target, h.method, h.url]
  refine ⟨congrArg Url.origin h.url, by rw [Call.wire, Call.wire, h.url], h.method, htarget,
    by rw [Call.wire, Call.wire, h.body], ?_⟩
  have hhost := h.headers.putAbsent "host" (Utf8.encode d.url.hostText)
  unfold Call.wire
  dsimp only
  rw [h.url, h.body]
  cases d.body with
  | none => exact hhost
  | some body =>
    cases body with
    | nil => exact hhost
    | cons b body => exact hhost.put _

theorem withoutBody (h : c.Same d) (method : Method) :
    (c.withoutBody method).Same (d.withoutBody method) :=
  ⟨rfl, h.url, rfl, h.headers.without bodyFields⟩

/-- A redirect asks for both again, or for neither. -/
theorem redirected? (h : c.Same d) (status : Status) :
    Option.Rel Same (c.redirected? status) (d.redirected? status) := by
  have hplain : c.BecomesPlain status ↔ d.BecomesPlain status := by
    rw [BecomesPlain, BecomesPlain, h.method]
  unfold Call.redirected?
  split
  · simp only [hplain, h.method]
    split
    · exact .some (h.withoutBody _)
    · exact .some h
  · exact .none

theorem headersFor (h : c.Same d) (next : Url) : (c.headersFor next).Same (d.headersFor next) := by
  unfold Call.headersFor
  rw [h.url]
  have hkept : Headers.Same
      (if next.origin = d.url.origin then c.headers else c.headers.without secretFields)
      (if next.origin = d.url.origin then d.headers else d.headers.without secretFields) := by
    split
    · exact h.headers
    · exact h.headers.without secretFields
  dsimp only
  split
  · exact hkept
  · exact hkept.put _

/-- An answer leads from both on, or from neither. -/
theorem next? (h : c.Same d) (r : Response) : Option.Rel Same (c.next? r) (d.next? r) := by
  have hlocation : c.location? r = d.location? r := by
    rw [Call.location?, Call.location?, h.url]
  unfold Call.next?
  rw [hlocation]
  have hagain := h.redirected? r.status
  generalize c.redirected? r.status = again at hagain ⊢
  generalize d.redirected? r.status = again' at hagain ⊢
  cases hagain with
  | none => exact .none
  | some hagain =>
    cases d.location? r with
    | none => exact .none
    | some url => exact .some ⟨hagain.method, rfl, hagain.body, hagain.headersFor url⟩

end Call.Same

/-! ## Runs of calls that say the same -/

/-- Whether a network gives requests that say the same the same answers, from states that it does
not tell apart, and leaves such states. -/
def Network.Alike (net : Network σ) (R : σ → σ → Prop) : Prop :=
  ∀ ⦃w v s t⦄, w.Same v → R s t →
    (net.deliver w s).1 = (net.deliver v t).1 ∧ R (net.deliver w s).2 (net.deliver v t).2

/-- A record does not change that: what is on two records says the same. -/
theorem Network.Alike.recorded {net : Network σ} {R : σ → σ → Prop} (h : net.Alike R) :
    net.recorded.Alike fun s t => List.Forall₂ WireRequest.Same s.1 t.1 ∧ R s.2 t.2 := by
  intro w v s t hsame hstates
  obtain ⟨hanswer, hleft⟩ := h hsame hstates.2
  exact ⟨hanswer, List.rel_append hstates.1 (.cons hsame .nil), hleft⟩

/-- Whether servers are the same but for what the order between names is of what they received. -/
structure Backend.Same (a b : Backend) : Prop where
  reaches : a.reaches = b.reaches
  script : a.script = b.script
  standing : a.standing = b.standing
  received : List.Forall₂ WireRequest.Same a.received b.received

/-- Servers that answer from a script look at no header. -/
theorem Backend.alike (undo : Coding → Bytes → Option Bytes) :
    (Backend.network undo).Alike Backend.Same := by
  intro w v a b hsame hservers
  have hreceived := List.rel_append hservers.received (.cons hsame .nil)
  dsimp only [network, deliver]
  rw [hservers.reaches, hsame.origin]
  split
  · rw [hservers.script]
    cases b.script with
    | nil => exact ⟨congrArg some hservers.standing, ⟨rfl, rfl, hservers.standing, hreceived⟩⟩
    | cons answer script => exact ⟨rfl, ⟨rfl, rfl, hservers.standing, hreceived⟩⟩
  · exact ⟨rfl, hservers⟩

namespace Agent

/-- Calls that say the same have the same result, request by request. -/
theorem follow_alike {net : Network σ} {R : σ → σ → Prop} (halike : net.Alike R) (agent : Agent)
    (first : Url) (left : Nat) {c d : Call} {s t : σ} (hcalls : c.Same d) (hstates : R s t) :
    (agent.follow net first left c s).1 = (agent.follow net first left d t).1 ∧
      R (agent.follow net first left c s).2 (agent.follow net first left d t).2 := by
  induction left using Nat.strongRecOn generalizing c d s t with
  | ind left ih =>
    unfold follow
    obtain ⟨hanswer, hleft⟩ := halike hcalls.wire hstates
    generalize net.deliver c.wire s = sent at hanswer hleft ⊢
    generalize net.deliver d.wire t = sent' at hanswer hleft ⊢
    obtain ⟨answer, s'⟩ := sent
    obtain ⟨answer', t'⟩ := sent'
    obtain rfl : answer = answer' := hanswer
    cases answer with
    | none => exact ⟨rfl, hleft⟩
    | some answer =>
      have hnext : Option.Rel Call.Same
          (if agent.follows then c.next? (receive c.method answer) else none)
          (if agent.follows then d.next? (receive d.method answer) else none) := by
        rw [hcalls.method]
        split
        · exact hcalls.next? _
        · exact .none
      dsimp only
      generalize (if agent.follows then c.next? (receive c.method answer) else none) = next
        at hnext ⊢
      generalize (if agent.follows then d.next? (receive d.method answer) else none) = next'
        at hnext ⊢
      cases hnext with
      | none =>
        dsimp only
        rw [hcalls.method]
        exact ⟨rfl, hleft⟩
      | some hnext =>
        dsimp only
        cases left with
        | zero =>
          rw [hcalls.url]
          exact ⟨rfl, hleft⟩
        | succ left =>
          dsimp only
          rw [hnext.url]
          split
          · exact ih left (Nat.lt_succ_self left) hnext hleft
          · exact ⟨rfl, hleft⟩

end Agent

/-- Calls that say the same are both made ready, and then say the same, or neither is, for the same
reason. -/
theorem Call.Same.prepare {c d : Call} (h : c.Same d) (agent : Agent) :
    (∃ f, c.prepare agent = .error f ∧ d.prepare agent = .error f) ∨
      ∃ c' d', c.prepare agent = .ok c' ∧ d.prepare agent = .ok d' ∧ c'.Same d' := by
  have hmoved := h.withCredentials
  unfold Call.prepare
  dsimp only
  rw [hmoved.url]
  split
  · exact Or.inl ⟨_, rfl, rfl⟩
  · split
    · exact Or.inl ⟨_, rfl, rfl⟩
    · exact Or.inr ⟨_, _, rfl, rfl, hmoved.withDefaults agent⟩

/-! ## Forwarded calls -/

/-- Whether two calls are the same but for the values of some names, and for the order between
names. -/
structure ForwardCall.SameBut (names : List String) (a b : ForwardCall) : Prop where
  method : a.method = b.method
  path : a.path = b.path
  query : a.query = b.query
  body : a.body = b.body
  headers : ∀ n, n ∉ names → a.headers.values n = b.headers.values n

namespace Gateway

variable {g : Gateway} {now : Int64} {a b : ForwardCall}

/-- The names whose values tell only of a caller and of its connection. -/
def callersOwn : List String :=
  ["host", "content-length", "transfer-encoding", "accept-encoding", "authorization"]

/-- The values that go on are the same for calls that differ in a caller's own names only. -/
theorem passedValues_eq (h : a.SameBut callersOwn b) (token n : String) :
    passedValues a token n = passedValues b token n := by
  unfold passedValues
  rw [h.method, h.body]
  split
  · rfl
  · split
    · rfl
    · next hauth =>
      split
      · rfl
      · next honly =>
        apply h.headers
        intro hn
        rcases List.mem_append.1 (show n ∈ requestOnly ++ ["authorization"] from hn) with hn | hn
        · exact honly hn
        · exact hauth (List.mem_singleton.1 hn)

/-- Calls that differ in a caller's own names only have first calls that say the same, or none, for
the same reason. -/
theorem firstCall?_alike (h : a.SameBut callersOwn b) (g : Gateway) (now : Int64) :
    (∃ f, g.firstCall? now a = .error f ∧ g.firstCall? now b = .error f) ∨
      ∃ c d, g.firstCall? now a = .ok c ∧ g.firstCall? now b = .ok d ∧ c.Same d := by
  unfold firstCall?
  cases htoken : g.issuer.issue now with
  | error f => exact Or.inl ⟨_, rfl, rfl⟩
  | ok token =>
    obtain ⟨headers, body, hout⟩ := exists_outboundWith? htoken a
    obtain ⟨headers', body', hout'⟩ := exists_outboundWith? htoken b
    have hheaders : headers.Same headers' := by
      intro n
      rw [values_outboundWith? hout, values_outboundWith? hout', passedValues_eq h]
    have hbody : body = body' := by
      rw [body_outboundWith? hout, body_outboundWith? hout', h.method, h.body]
    dsimp only
    rw [hout, hout']
    dsimp only
    rw [h.method, h.path, h.query, Agent.prepared?, Agent.prepared?]
    cases Url.ofText (g.targetUrl b.path b.query) with
    | error f => exact Or.inl ⟨_, rfl, rfl⟩
    | ok u =>
      have hcalls : Call.Same ⟨b.method, u, headers, body⟩ ⟨b.method, u, headers', body'⟩ :=
        ⟨rfl, rfl, hbody, hheaders⟩
      dsimp only
      rcases hcalls.prepare (agentFor b.method) with ⟨f, hf, hf'⟩ | ⟨c, d, hc, hd, hsame⟩
      · rw [hf, hf']
        exact Or.inl ⟨_, rfl, rfl⟩
      · rw [hc, hd]
        exact Or.inr ⟨c, d, rfl, rfl, hsame⟩

/-- Calls that differ in a caller's own names only have the same result on every network that gives
requests that say the same the same answers. -/
theorem forward_alike {net : Network σ} {R : σ → σ → Prop} (halike : net.Alike R)
    (h : a.SameBut callersOwn b) (g : Gateway) (now : Int64) {s t : σ} (hstates : R s t) :
    (g.forward net now a s).1 = (g.forward net now b t).1 ∧
      R (g.forward net now a s).2 (g.forward net now b t).2 := by
  rw [forward_eq, forward_eq]
  rcases firstCall?_alike h g now with ⟨f, ha, hb⟩ | ⟨c, d, ha, hb, hsame⟩
  · rw [ha, hb]
    exact ⟨rfl, hstates⟩
  · rw [ha, hb]
    dsimp only
    rw [h.method, hsame.url]
    obtain ⟨hresult, hleft⟩ := Agent.follow_alike halike (agentFor b.method) d.url
      Agent.maxRedirects hsame hstates
    exact ⟨congrArg (finished b.method) hresult, hleft⟩

/-- If even the order of all other fields is the same, then the very same header goes on. -/
theorem outboundWith?_congr (h : a.SameBut callersOwn b)
    (horder : a.headers.without callersOwn = b.headers.without callersOwn) (token : String) :
    outboundWith? a token = outboundWith? b token := by
  have hwithout : ∀ k : Headers, (k.without requestOnly).without ["authorization"] =
      k.without callersOwn := by
    intro k
    rw [Headers.without, Headers.without, Headers.without, List.filter_filter]
    refine List.filter_congr fun f _ => ?_
    rw [show callersOwn = requestOnly ++ ["authorization"] from rfl, List.contains_append]
    simp [Bool.and_comm]
  have hout : outbound? a.headers token = outbound? b.headers token := by
    rw [outbound?, outbound?, Headers.put, Headers.put, hwithout, hwithout, horder]
  rw [outboundWith?, outboundWith?, hout, h.method, h.body]

/-- Whether two calls come to the same. -/
structure TellsNoneApart (g : Gateway) (now : Int64) (a b : ForwardCall) : Prop where
  /-- Servers that answer from a script receive requests that say the same, one by one, and the
  result is the same. -/
  scripted : ∀ (undo : Coding → Bytes → Option Bytes) (servers : Backend),
    let run (call : ForwardCall) :=
      g.forward (Backend.network undo).recorded now call ([], servers)
    (run a).1 = (run b).1 ∧ List.Forall₂ WireRequest.Same (run a).2.1 (run b).2.1 ∧
      (run a).2.2.Same (run b).2.2
  /-- If even the order of all other fields is the same, then the very same requests are sent on any
  network, whatever it looks at, and with the same result. -/
  ordered : a.headers.without callersOwn = b.headers.without callersOwn →
    ∀ {σ : Type} (net : Network σ) (s : σ),
      g.forward net.recorded now a ([], s) = g.forward net.recorded now b ([], s)

/-- What a caller says of itself and of its connection makes no difference to what is sent for its
call, to any server along the redirects, nor to what comes back. -/
theorem tellsNoneApart_of_sameBut (h : a.SameBut callersOwn b) (g : Gateway) (now : Int64) :
    g.TellsNoneApart now a b where
  scripted undo servers := by
    intro run
    have hservers : servers.Same servers :=
      ⟨rfl, rfl, rfl, List.forall₂_same.2 fun w _ => ⟨rfl, rfl, rfl, rfl, rfl, fun _ => rfl⟩⟩
    have hrun := forward_alike (Backend.alike undo).recorded h g now
      (s := ([], servers)) (t := ([], servers)) ⟨.nil, hservers⟩
    exact ⟨hrun.1, hrun.2.1, hrun.2.2⟩
  ordered horder _ net s := by
    unfold forward
    simp only [outboundWith?_congr h horder, h.method, h.path, h.query]

/-- An upload whose second caller claims another host and length and brings a credential of its own,
in another place: the very same is sent for both. -/
theorem tellsNoneApart_of_sameBut_upload :
    let a : ForwardCall := ⟨.put, "ns/a.json", none,
      [⟨"host", Utf8.ofString "ui.example", false⟩, ⟨"x-trace", [0x31], false⟩,
        ⟨"content-length", [0x32], false⟩], [0x7B, 0x7D]⟩
    let b : ForwardCall := ⟨.put, "ns/a.json", none,
      [⟨"authorization", Utf8.ofString "Bearer mine", false⟩, ⟨"x-trace", [0x31], false⟩,
        ⟨"host", Utf8.ofString "other.example", false⟩,
        ⟨"accept-encoding", Utf8.ofString "zstd", false⟩], [0x7B, 0x7D]⟩
    let g : Gateway := ⟨"http://registry.example", exampleIssuer⟩
    a.SameBut callersOwn b ∧ g.TellsNoneApart 0 a b ∧
      ∀ (net : Network Unit), g.forward net.recorded 0 a ([], ()) =
        g.forward net.recorded 0 b ([], ()) := by
  intro a b g
  have horder : a.headers.without callersOwn = b.headers.without callersOwn := by decide
  have hsame : a.SameBut callersOwn b := by
    refine ⟨rfl, rfl, rfl, rfl, ?_⟩
    intro n hn
    have hvalues := congrArg (fun k => Headers.values k n) horder
    rwa [Headers.values_without, Headers.values_without, if_neg hn, if_neg hn] at hvalues
  have htold := tellsNoneApart_of_sameBut hsame g 0
  exact ⟨hsame, htold, fun net => htold.ordered horder net ()⟩

end Gateway

end RegistryConsole
