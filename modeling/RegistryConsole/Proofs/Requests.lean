import RegistryConsole.Proofs.Forwarding
import RegistryConsole.Proofs.Headers

/-! # The first request of a forwarded call

The first request is determined by the call, the token and the registry's address: which values
each name of its header has, and what its body is. The header goes through four hands: the fields
that may not go on are taken out, the token is put in, the type of a JSON body is set, and the agent
and the connection add their own fields. -/

namespace RegistryConsole

/-! ## What the agent adds -/

namespace Call

/-- A call that has credentials of its own keeps its header; only the user of its URL goes. -/
theorem withCredentials_of_has {c : Call} (h : c.headers.has "authorization" = true) :
    ∃ url, (url = c.url ∨ url = c.url.withoutUser) ∧ c.withCredentials = { c with url } := by
  unfold withCredentials
  split
  · exact ⟨c.url, Or.inl rfl, rfl⟩
  · refine ⟨c.url.withoutUser, Or.inr rfl, ?_⟩
    dsimp only
    rw [if_pos h]

/-- The values that an agent gives a name that has none. Codings are asked for unless a part of a
body is. -/
def defaultValues (agent : Agent) (ranged : Bool) (n : String) : List Bytes :=
  if n = "accept" then [Utf8.ofString "*/*"]
  else if n = "user-agent" then (agent.name.map Utf8.ofString).toList
  else if n = "accept-encoding" ∧ ranged = false then [acceptedCodings]
  else []

/-- All other names get none. -/
theorem defaultValues_of_notMem (agent : Agent) (ranged : Bool) {n : String}
    (hn : n ∉ ["accept", "user-agent", "accept-encoding"]) :
    defaultValues agent ranged n = [] := by
  simp only [List.mem_cons, List.not_mem_nil, or_false, not_or] at hn
  rw [defaultValues, if_neg hn.1, if_neg hn.2.1, if_neg fun h => hn.2.2 h.1]

theorem defaultValues_acceptEncoding (agent : Agent) (ranged : Bool) :
    defaultValues agent ranged "accept-encoding" = if ranged then [] else [acceptedCodings] := by
  rw [defaultValues, if_neg (by decide), if_neg (by decide)]
  cases ranged <;> rfl

/-- A header with the name of the agent, unless it has one. -/
def withName (agent : Agent) (h : Headers) : Headers :=
  match agent.name with
  | some name => h.putAbsent "user-agent" (Utf8.ofString name)
  | none => h

/-- A header that asks for codings, unless it does so already or asks for a part of a body. -/
def withCodings (h : Headers) : Headers :=
  if h.has "range" then h else h.putAbsent "accept-encoding" acceptedCodings

/-- The agent's own fields go in one after the other. -/
theorem headers_withDefaults (agent : Agent) (c : Call) :
    (c.withDefaults agent).headers =
      withCodings (withName agent (c.headers.putAbsent "accept" (Utf8.ofString "*/*"))) := by
  unfold withDefaults withName withCodings
  cases agent.name <;> rfl

theorem values_withName (agent : Agent) (h : Headers) (n : String) :
    (withName agent h).values n =
      if n = "user-agent" ∧ h.values n = [] then (agent.name.map Utf8.ofString).toList
      else h.values n := by
  unfold withName
  cases agent.name with
  | none =>
    dsimp only
    split
    · next hnil => exact hnil.2
    · rfl
  | some name =>
    dsimp only
    rw [Headers.values_putAbsent]
    rfl

theorem values_withCodings (h : Headers) (n : String) :
    (withCodings h).values n =
      if n = "accept-encoding" ∧ h.values n = [] ∧ h.has "range" = false then [acceptedCodings]
      else h.values n := by
  unfold withCodings
  cases h.has "range" with
  | true => simp
  | false =>
    rw [if_neg Bool.false_ne_true, Headers.values_putAbsent]
    simp

/-- The agent gives values to names that have none, and leaves all others as they are. -/
theorem values_withDefaults (agent : Agent) (c : Call) (n : String) :
    (c.withDefaults agent).headers.values n =
      if c.headers.values n = [] then defaultValues agent (c.headers.has "range") n
      else c.headers.values n := by
  rw [headers_withDefaults, values_withCodings]
  -- whether a part of a body is asked for is not changed by the fields before
  have hnamed : ∀ m, (withName agent (c.headers.putAbsent "accept" (Utf8.ofString "*/*"))).values
      m = if c.headers.values m = [] ∧ m ≠ "accept-encoding" then
        defaultValues agent (c.headers.has "range") m else c.headers.values m := by
    intro m
    rw [values_withName, Headers.values_putAbsent]
    by_cases haccept : m = "accept"
    · subst haccept
      simp [defaultValues]
    · by_cases hagent : m = "user-agent"
      · subst hagent
        simp [defaultValues]
      · simp +contextual [defaultValues, haccept, hagent]
  have hrange : (withName agent (c.headers.putAbsent "accept" (Utf8.ofString "*/*"))).has "range" =
      c.headers.has "range" := by
    rw [Bool.eq_iff_iff, Headers.has_iff, Headers.has_iff, hnamed,
      defaultValues_of_notMem _ _ (by decide)]
    simp
  rw [hrange, hnamed]
  by_cases hcoding : n = "accept-encoding"
  · subst hcoding
    rw [defaultValues_acceptEncoding]
    cases c.headers.has "range" <;> simp
  · simp [hcoding]

/-! ## What the connection adds -/

/-- The connection gives the length of a body that is there and, where it is absent, the host. All
other names keep their values. -/
theorem values_wire (c : Call) (n : String) :
    c.wire.headers.values n =
      if n = "content-length" ∧ c.wire.body ≠ [] then
        [Utf8.ofString (toString c.wire.body.length)]
      else if n = "host" ∧ c.headers.values "host" = [] then [Utf8.encode c.url.hostText]
      else c.headers.values n := by
  have hnamed : (c.headers.putAbsent "host" (Utf8.encode c.url.hostText)).values n =
      if n = "host" ∧ c.headers.values "host" = [] then [Utf8.encode c.url.hostText]
      else c.headers.values n := by
    rw [Headers.values_putAbsent]
    by_cases hhost : n = "host"
    · subst hhost
      rfl
    · simp [hhost]
  unfold wire
  dsimp only
  cases c.body with
  | none => simpa using hnamed
  | some body =>
    cases body with
    | nil => simpa using hnamed
    | cons b body =>
      dsimp only [Option.getD_some]
      rw [Headers.values_put, hnamed]
      by_cases hlength : n = "content-length"
      · simp [hlength]
      · simp [hlength]

/-- Names that no connection knows keep their values. -/
theorem values_wire_of_ne {c : Call} {n : String} (hhost : n ≠ "host")
    (hlength : n ≠ "content-length") : c.wire.headers.values n = c.headers.values n := by
  rw [values_wire, if_neg fun h => hlength h.1, if_neg fun h => hhost h.1]

end Call

/-! ## What the gateway sends on -/

namespace Gateway

variable {σ : Type} {g : Gateway} {now : Int64} {call : ForwardCall}

/-- The body that goes on is that of the classified body. -/
theorem body_outboundWith? {token : String} {headers : Headers} {body : Option Bytes}
    (h : outboundWith? call token = .ok (headers, body)) :
    body = (ForwardBody.classify call.method call.body).map ForwardBody.bytes := by
  rw [outboundWith?_eq] at h
  split at h
  · exact absurd h (by simp)
  · exact (Prod.mk.inj (Except.ok.inj h)).2.symm

/-- The values of a name in the header that goes on: the type of a JSON body, the token as the only
credential, none for the fields of the console's own connection, and all others as they came. -/
def passedValues (call : ForwardCall) (token : String) (n : String) : List Bytes :=
  if n = "content-type" ∧
      (ForwardBody.classify call.method call.body).any ForwardBody.isStructured = true then
    [Response.jsonType]
  else if n = "authorization" then [bearer token]
  else if n ∈ requestOnly then []
  else call.headers.values n

theorem values_outboundWith? {token : String} {headers : Headers} {body : Option Bytes}
    (h : outboundWith? call token = .ok (headers, body)) (n : String) :
    headers.values n = passedValues call token n := by
  -- before the type of a body is set, the token is the only field that was put in
  have hout : ∀ k : Headers, outbound? call.headers token = some k → ∀ n, k.values n =
      if n = "authorization" then [bearer token]
      else if n ∈ requestOnly then [] else call.headers.values n := by
    intro k hk n
    unfold outbound? at hk
    split at hk
    · obtain rfl := Option.some.inj hk
      rw [Headers.values_put, Headers.values_without]
    · exact absurd hk (by simp)
  rw [outboundWith?_eq] at h
  unfold passedValues
  split at h
  · exact absurd h (by simp)
  · next k hk =>
    obtain ⟨rfl, -⟩ := Prod.mk.inj (Except.ok.inj h)
    cases (ForwardBody.classify call.method call.body).any ForwardBody.isStructured with
    | false =>
      rw [if_neg Bool.noConfusion, if_neg fun h => Bool.noConfusion h.2, hout k hk]
    | true =>
      rw [if_pos rfl, Headers.values_put]
      by_cases htype : n = "content-type"
      · rw [if_pos htype, if_pos ⟨htype, rfl⟩]
      · rw [if_neg htype, if_neg fun h => htype h.1, hout k hk]

/-- The names whose inbound values do not go on as they are. -/
def replaced : List String := requestOnly ++ ["authorization", "content-type"]

theorem passedValues_of_notMem {n : String} (hn : n ∉ replaced) (token : String) :
    passedValues call token n = call.headers.values n := by
  simp only [replaced, List.mem_append, List.mem_cons, List.not_mem_nil, or_false, not_or] at hn
  obtain ⟨honly, hauth, htype⟩ := hn
  rw [passedValues, if_neg fun h => htype h.1, if_neg hauth, if_neg honly]

theorem passedValues_of_mem {n : String} (hn : n ∈ requestOnly) (token : String) :
    passedValues call token n = [] := by
  have htype : n ≠ "content-type" := fun h => absurd (h ▸ hn) (by decide)
  have hauth : n ≠ "authorization" := fun h => absurd (h ▸ hn) (by decide)
  rw [passedValues, if_neg fun h => htype h.1, if_neg hauth, if_pos hn]

theorem passedValues_authorization (token : String) :
    passedValues call token "authorization" = [bearer token] := by
  rw [passedValues, if_neg fun h => absurd h.1 (by decide), if_pos rfl]

theorem passedValues_contentType (token : String) :
    passedValues call token "content-type" =
      if (ForwardBody.classify call.method call.body).any ForwardBody.isStructured = true then
        [Response.jsonType] else call.headers.values "content-type" := by
  rw [passedValues, if_neg (show ¬"content-type" = "authorization" by decide),
    if_neg (show ¬"content-type" ∈ requestOnly by decide)]
  simp

/-- The first call: its parts are those of the forwarded call, its URL is the registry's but for
the user, and its header is the one that goes on, with the agent's own fields. -/
structure IsFirstCall (call : ForwardCall) (token : String) (u : Url) (c : Call) : Prop where
  method : c.method = call.method
  body : c.body = (ForwardBody.classify call.method call.body).map ForwardBody.bytes
  url : c.url = u ∨ c.url = u.withoutUser
  headers : ∀ n, c.headers.values n =
    if passedValues call token n = [] then
      Call.defaultValues (agentFor call.method) (call.headers.has "range") n
    else passedValues call token n

/-- What the first call is. -/
theorem isFirstCall_of_firstCall? {c : Call} (h : g.firstCall? now call = .ok c) :
    ∃ token u, g.issuer.issue now = .ok token ∧
      Url.ofText (g.targetUrl call.path call.query) = .ok u ∧ IsFirstCall call token u c := by
  obtain ⟨token, headers, body, htoken, hout, hprepared⟩ := firstCall?_ok h
  obtain ⟨u, hu, hc, -, -⟩ := Agent.prepared?_ok hprepared
  have hvalues := values_outboundWith? hout
  -- with the token in it, the header gets no credential from the user of the URL
  have hauth : headers.has "authorization" = true := by
    rw [Headers.has_iff, hvalues, passedValues_authorization]
    simp
  have hrange : headers.has "range" = call.headers.has "range" := by
    rw [Bool.eq_iff_iff, Headers.has_iff, Headers.has_iff, hvalues,
      passedValues_of_notMem (by decide)]
  obtain ⟨url, hurl, hcredentials⟩ := Call.withCredentials_of_has
    (c := ⟨call.method, u, headers, body⟩) hauth
  rw [hcredentials] at hc
  subst hc
  refine ⟨token, u, htoken, hu, rfl, body_outboundWith? hout, hurl, ?_⟩
  intro n
  rw [Call.values_withDefaults, hvalues, hrange]

/-! ## The first request -/

/-- The names that the agent and the connection may give values of their own. -/
def supplied : List String :=
  ["host", "content-length", "accept", "accept-encoding", "user-agent"]

/-- Names that nobody supplies have the values that go on. -/
theorem IsFirstCall.values_wire {token : String} {u : Url} {c : Call}
    (h : IsFirstCall call token u c) {n : String} (hn : n ∉ supplied) :
    c.wire.headers.values n = passedValues call token n := by
  simp only [supplied, List.mem_cons, List.not_mem_nil, or_false, not_or] at hn
  obtain ⟨hhost, hlength, haccept, hcoding, hagent⟩ := hn
  rw [Call.values_wire_of_ne hhost hlength, h.headers,
    Call.defaultValues_of_notMem _ _ (by simp [haccept, hagent, hcoding])]
  split
  · next hnil => exact hnil.symm
  · rfl

/-- Neither host nor length are set before the connection sets them. -/
theorem IsFirstCall.values_eq_nil {token : String} {u : Url} {c : Call}
    (h : IsFirstCall call token u c) {n : String} (hn : n ∈ requestOnly)
    (hcoding : n ≠ "accept-encoding") : c.headers.values n = [] := by
  have hdefault : n ∉ ["accept", "user-agent", "accept-encoding"] := by
    simp only [requestOnly, List.mem_cons, List.not_mem_nil, or_false] at hn
    rcases hn with rfl | rfl | rfl | rfl <;> first | decide | exact absurd rfl hcoding
  rw [h.headers, if_pos (passedValues_of_mem hn token), Call.defaultValues_of_notMem _ _ hdefault]

/-- Whether a request is what is sent first when a call is forwarded at the time `now`. -/
structure IsFirstRequest (g : Gateway) (now : Int64) (call : ForwardCall) (w : WireRequest) :
    Prop where
  method : w.method = call.method
  /-- Whatever else came goes on with the same values in the same order. -/
  kept : ∀ n, n ∉ replaced → call.headers.values n ≠ [] →
    w.headers.values n = call.headers.values n
  /-- The token is the only credential. -/
  credential : ∃ token, g.issuer.issue now = .ok token ∧
    w.headers.values "authorization" = [bearer token]
  /-- The host is the one of the registry's address. -/
  host : ∃ u, Url.ofText (g.targetUrl call.path call.query) = .ok u ∧
    w.headers.values "host" = [Utf8.encode u.hostText]
  /-- The length is that of the body that is sent. -/
  length : w.headers.values "content-length" =
    if w.body = [] then [] else [Utf8.ofString (toString w.body.length)]
  transferEncoding : w.headers.values "transfer-encoding" = []
  /-- The codings are those that can be undone. -/
  acceptEncoding : w.headers.values "accept-encoding" =
    if call.headers.has "range" then [] else [Call.acceptedCodings]
  /-- Methods that read send no body. -/
  reading : call.method = .get ∨ call.method = .head →
    w.body = [] ∧ w.headers.values "content-type" = call.headers.values "content-type"
  /-- A JSON text is sent in its compact form, and its type is said to be that. -/
  structured : ∀ value, call.method ≠ .get → call.method ≠ .head →
    Json.ofBytes? call.body = .ok value →
    w.body = value.bytes ∧ w.headers.values "content-type" = [Response.jsonType]
  /-- Any other body is sent as it came. -/
  raw : ∀ f, call.method ≠ .get → call.method ≠ .head → Json.ofBytes? call.body = .error f →
    w.body = call.body ∧ w.headers.values "content-type" = call.headers.values "content-type"
  /-- Whatever did not come was put in by the agent or the connection. -/
  added : ∀ n, n ∉ ["authorization", "content-type"] → call.headers.values n = [] →
    w.headers.values n ≠ [] → n ∈ supplied

/-- The request of the first call is what has to be sent first. -/
theorem isFirstRequest_wire {c : Call} (h : g.firstCall? now call = .ok c) :
    g.IsFirstRequest now call c.wire := by
  obtain ⟨token, u, htoken, hu, hc⟩ := isFirstCall_of_firstCall? h
  have hbody : c.wire.body =
      ((ForwardBody.classify call.method call.body).map ForwardBody.bytes).getD [] := by
    rw [← hc.body]
    rfl
  have htype : c.wire.headers.values "content-type" =
      if (ForwardBody.classify call.method call.body).any ForwardBody.isStructured = true then
        [Response.jsonType] else call.headers.values "content-type" := by
    rw [hc.values_wire (by decide), passedValues_contentType]
  refine ⟨hc.method, ?_, ⟨token, htoken, ?_⟩, ⟨u, hu, ?_⟩, ?_, ?_, ?_, ?_, ?_, ?_, ?_⟩
  · intro n hn hne
    have hhost : n ≠ "host" := fun h => hn (by rw [h]; decide)
    have hlength : n ≠ "content-length" := fun h => hn (by rw [h]; decide)
    rw [Call.values_wire_of_ne hhost hlength, hc.headers, passedValues_of_notMem hn, if_neg hne]
  · rw [hc.values_wire (by decide), passedValues_authorization]
  · have hhost : c.url.hostText = u.hostText := by
      rcases hc.url with h | h
      · rw [h]
      · rw [h]
        rfl
    rw [Call.values_wire, if_neg fun h => absurd h.1 (by decide),
      if_pos ⟨rfl, hc.values_eq_nil (by decide) (by decide)⟩, hhost]
  · rw [Call.values_wire]
    by_cases hempty : c.wire.body = []
    · rw [if_neg fun h => h.2 hempty, if_neg fun h => absurd h.1 (by decide), if_pos hempty,
        hc.values_eq_nil (by decide) (by decide)]
    · rw [if_pos ⟨rfl, hempty⟩, if_neg hempty]
  · rw [hc.values_wire (by decide), passedValues_of_mem (by decide)]
  · rw [Call.values_wire_of_ne (by decide) (by decide), hc.headers,
      if_pos (passedValues_of_mem (by decide) token), Call.defaultValues_acceptEncoding]
  · intro hreading
    have hclass : ForwardBody.classify call.method call.body = none := by
      rw [ForwardBody.classify, if_pos hreading]
    rw [hclass] at hbody htype
    exact ⟨hbody, htype⟩
  · intro value hget hhead hvalue
    have hclass : ForwardBody.classify call.method call.body = some (.structured value) := by
      rw [ForwardBody.classify, if_neg (not_or.2 ⟨hget, hhead⟩), hvalue]
    rw [hclass] at hbody htype
    exact ⟨hbody, htype⟩
  · intro f hget hhead hvalue
    have hclass : ForwardBody.classify call.method call.body = some (.raw call.body) := by
      rw [ForwardBody.classify, if_neg (not_or.2 ⟨hget, hhead⟩), hvalue]
    rw [hclass] at hbody htype
    exact ⟨hbody, htype⟩
  · intro n hn hnil hne
    -- a name that nobody supplies has the values that go on, and these came with the call
    by_contra hsupplied
    rw [hc.values_wire hsupplied] at hne
    by_cases honly : n ∈ requestOnly
    · exact hne (passedValues_of_mem honly token)
    · have hkept : n ∉ replaced := by
        simp only [replaced, List.mem_append, not_or]
        exact ⟨honly, hn⟩
      exact hne ((passedValues_of_notMem hkept token).trans hnil)

/-- Nothing is sent for a forwarded call exactly if there is no first call. Otherwise the first
request is determined by the call, the token of this very time and the registry's address. -/
theorem forward_first_request (g : Gateway) (net : Network σ) (now : Int64) (call : ForwardCall)
    (s : σ) :
    (∃ f, g.firstCall? now call = .error f ∧
      g.forward net.recorded now call ([], s) = (.error f, ([], s))) ∨
    ∃ first later, (g.forward net.recorded now call ([], s)).2.1 = first :: later ∧
      g.IsFirstRequest now call first := by
  rcases forward_recorded g net now call s with ⟨f, hf, hrun, -⟩ | ⟨c, later, hc, hrun, -, -⟩
  · exact Or.inl ⟨f, hf, hrun⟩
  · refine Or.inr ⟨c.wire, later.map Call.wire, by rw [hrun]; rfl, isFirstRequest_wire hc⟩

/-- A posted text with a credential of the user's own, the host of the console, and two fields of
one name: the token takes the place of the credential, the registry that of the console, and the two
fields go on. -/
theorem forward_first_request_post :
    let g : Gateway := ⟨"http://registry.example", exampleIssuer⟩
    let net := Backend.network fun _ b => some b
    let backend : Backend := ⟨fun _ => true, [], ⟨.ok, [], .empty⟩, []⟩
    let call : ForwardCall := ⟨.post, "ns/a.txt", none, [⟨"host", Utf8.ofString "ui", false⟩,
      ⟨"x-tag", [0x61], false⟩, ⟨"authorization", Utf8.ofString "Basic dTpw", true⟩,
      ⟨"content-type", Utf8.ofString "text/plain", false⟩, ⟨"x-tag", [0x62], false⟩], [0x68, 0x69]⟩
    ∃ first token, (g.forward net.recorded 0 call ([], backend)).2.1.head? = some first ∧
      g.issuer.issue 0 = .ok token ∧ first.method = .post ∧
      first.headers.values "authorization" = [bearer token] ∧
      first.headers.values "host" = [Utf8.ofString "registry.example"] ∧
      first.headers.values "x-tag" = [[0x61], [0x62]] ∧
      first.headers.values "content-type" = [Utf8.ofString "text/plain"] ∧
      first.headers.values "content-length" = [Utf8.ofString "2"] ∧
      first.body = [0x68, 0x69] := by
  intro g net backend call
  have hurl : g.targetUrl "ns/a.txt" none = "http://registry.example/ns/a.txt" := by decide
  obtain ⟨token, htoken⟩ := exists_token_of_exampleIssuer
  obtain ⟨first, hfirst, -⟩ := exists_first_sent (g := g) (u := ⟨"http".toList, [], none,
    some "registry.example".toList, none, .segments ["ns".toList, "a.txt".toList], none, none⟩)
    call (by decide) htoken (by rw [hurl]; rfl) (by decide) (by decide) (by decide) (by decide) net
    backend
  rcases forward_first_request g net 0 call backend with ⟨f, -, hrun⟩ | ⟨w, later, hsent, hw⟩
  · rw [hrun] at hfirst
    exact absurd hfirst (by simp)
  · rw [hsent] at hfirst
    obtain rfl := Option.some.inj hfirst
    have hraw : Json.ofBytes? call.body = .error ⟨.expectedValue, 1⟩ := rfl
    obtain ⟨hbody, htype⟩ := hw.raw _ (by decide) (by decide) hraw
    obtain ⟨issued, hissued, hbearer⟩ := hw.credential
    obtain ⟨u, hu, hhost⟩ := hw.host
    rw [hurl] at hu
    obtain rfl := Except.ok.inj hu
    have hlength : w.headers.values "content-length" = [Utf8.ofString "2"] := by
      rw [hw.length, hbody]
      decide
    refine ⟨w, issued, by rw [hsent]; rfl, hissued, hw.method, hbearer, hhost, ?_, htype, hlength,
      hbody⟩
    exact hw.kept "x-tag" (by decide) (by decide)

end Gateway

end RegistryConsole
