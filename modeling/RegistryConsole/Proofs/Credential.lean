import RegistryConsole.Proofs.Requests
import RegistryConsole.Proofs.Token
import RegistryConsole.Proofs.Url.Address

/-! # The credential stays with the registry

The token goes out with the first request, to the server of the registry's address. A redirect to
another host or port takes it out of the header, and nothing puts it in again. So along every chain
of redirects a request either goes to the registry or has no credential. -/

namespace RegistryConsole

/-! ## One redirect -/

namespace Call

/-- Whether a call has the credential `v` only where it is meant for. -/
def KeepsCredential (home : Origin) (v : Bytes) (c : Call) : Prop :=
  (c.url.origin = home ∧ c.headers.values "authorization" = [v]) ∨
    c.headers.values "authorization" = []

/-- A redirect keeps the credential for the same host and port, and drops it for others. -/
theorem LeadsTo.values_authorization {c next : Call} (h : c.LeadsTo next) :
    next.headers.values "authorization" =
      if next.url.origin = c.url.origin then c.headers.values "authorization" else [] := by
  obtain ⟨r, hr⟩ := h
  exact hr.secrets "authorization" (by decide)

/-- A redirect keeps the credential where it is meant for. -/
theorem KeepsCredential.of_leadsTo {home : Origin} {v : Bytes} {c next : Call}
    (hc : c.KeepsCredential home v) (h : c.LeadsTo next) : next.KeepsCredential home v := by
  have hvalues := h.values_authorization
  by_cases horigin : next.url.origin = c.url.origin
  · rw [if_pos horigin] at hvalues
    rcases hc with ⟨hhome, hauth⟩ | hnone
    · exact Or.inl ⟨horigin.trans hhome, hvalues.trans hauth⟩
    · exact Or.inr (hvalues.trans hnone)
  · rw [if_neg horigin] at hvalues
    exact Or.inr hvalues

/-- So does every chain of redirects. -/
theorem KeepsCredential.of_chain {home : Origin} {v : Bytes} {c : Call} {later : List Call}
    (hc : c.KeepsCredential home v) (h : List.IsChain LeadsTo (c :: later)) :
    ∀ d ∈ c :: later, d.KeepsCredential home v := by
  induction later generalizing c with
  | nil =>
    intro d hd
    rw [List.mem_singleton.1 hd]
    exact hc
  | cons next later ih =>
    obtain ⟨hleads, hchain⟩ := List.isChain_cons_cons.1 h
    intro d hd
    rcases List.mem_cons.1 hd with rfl | hd
    · exact hc
    · exact ih (hc.of_leadsTo hleads) hchain d hd

end Call

/-! ## A forwarded call -/

namespace Gateway

variable {σ : Type} {g : Gateway} {now : Int64} {call : ForwardCall}

/-- What came as the credential of a call has no say in what is forwarded. -/
theorem forward_without_authorization (g : Gateway) (net : Network σ) (now : Int64)
    (call : ForwardCall) (s : σ) :
    g.forward net now { call with headers := call.headers.without ["authorization"] } s =
      g.forward net now call s := by
  have hout : ∀ token, outbound? (call.headers.without ["authorization"]) token =
      outbound? call.headers token := by
    intro token
    have hcomm : ((call.headers.without ["authorization"]).without requestOnly).without
        ["authorization"] = (call.headers.without requestOnly).without ["authorization"] := by
      simp only [Headers.without, List.filter_filter]
      exact List.filter_congr fun f _ => by
        cases (["authorization"].contains f.name) <;> cases (requestOnly.contains f.name) <;> rfl
    rw [outbound?, outbound?, Headers.put, Headers.put, hcomm]
  unfold forward outboundWith?
  simp only [hout]

/-- Whatever path and query are, their address is on the server of the registry's address. -/
theorem origin_of_targetUrl {address : String} {base u : Url} {path : String}
    {query : Option String} (haddress : g.apiUrl = RegistrySettings.trimSlashes address)
    (hbase : Url.ofText address = .ok base) (hhttp : base.isHttp = true)
    (hu : Url.ofText (g.targetUrl path query) = .ok u) : u.origin = base.origin := by
  rw [targetUrl_eq, haddress] at hu
  rcases Url.servesBelow_trimSlashes hbase hhttp with ⟨f, hf⟩ |
    ⟨server, after, own, hserves, rfl, -⟩
  · exact absurd ((hf _).symm.trans hu) (by simp)
  · obtain rfl := Except.ok.inj ((hserves.read _).symm.trans hu)
    rw [Url.withPath_origin, Url.withPath_origin]

/-- Whether requests that were sent for a call at the time `now` keep the credential with the
registry at `home`. -/
structure KeepsCredential (g : Gateway) (home : Origin) (now : Int64) (token : String)
    (sent : List WireRequest) : Prop where
  issued : g.issuer.issue now = .ok token
  /-- The token says that it was issued at this very time. -/
  fresh : Token.issuedAt? token = some now.toInt
  /-- The first request goes to the registry, with the token as its only credential. -/
  first : ∀ w ∈ sent.head?,
    w.origin = home ∧ w.headers.values "authorization" = [bearer token]
  /-- No request has another credential, or the same one twice. -/
  single : ∀ w ∈ sent, w.headers.values "authorization" = [bearer token] ∨
    w.headers.values "authorization" = []
  /-- No other host or port is told of the token. -/
  elsewhere : ∀ w ∈ sent, w.origin ≠ home → w.headers.values "authorization" = []
  /-- However often the answers redirect, only so many requests are sent. -/
  atMost : sent.length ≤ 11

/-- The requests of a chain that starts with the first call of a forwarded call keep the credential
with the registry. -/
theorem exists_keepsCredential {home : Origin} {c : Call} {later : List Call}
    (hhome : ∀ u, Url.ofText (g.targetUrl call.path call.query) = .ok u → u.origin = home)
    (hc : g.firstCall? now call = .ok c) (hlength : later.length ≤ Agent.maxRedirects)
    (hchain : List.IsChain Call.LeadsTo (c :: later)) :
    ∃ token, g.KeepsCredential home now token ((c :: later).map Call.wire) := by
  obtain ⟨token, u, htoken, hu, hfirst⟩ := isFirstCall_of_firstCall? hc
  -- the invariant holds of the first call, and the chain keeps it
  have horigin : c.url.origin = home := by
    rw [← hhome u hu]
    rcases hfirst.url with h | h
    · rw [h]
    · rw [h]
      rfl
  have hauth : c.headers.values "authorization" = [bearer token] := by
    rw [hfirst.headers, passedValues_authorization]
    rfl
  have hkeeps := Call.KeepsCredential.of_chain (v := bearer token)
    (Or.inl ⟨horigin, hauth⟩) hchain
  have hall : ∀ w ∈ (c :: later).map Call.wire, (w.origin = home ∧
      w.headers.values "authorization" = [bearer token]) ∨
      w.headers.values "authorization" = [] := by
    intro w hw
    obtain ⟨d, hd, rfl⟩ := List.mem_map.1 hw
    rw [Call.values_wire_of_ne (by decide) (by decide)]
    exact hkeeps d hd
  refine ⟨token, htoken, Token.issuedAt?_of_issue htoken, ?_, ?_, ?_, ?_⟩
  · intro w hw
    obtain rfl := Option.some.inj hw
    rw [Call.values_wire_of_ne (by decide) (by decide)]
    exact ⟨horigin, hauth⟩
  · intro w hw
    exact (hall w hw).imp_left And.right
  · intro w hw hother
    rcases hall w hw with h | h
    · exact absurd h.1 hother
    · exact h
  · rw [List.length_map, List.length_cons]
    exact Nat.succ_le_succ hlength

/-- Along the whole chain of redirects of a forwarded call, the credential stays with the registry,
whatever path, query, header and body the call has and whatever is answered; and a credential that
came with the call has no say in any of it. -/
theorem forward_keeps_credential {address : String} {base : Url}
    (haddress : g.apiUrl = RegistrySettings.trimSlashes address)
    (hbase : Url.ofText address = .ok base) (hhttp : base.isHttp = true)
    (net : Network σ) (now : Int64) (call : ForwardCall) (s : σ) :
    let bare := { call with headers := call.headers.without ["authorization"] }
    let sent := (g.forward net.recorded now call ([], s)).2.1
    (sent = [] ∨ ∃ token, g.KeepsCredential base.origin now token sent ∧
      ∀ v ∈ call.headers.values "authorization", v ≠ bearer token →
        ∀ w ∈ sent, v ∉ w.headers.values "authorization") ∧
    g.forward net.recorded now bare ([], s) = g.forward net.recorded now call ([], s) := by
  intro bare sent
  refine ⟨?_, forward_without_authorization g net.recorded now call ([], s)⟩
  rcases forward_recorded g net now call s with ⟨f, -, hrun, -⟩ |
    ⟨c, later, hc, hrun, hlength, hchain⟩
  · -- nothing is sent
    left
    show (g.forward net.recorded now call ([], s)).2.1 = []
    rw [hrun]
  · right
    have hsent : sent = (c :: later).map Call.wire := by
      show (g.forward net.recorded now call ([], s)).2.1 = _
      rw [hrun]
    obtain ⟨token, hkeeps⟩ := exists_keepsCredential
      (fun u hu => origin_of_targetUrl haddress hbase hhttp hu) hc hlength hchain
    rw [← hsent] at hkeeps
    refine ⟨token, hkeeps, ?_⟩
    intro v _ hv w hw
    rcases hkeeps.single w hw with h | h
    · rw [h]
      simpa using hv
    · rw [h]
      exact List.not_mem_nil

/-- An upload to a registry with a port and a path of its own, with a path that looks like another
host. It is sent, and the registry answers it with redirects only. -/
theorem forward_keeps_credential_upload :
    let g : Gateway := ⟨"http://registry.example:8000/v1", exampleIssuer⟩
    let home : Origin := ⟨"registry.example".toList, 8000⟩
    let net := Backend.network fun _ b => some b
    let backend : Backend := ⟨fun _ => true, [], ⟨⟨307⟩, [], .empty⟩, []⟩
    let call : ForwardCall := ⟨.put, "@other.example/..", some "@x", [], [0x7B, 0x7D]⟩
    let sent := (g.forward net.recorded 0 call ([], backend)).2.1
    sent ≠ [] ∧ (sent = [] ∨ ∃ token, g.KeepsCredential home 0 token sent ∧
      ∀ v ∈ call.headers.values "authorization", v ≠ bearer token →
        ∀ w ∈ sent, v ∉ w.headers.values "authorization") := by
  intro g home net backend call sent
  have haddress : g.apiUrl = RegistrySettings.trimSlashes "http://registry.example:8000/v1/" := by
    rfl
  have hbase : Url.ofText "http://registry.example:8000/v1/" = .ok ⟨"http".toList, [], none,
      some "registry.example".toList, some 8000, .segments ["v1".toList, []], none, none⟩ := by rfl
  have hurl : g.targetUrl call.path call.query =
      "http://registry.example:8000/v1/@other.example/..?@x" := by decide
  obtain ⟨token, htoken⟩ := exists_token_of_exampleIssuer
  obtain ⟨first, hfirst, -⟩ := exists_first_sent (g := g) (u := ⟨"http".toList, [], none,
    some "registry.example".toList, some 8000, .segments ["v1".toList, []], some "@x".toList, none⟩)
    call (by decide) htoken (by rw [hurl]; rfl) (by decide) (by decide) (by decide) (by decide) net
    backend
  have hsent : sent ≠ [] := by
    intro hnil
    have hnone : sent.head? = none := List.head?_eq_none_iff.2 hnil
    exact absurd (hfirst.symm.trans hnone) (by simp)
  exact ⟨hsent, (forward_keeps_credential haddress hbase (by decide) net 0 call backend).1⟩

end Gateway

end RegistryConsole
