import RegistryConsole.Proofs.Requests
import RegistryConsole.Proofs.Routes
import RegistryConsole.Proofs.Url.Host

/-! # The target that the registry is asked for

The path and the query of a request are put after the registry's address, and the text of it all is
read as a URL. So they reach the registry as they are exactly if they are plain, and the request is
not for a tunnel: such a request names a server and nothing else. -/

namespace RegistryConsole

/-- What a URL that is sent says of its server is told from a path as well. -/
theorem Url.staysInAuthority_sentUrl {u : Url}
    (h : StaysInAuthority u.userText ∧ StaysInAuthority u.hostText) :
    StaysInAuthority ((Call.sentUrl u).userText ++ (Call.sentUrl u).hostText) := by
  rcases Call.sentUrl_cases u with hsent | hsent
  · rw [hsent]
    exact h.1.append h.2
  · rw [hsent]
    exact staysInAuthority_nil.append h.2

/-! ## What a request may ask for -/

namespace RequestTarget

/-- Whether a character may stand in a query: no blank, and not the start of a fragment. -/
def IsQueryChar (c : Char) : Prop :=
  0x20 < c.toNat ∧ c.toNat ≠ 0x23

/-- Whether a character may stand in a path: not the start of a query either. -/
def IsPathChar (c : Char) : Prop :=
  IsQueryChar c ∧ c.toNat ≠ 0x3F

instance (c : Char) : Decidable (IsQueryChar c) :=
  inferInstanceAs (Decidable (_ ∧ _))

instance (c : Char) : Decidable (IsPathChar c) :=
  inferInstanceAs (Decidable (_ ∧ _))

/-- Whether a target has only what may stand in it. -/
structure IsLegal (t : RequestTarget) : Prop where
  path : ∀ c ∈ t.path.toList, IsPathChar c
  query : ∀ q ∈ t.query, ∀ c ∈ q.toList, IsQueryChar c

/-- A path of one character that may stand there. -/
theorem isPathChar_of_mem_one {path : String} {c : Char} (hpath : path.toList = [c])
    (hc : IsPathChar c) : ∀ x ∈ path.toList, IsPathChar x := by
  intro x hx
  rw [hpath, List.mem_singleton] at hx
  rw [hx]
  exact hc

/-- Path and query are read from octets that may stand there. -/
theorem readPath_ok {text : Bytes} {path : String} {query : Option String}
    (h : readPath text = .ok (path, query)) (lead : String) : IsLegal ⟨lead, path, query⟩ := by
  unfold readPath at h
  dsimp only at h
  split at h
  · next hall =>
    rw [Bool.and_eq_true, List.all_eq_true, List.all_eq_true] at hall
    split at h
    · next p q hp hq =>
      obtain ⟨rfl, rfl⟩ := Prod.mk.inj (Except.ok.inj h)
      refine ⟨?_, ?_⟩
      · refine Utf8.toNat_of_toString? (p := fun n => (0x20 < n ∧ n ≠ 0x23) ∧ n ≠ 0x3F)
          (fun n hn => by omega) (fun b hb => ?_) hp
        have hoctet := hall.1 b hb
        simp only [isPathOctet, isQueryOctet, Bool.or_eq_true, Bool.and_eq_true, beq_iff_eq,
          decide_eq_true_eq] at hoctet
        omega
      · intro q' hq'
        dsimp only at hq'
        split at hq'
        · exact absurd hq' (by simp)
        · obtain rfl := Option.some.inj hq'
          refine Utf8.toNat_of_toString? (p := fun n => 0x20 < n ∧ n ≠ 0x23)
            (fun n hn => by omega) (fun b hb => ?_) hq
          have hoctet := hall.2 b hb
          simp only [isQueryOctet, Bool.or_eq_true, Bool.and_eq_true, beq_iff_eq,
            decide_eq_true_eq] at hoctet
          omega
    · exact absurd h (by simp)
  · exact absurd h (by simp)

/-- A target without path and query. -/
theorem isLegal_lead (lead : String) : IsLegal ⟨lead, "", none⟩ :=
  ⟨fun c hc => absurd hc (by simp), fun q hq => absurd hq (by simp)⟩

/-- What a computation that gives a result has gone through. -/
theorem exists_of_bind_eq_ok {ε α β : Type} {x : Except ε α} {f : α → Except ε β} {b : β}
    (h : x >>= f = .ok b) : ∃ a, x = .ok a ∧ f a = .ok b := by
  cases x with
  | error e => exact absurd h (by simp [bind, Except.bind])
  | ok a => exact ⟨a, rfl, h⟩

theorem isLegal_of_readFull {text : Bytes} {t : RequestTarget} (h : readFull text = .ok t) :
    IsLegal t := by
  unfold readFull at h
  split at h
  · obtain ⟨part, -, h⟩ := exists_of_bind_eq_ok h
    split at h
    · obtain rfl := Except.ok.inj h
      exact isLegal_lead _
    · exact absurd h (by simp)
  · split at h
    · exact absurd h (by simp)
    · dsimp only at h
      obtain ⟨part, -, h⟩ := exists_of_bind_eq_ok h
      split at h
      · exact absurd h (by simp)
      · obtain ⟨⟨path, query⟩, hread, h⟩ := exists_of_bind_eq_ok h
        obtain rfl := Except.ok.inj h
        have hlegal := readPath_ok hread ""
        refine ⟨?_, hlegal.query⟩
        dsimp only
        split
        · exact isPathChar_of_mem_one (c := '/') rfl (by decide)
        · exact hlegal.path

/-- Whatever octets spell a target, it has only what may stand in it. -/
theorem isLegal_of_ofBytes? {text : Bytes} {t : RequestTarget} (h : ofBytes? text = .ok t) :
    IsLegal t := by
  unfold ofBytes? at h
  split at h
  · exact absurd h (by simp)
  · split at h
    · exact absurd h (by simp)
    · obtain rfl := Except.ok.inj h
      exact ⟨isPathChar_of_mem_one (c := '*') rfl (by decide),
        fun q hq => absurd hq (by simp)⟩
    · obtain ⟨⟨path, query⟩, hread, h⟩ := exists_of_bind_eq_ok h
      obtain rfl := Except.ok.inj h
      exact readPath_ok hread ""
    · obtain ⟨part, -, h⟩ := exists_of_bind_eq_ok h
      split at h
      · obtain rfl := Except.ok.inj h
        exact isLegal_lead _
      · exact absurd h (by simp)
    · exact isLegal_of_readFull h

end RequestTarget

/-! ## The target of an address -/

namespace Gateway

/-- The path of the registry's own address, up to the slash that any path is put after. -/
def basePath (g : Gateway) : List Char :=
  match Url.ofText (g.targetUrl "" none) with
  | .ok root => root.path.text.dropLast
  | .error _ => []

variable {g : Gateway} {server : Url} {after : List Char} {path : String} {query : Option String}

/-- What a legal request adds to the address counts as a whole. -/
theorem keptEnd_requested (hlegal : RequestTarget.IsLegal ⟨"", path, query⟩) :
    Url.keptEnd (path.toList ++ queryText query) = path.toList ++ queryText query := by
  apply Url.keptEnd_eq_self
  intro c hc
  rcases List.mem_append.1 hc with hc | hc
  · exact (hlegal.path c hc).1.1
  · rcases queryText_cases query with ⟨hnil, -⟩ | ⟨q, rfl, -, hsome⟩
    · rw [hnil] at hc
      exact absurd hc List.not_mem_nil
    · rw [hsome] at hc
      rcases List.mem_cons.1 hc with rfl | hc
      · decide
      · exact (hlegal.query q rfl c hc).1

/-- A legal query ends the target, with what is to be escaped in it escaped. -/
theorem target_withEnd_queryText {u : Url} (hspecial : u.kind.isSpecial = true)
    (hnone : u.query = none) (hlegal : RequestTarget.IsLegal ⟨"", path, query⟩) :
    (u.withEnd (queryText query)).target = u.path.text ++
      match queryText query with
      | [] => []
      | mark :: q => mark :: Escape.text Escape.inWebQuery q := by
  rcases queryText_cases query with ⟨hnil, -⟩ | ⟨q, rfl, -, hsome⟩
  · rw [hnil, Url.target_withEnd_nil hnone, List.append_nil]
  · rw [hsome, Url.target_withEnd_query hspecial]
    intro hmem
    exact absurd rfl (hlegal.query q rfl '#' hmem).2

/-- The address of a legal request: its path is read below the parts of the registry's own path, and
its query after it. -/
theorem exists_ofText_targetUrl_eq (hserves : Url.ServesBelow g.apiUrl server after)
    (hafter : ∀ c ∈ after, Url.isInPath c = true) :
    ∃ parts : List (List Char), (∀ part ∈ parts, ∀ c ∈ part, Url.IsPlainChar c) ∧
      ∀ (path : String) (query : Option String), RequestTarget.IsLegal ⟨"", path, query⟩ →
        Url.ofText (g.targetUrl path query) = .ok ({ server with
          path := .segments (Url.pushSegments parts (Url.readSegments path.toList)) }.withEnd
            (queryText query)) := by
  obtain ⟨parts, hparts, hread⟩ := Url.exists_withPath_eq hserves.special hserves.ends hafter
  refine ⟨parts, hparts, ?_⟩
  intro path query hlegal
  have hpath : ∀ c ∈ path.toList, Url.isInPath c = true := by
    intro c hc
    have hchar := hlegal.path c hc
    simp only [Url.isInPath, Bool.and_eq_true, bne_iff_ne, ne_eq]
    refine ⟨?_, ?_⟩
    · rintro rfl
      exact hchar.2 rfl
    · rintro rfl
      exact hchar.1.2 rfl
  have htail : ∀ c ∈ (queryText query).head?, Url.isInPath c = false := by
    rcases queryText_cases query with ⟨hnil, -⟩ | ⟨q, rfl, -, hsome⟩
    · rw [hnil]
      exact fun c hc => absurd hc (by simp)
    · rw [hsome]
      intro c hc
      obtain rfl := Option.some.inj hc
      rfl
  rw [targetUrl_eq, hserves.read, String.toList_ofList, keptEnd_requested hlegal,
    hread path.toList (queryText query) hpath htail]

/-- The path of the registry's own address is the text of the parts that others are put below. -/
theorem basePath_eq {parts : List (List Char)}
    (hread : Url.ofText (g.targetUrl "" none) = .ok ({ server with
      path := .segments (Url.pushSegments parts (Url.readSegments [])) }.withEnd [])) :
    g.basePath = Url.pathText parts := by
  rw [basePath, hread]
  show (Url.pathText (Url.pushSegments parts [[]])).dropLast = Url.pathText parts
  rw [Url.pathText_pushSegments (by decide), Url.pathText_cons, Url.pathText_nil]
  exact List.dropLast_concat

/-- The target of a legal request is the registry's own path, the path and the query as they came
exactly if both are plain. -/
theorem target_eq_iff (hserves : Url.ServesBelow g.apiUrl server after)
    (hafter : ∀ c ∈ after, Url.isInPath c = true)
    (hlegal : RequestTarget.IsLegal ⟨"", path, query⟩) {u : Url}
    (hu : Url.ofText (g.targetUrl path query) = .ok u) :
    u.target = g.basePath ++ '/' :: (path.toList ++ queryText query) ↔
      Url.IsPlainPath path.toList ∧ ∀ q ∈ query, Url.IsPlainQuery q.toList := by
  -- the same parts stand before every path, also before the empty one
  obtain ⟨parts, hparts, hread⟩ := exists_ofText_targetUrl_eq hserves hafter
  have hbase := basePath_eq (hread "" none (RequestTarget.isLegal_lead ""))
  obtain rfl := Except.ok.inj ((hread path query hlegal).symm.trans hu)
  have htarget := target_withEnd_queryText (u := { server with
    path := .segments (Url.pushSegments parts (Url.readSegments path.toList)) })
    hserves.special hserves.query hlegal
  have hiff := Url.pathText_pushSegments_eq_iff hparts path.toList
  have htext : ∀ c ∈ Url.pathText (Url.pushSegments parts (Url.readSegments path.toList)),
      Url.IsPlainChar c := fun c => Url.isPlainChar_of_mem_pathText
    (Url.isPlainChar_of_mem_pushSegments hparts fun part hpart c =>
      Url.isPlainChar_of_mem_readSegments hpart)
  rw [htarget, hbase]
  show Url.pathText (Url.pushSegments parts (Url.readSegments path.toList)) ++ _ = _ ↔ _
  rcases queryText_cases query with ⟨hnil, hempty⟩ | ⟨q, rfl, -, hsome⟩
  · rw [hnil, List.append_nil, List.append_nil, hiff]
    -- no query is plain
    have hplain : ∀ q ∈ query, Url.IsPlainQuery q.toList := by
      intro q hq
      rw [hempty q hq]
      exact fun c hc => absurd hc (by simp)
    exact (and_iff_left hplain).symm
  · -- neither path has a question mark, so paths and queries can be compared one by one
    have hmark : '?' ∉ Url.pathText parts ++ '/' :: path.toList := by
      intro hmem
      rcases List.mem_append.1 hmem with h | h
      · exact absurd (Url.isPlainChar_of_mem_pathText hparts h).1 (by decide)
      · rcases List.mem_cons.1 h with h | h
        · exact absurd h (by decide)
        · exact (hlegal.path '?' h).2 rfl
    rw [hsome]
    dsimp only
    rw [← List.cons_append, ← List.append_assoc,
      append_cons_eq_iff_of_not_mem (fun h => absurd (htext '?' h).1 (by decide)) hmark, hiff,
      Escape.text_eq_self_iff Escape.isFinal_inWebQuery]
    simp [Url.IsPlainQuery]

/-- The URL of a first call is that of the call's address, but for the user. -/
theorem exists_url_of_firstCall? {now : Int64} {call : ForwardCall} {c : Call}
    (h : g.firstCall? now call = .ok c) :
    ∃ u, Url.ofText (g.targetUrl call.path call.query) = .ok u ∧ u.isHttp = true ∧
      c.url = Call.sentUrl u := by
  obtain ⟨_, _, _, -, -, hprepared⟩ := firstCall?_ok h
  obtain ⟨u, hu, hc, -, hhttp⟩ := Agent.prepared?_ok hprepared
  obtain ⟨headers, hmoved⟩ := Call.withCredentials_eq ⟨call.method, u, _, _⟩
  have hurl : c.url = Call.sentUrl u := by
    rw [hc, hmoved]
    rfl
  obtain ⟨user, password, hsame⟩ := Call.exists_sentUrl_eq u
  rw [hurl, hsame] at hhttp
  exact ⟨u, hu, hhttp, hurl⟩

/-- The first request that is sent for a call asks for the target of the call's address, or if it is
for a tunnel, for a server. -/
theorem exists_first_target {σ : Type} {net : Network σ} {now : Int64} {call : ForwardCall} {s : σ}
    {first : WireRequest} (h : first ∈ (g.forward net.recorded now call ([], s)).2.1.head?) :
    ∃ u, Url.ofText (g.targetUrl call.path call.query) = .ok u ∧
      (call.method ≠ .connect → first.target = u.target) ∧
      (call.method = .connect → Url.StaysInAuthority first.target) := by
  rcases forward_recorded g net now call s with ⟨f, -, hrun, -⟩ | ⟨c, later, hc, hrun, -, -⟩
  · rw [hrun] at h
    exact absurd h (by simp)
  · rw [hrun] at h
    obtain rfl := Option.some.inj h
    obtain ⟨_, _, -, -, hfirst⟩ := isFirstCall_of_firstCall? hc
    obtain ⟨u, hu, hhttp, hurl⟩ := exists_url_of_firstCall? hc
    refine ⟨u, hu, fun hmethod => ?_, fun hmethod => ?_⟩
    · show c.target = u.target
      rw [Call.target_of_ne (hfirst.method ▸ hmethod), hurl]
      obtain ⟨user, password, hsame⟩ := Call.exists_sentUrl_eq u
      rw [hsame]
      rfl
    · show Url.StaysInAuthority c.target
      rw [Call.target, if_pos (hfirst.method.trans hmethod), hurl]
      exact Url.staysInAuthority_sentUrl (Url.staysInAuthority_of_ofText hu hhttp)

end Gateway

namespace Console

variable {σ : Type}

/-- What is legal in a target is legal in what is below the registry's lead. -/
theorem isLegal_of_registry {text : Bytes} {t : RequestTarget} {path : String}
    (h : RequestTarget.ofBytes? text = .ok t) (hroute : Route.of t.path = .registry path) :
    RequestTarget.IsLegal ⟨"", path, t.query⟩ := by
  have hlegal := RequestTarget.isLegal_of_ofBytes? h
  refine ⟨fun c hc => hlegal.path c ?_, hlegal.query⟩
  rw [(Route.of_eq_registry_iff.1 hroute).1, String.toList_append]
  exact List.mem_append_right _ hc

/-- The target that the registry is asked for, when a request is sent at all, is its own path, the
path of the request and the query as they came, exactly if the request is not for a tunnel, and path
and query are plain: nothing in them is escaped, no backslash stands for a slash, and no segment is
a point or two. -/
theorem answer_target_eq_iff {c : Console} {address : String} {base : Url}
    (haddress : c.gateway.apiUrl = RegistrySettings.trimSlashes address)
    (hbase : Url.ofText address = .ok base) (hhttp : base.isHttp = true)
    (hquery : base.query = none) (hfragment : base.fragment = none)
    {text : Bytes} {r : InboundRequest} {path : String}
    (htarget : RequestTarget.ofBytes? text = .ok r.target)
    (hroute : Route.of r.target.path = .registry path)
    (net : Network σ) (now : Int64) (s : σ) :
    ∀ first ∈ (c.answer net.recorded now r ([], s)).2.1.head?,
      (first.target =
          c.gateway.basePath ++ '/' :: (path.toList ++ Gateway.queryText r.target.query) ↔
        r.method ≠ .connect ∧ Url.IsPlainPath path.toList ∧
          ∀ q ∈ r.target.query, Url.IsPlainQuery q.toList) := by
  intro first hfirst
  rw [answer_of_registry hroute] at hfirst
  have hlegal := isLegal_of_registry htarget hroute
  cases hread : r.body.read c.maxBody with
  | error f =>
    rw [relay_of_unread hread] at hfirst
    exact absurd hfirst (by simp)
  | ok body =>
    rw [relay_of_read hread] at hfirst
    obtain ⟨u, hu, hsame, hserver⟩ := Gateway.exists_first_target hfirst
    by_cases htunnel : r.method = .connect
    · -- a server is told from every path by the slash before it
      refine iff_of_false (fun hpath => ?_) fun h => h.1 htunnel
      have hslash := hserver htunnel '/' (by rw [hpath]; simp)
      exact absurd hslash (by decide)
    rcases Url.servesBelow_trimSlashes hbase hhttp with ⟨f, hf⟩ |
      ⟨server, after, own, hserves, rfl, hown⟩
    · -- without a URL nothing is sent
      rw [Gateway.targetUrl_eq, haddress, hf] at hu
      exact absurd hu (by simp)
    · -- the address has neither query nor fragment, so all that comes before the path is path
      have hafter : ∀ x ∈ after, Url.isInPath x = true := by
        have hpath := Url.isInPath_of_withPath hserves.special hquery hfragment
        intro x hx
        rcases hown x hx with h | h
        · exact hpath x h
        · exact Url.isInPath_of_blank h
      rw [← haddress] at hserves
      rw [hsame htunnel, and_iff_right htunnel]
      exact Gateway.target_eq_iff hserves hafter hlegal hu

/-- A request for the registry is sent if its body is whole and not too long, there is a token, and
its address is one that may be called. -/
theorem exists_first_sent {c : Console} {now : Int64} {r : InboundRequest} {path token : String}
    {u : Url} (hmethod : r.method ≠ .connect) (hroute : Route.of r.target.path = .registry path)
    (hfits : r.body.bytes.length ≤ c.maxBody) (hwhole : r.body.broken = none)
    (htoken : c.gateway.issuer.issue now = .ok token)
    (hu : Url.ofText (c.gateway.targetUrl path r.target.query) = .ok u)
    (huser : u.user = [] ∧ u.password = none) (hhost : u.hasHost = true)
    (hhttp : u.isHttp = true) (htext : (RequestTarget.ofBytes? (Utf8.ofString u.text)).isOk)
    (net : Network σ) (s : σ) :
    ∃ first, (c.answer net.recorded now r ([], s)).2.1.head? = some first ∧
      first.target = u.target := by
  rw [answer_of_registry hroute, relay_of_read (InboundBody.read_of_whole hfits hwhole)]
  exact Gateway.exists_first_sent ⟨r.method, path, r.target.query, r.headers, r.body.bytes⟩ hmethod
    htoken hu huser hhost hhttp htext net s

/-- A console with a key and without files, for a registry with the path `/base`. -/
def exampleConsole : Console :=
  ⟨⟨"http://registry.example/base", exampleIssuer⟩, 1048576, ⟨.empty, [], fun _ => none⟩⟩

theorem exampleConsole_basePath : exampleConsole.gateway.basePath = "/base".toList := by
  have hroot : exampleConsole.gateway.targetUrl "" none = "http://registry.example/base/" := by
    decide
  rw [Gateway.basePath, hroot]
  rfl

/-- A path with an escape and a query, both plain, reach the registry as they came. -/
theorem answer_target_eq_iff_plain :
    let net := Backend.network fun _ b => some b
    let backend : Backend := ⟨fun _ => true, [], ⟨.ok, [], .empty⟩, []⟩
    let t : RequestTarget := ⟨"", "/api/object-registry/ns/a%20b", some "limit=1"⟩
    let sent := (exampleConsole.answer net.recorded 0 ⟨.get, t, [], ⟨[], none⟩⟩ ([], backend)).2.1
    RequestTarget.ofBytes? (Utf8.ofString "/api/object-registry/ns/a%20b?limit=1") = .ok t ∧
    ∃ first, sent.head? = some first ∧ first.target = "/base/ns/a%20b?limit=1".toList := by
  intro net backend t sent
  have htarget : RequestTarget.ofBytes?
      (Utf8.ofString "/api/object-registry/ns/a%20b?limit=1") = .ok t := by rfl
  have hroute : Route.of t.path = .registry "ns/a%20b" :=
    Route.of_eq_registry_iff.2 ⟨by decide, by decide⟩
  have haddress : exampleConsole.gateway.apiUrl =
      RegistrySettings.trimSlashes "http://registry.example/base" := by rfl
  have hbase : Url.ofText "http://registry.example/base" = .ok ⟨"http".toList, [], none,
      some "registry.example".toList, none, .segments ["base".toList], none, none⟩ := by rfl
  have hurl : exampleConsole.gateway.targetUrl "ns/a%20b" t.query =
      "http://registry.example/base/ns/a%20b?limit=1" := by decide
  obtain ⟨token, htoken⟩ := exists_token_of_exampleIssuer
  obtain ⟨first, hfirst, -⟩ := exists_first_sent (c := exampleConsole)
    (r := ⟨.get, t, [], ⟨[], none⟩⟩) (u := ⟨"http".toList, [], none,
      some "registry.example".toList, none, .segments ["base".toList, "ns".toList, "a%20b".toList],
      some "limit=1".toList, none⟩) (by decide) hroute (by decide) rfl htoken (by rw [hurl]; rfl)
    (by decide) (by decide) (by decide) (by decide) net backend
  refine ⟨htarget, first, hfirst, ?_⟩
  have hsame := (answer_target_eq_iff haddress hbase (by decide) rfl rfl
    (r := ⟨.get, t, [], ⟨[], none⟩⟩) htarget hroute net 0 backend first hfirst).2
    ⟨by decide, by decide, by decide⟩
  rw [exampleConsole_basePath] at hsame
  exact hsame

/-- A path that goes up leaves the registry's own path. -/
theorem answer_target_of_dots :
    let net := Backend.network fun _ b => some b
    let backend : Backend := ⟨fun _ => true, [], ⟨.ok, [], .empty⟩, []⟩
    let t : RequestTarget := ⟨"", "/api/object-registry/ns/../../secret", none⟩
    let sent := (exampleConsole.answer net.recorded 0 ⟨.get, t, [], ⟨[], none⟩⟩ ([], backend)).2.1
    RequestTarget.ofBytes? (Utf8.ofString "/api/object-registry/ns/../../secret") = .ok t ∧
    Route.of t.path = .registry "ns/../../secret" ∧
    exampleConsole.gateway.basePath = "/base".toList ∧
    ∃ first, sent.head? = some first ∧ first.target = "/secret".toList := by
  intro net backend t sent
  have hroute : Route.of t.path = .registry "ns/../../secret" :=
    Route.of_eq_registry_iff.2 ⟨by decide, by decide⟩
  have hurl : exampleConsole.gateway.targetUrl "ns/../../secret" t.query =
      "http://registry.example/base/ns/../../secret" := by decide
  obtain ⟨token, htoken⟩ := exists_token_of_exampleIssuer
  refine ⟨by rfl, hroute, exampleConsole_basePath, ?_⟩
  exact exists_first_sent (c := exampleConsole) (r := ⟨.get, t, [], ⟨[], none⟩⟩)
    (u := ⟨"http".toList, [], none, some "registry.example".toList, none,
      .segments ["secret".toList], none, none⟩) (by decide) hroute (by decide) rfl htoken
    (by rw [hurl]; rfl) (by decide) (by decide) (by decide) (by decide) net backend

end Console

end RegistryConsole
