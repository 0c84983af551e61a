import RegistryConsole.Proofs.Calls
import RegistryConsole.Proofs.Refusals
import RegistryConsole.Proofs.Url.Server

/-! # What arrives at the registry

An operation on an object goes through two servers: the client calls the console, and the console
calls the registry. The address of the object is put together and read twice on the way, and taken
apart in between. An object with a plain name arrives under that name, below the path of the
registry's own address, and a version comes out of the query as the text that it was. -/

namespace RegistryConsole

variable {σ : Type}

/-! ## What later requests leave as it is -/

namespace Console

variable {p : σ → Prop} {net : Network σ}

/-- What every request leaves true of a network, the answer of the console leaves true of it. -/
theorem answer_preserves (hstep : ∀ w t, p t → p (net.deliver w t).2) (c : Console) (now : Int64)
    (r : InboundRequest) {s : σ} (hs : p s) : p (c.answer net now r s).2 := by
  rw [answer_left]
  cases c.call? r with
  | none => exact hs
  | some call => exact Gateway.forward_preserves hstep c.gateway now call hs

/-- What every request leaves true of the network behind the console, one to the console leaves true
of it. -/
theorem network_preserves (hstep : ∀ w t, p t → p (net.deliver w t).2) (c : Console)
    (address : Origin) (now : Int64) (w : WireRequest) (t : List LogEvent × σ) (ht : p t.2) :
    p ((c.network address now net).deliver w t).2.2 := by
  dsimp only [network]
  split
  · split
    · exact ht
    · exact answer_preserves hstep c now _ ht
  · exact hstep w t.2 ht

end Console

/-! ## First requests -/

/-- A call to a URL is sent to its server, for what the URL names. -/
theorem Call.wire_eq_of_sentUrl {c : Call} {u : Url} (hmethod : c.method ≠ .connect)
    (h : c.url = sentUrl u) :
    c.wire.origin = u.origin ∧ c.wire.isSecure = decide (u.scheme = "https".toList) ∧
      c.wire.target = u.target := by
  -- the user is no part of any of them
  have hkept : (sentUrl u).origin = u.origin ∧ (sentUrl u).scheme = u.scheme ∧
      (sentUrl u).target = u.target := by
    obtain ⟨user, password, hsent⟩ := exists_sentUrl_eq u
    rw [hsent]
    exact ⟨rfl, rfl, rfl⟩
  rw [← h] at hkept
  refine ⟨hkept.1, ?_, (target_of_ne hmethod).trans hkept.2.2⟩
  rw [← hkept.2.1]
  rfl

/-- A call to a URL of a server is sent to the server, for what the URL names. -/
theorem Call.wire_of_sentUrl {c : Call} {u : Url} (hmethod : c.method ≠ .connect)
    (h : c.url = sentUrl u) (hscheme : u.scheme = "http".toList) :
    c.wire.origin = u.origin ∧ c.wire.isSecure = false ∧ c.wire.target = u.target := by
  obtain ⟨horigin, hsecure, htarget⟩ := wire_eq_of_sentUrl hmethod h
  rw [hscheme] at hsecure
  exact ⟨horigin, hsecure.trans (by decide), htarget⟩

namespace Client

/-- What the first request of a task makes true of the network and no request makes false, is true
of it once the task is carried out. -/
theorem perform_preserves {p : σ → Prop} {c : Client} {net : Network σ} {task : Task} {call : Call}
    {s : σ} (hready : c.ready? task = .ok call) (hstep : ∀ w t, p t → p (net.deliver w t).2)
    (hfirst : p (net.deliver call.wire s).2) : p (c.perform net task s).2 := by
  obtain ⟨steps, hrun⟩ := agent.exists_run net call.url Agent.maxRedirects call s
  rw [perform_eq, hready]
  exact hrun.preserves hstep hfirst

end Client

/-- Whether a request is the first on a record. -/
def WireRequest.IsFirst (first : WireRequest) (state : List WireRequest × σ) : Prop :=
  state.1.head? = some first

/-- What comes first on a record stays there. -/
theorem WireRequest.IsFirst.deliver {first : WireRequest} {state : List WireRequest × σ}
    (h : first.IsFirst state) (net : Network σ) (w : WireRequest) :
    first.IsFirst (net.recorded.deliver w state).2 := by
  show (state.1 ++ [w]).head? = some first
  rw [List.head?_append, show state.1.head? = some first from h]
  rfl

/-- The first request of a task has the console send one of its own, which is the first on a record
of what goes out behind the console. -/
theorem Client.isFirst_relayed {client : Client} {task : Task} {call : Call}
    (hready : client.ready? task = .ok call) {c : Console} {address : Origin} {r : InboundRequest}
    {path : String} (hasked : Console.asked? address call.wire = some (r, path)) {body : Bytes}
    (hread : r.body.read c.maxBody = .ok body) {now : Int64} {first : Call}
    (hfirst : c.gateway.firstCall? now ⟨r.method, path, r.target.query, r.headers, body⟩ =
      .ok first) (net : Network σ) (events : List LogEvent) (s : σ) :
    first.wire.IsFirst
      (client.perform (c.network address now net.recorded) task (events, ([], s))).2.2 := by
  have hstep : ∀ w t, first.wire.IsFirst t.2 →
      first.wire.IsFirst ((c.network address now net.recorded).deliver w t).2.2 :=
    Console.network_preserves (fun w _ ht => ht.deliver net w) c address now
  have hsent : first.wire.IsFirst
      ((c.network address now net.recorded).deliver call.wire (events, ([], s))).2.2 := by
    rw [Console.deliver_of_asked? hasked, Console.relay_of_read hread]
    exact Gateway.head?_forward hfirst net s
  exact perform_preserves
    (p := fun t : List LogEvent × (List WireRequest × σ) => first.wire.IsFirst t.2)
    hready hstep hsent

/-! ## The address of an object -/

namespace Url

/-- A key of plain segments is a plain path. -/
theorem isPlainPath_of_splitOn {key : List Char}
    (h : ∀ segment ∈ key.splitOn '/', IsPlainSegment segment) : IsPlainPath key := by
  have hchars : ∀ segment ∈ key.splitOn '/', ∀ c ∈ segment, IsPlainChar c :=
    fun segment hsegment => (h segment hsegment).isPlainPath.1
  refine ⟨fun c hc => isPlainChar_of_mem_pathText hchars ?_, fun segment hsegment => ?_⟩
  · rw [pathText_splitOn]
    exact List.mem_cons_of_mem _ hc
  · have hplain := (h segment hsegment).isPlainPath.2
    rw [(h segment hsegment).splitOn_eq] at hplain
    exact hplain segment List.mem_cons_self

/-- A plain path below plain segments is one plain path. -/
theorem exists_isPlainPath_below {base : List (List Char)}
    (hbase : ∀ segment ∈ base, IsPlainSegment segment) {path : List Char}
    (hpath : IsPlainPath path) :
    ∃ whole, pathText base ++ '/' :: path = '/' :: whole ∧ IsPlainPath whole := by
  induction base with
  | nil => exact ⟨path, rfl, hpath⟩
  | cons segment base ih =>
    obtain ⟨hsegment, hrest⟩ := List.forall_mem_cons.1 hbase
    obtain ⟨whole, hwhole, hplain⟩ := ih hrest
    refine ⟨segment ++ '/' :: whole, ?_, isPlainPath_append_slash.2 ⟨hsegment.isPlainPath, hplain⟩⟩
    rw [pathText_cons, List.append_assoc, hwhole]
    rfl

end Url

/-- A text whose last part has no slash is not shortened. -/
theorem RegistrySettings.trimSlashes_eq_self {s : String} {front last : List Char}
    (h : s.toList = front ++ last) (hne : last ≠ []) (hlast : '/' ∉ last) :
    trimSlashes s = s := by
  have hkept : s.toList.reverse.dropWhile (· == '/') = s.toList.reverse := by
    rw [h, List.reverse_append]
    cases hrev : last.reverse with
    | nil => exact absurd (List.reverse_eq_nil_iff.1 hrev) hne
    | cons c rest =>
      have hc : c ∈ last := List.mem_reverse.1 (hrev ▸ List.mem_cons_self)
      refine List.dropWhile_cons_of_neg ?_
      rw [beq_iff_eq]
      rintro rfl
      exact hlast hc
  rw [trimSlashes, hkept, List.reverse_reverse, String.ofList_toList]

/-- The address of a server with plain segments below it has no slashes at its end. -/
theorem Url.IsServer.trimSlashes_eq {authority : String} {root : Url}
    (h : Url.IsServer authority root) (base : List (List Char))
    (hbase : ∀ segment ∈ base, Url.IsPlainSegment segment) :
    RegistrySettings.trimSlashes ("http://" ++ authority ++ String.ofList (Url.pathText base)) =
      "http://" ++ authority ++ String.ofList (Url.pathText base) := by
  rcases List.eq_nil_or_concat base with rfl | ⟨init, last, rfl⟩
  · have htext : ("http://" ++ authority ++ String.ofList (Url.pathText [])).toList =
        "http://".toList ++ authority.toList := by simp
    exact RegistrySettings.trimSlashes_eq_self htext h.exists_readServer.1 fun hmem =>
      absurd (h.whole '/' hmem).2 (by decide)
  · have hlast := hbase last (by simp)
    have htext : ("http://" ++ authority ++
        String.ofList (Url.pathText (init.concat last))).toList =
          ("http://" ++ authority).toList ++ Url.pathText init ++ ['/'] ++ last := by
      rw [String.toList_append, String.toList_ofList, List.concat_eq_append, Url.pathText_append,
        Url.pathText_cons, Url.pathText_nil]
      simp
    exact RegistrySettings.trimSlashes_eq_self htext hlast.ne_nil fun hmem =>
      (Url.isPlainChar_of_isUnreserved (hlast.unreserved _ hmem)).2.1 rfl

/-- A console that is asked for a plain path and a plain query finds them as they were sent. -/
theorem Console.asked?_of_target {u : Url} (hpath : ∀ c ∈ u.path.text, Url.IsPlainChar c)
    (hquery : ∀ q ∈ u.query, Url.IsPlainQuery q) {path : List Char}
    (hslash : u.path.text = '/' :: path)
    (hlength : (Utf8.encode u.target).length ≤ RequestTarget.maxLength) {rest : String}
    (hroute : Route.of (String.ofList ('/' :: path)) = .registry rest) {address : Origin}
    {w : WireRequest} (horigin : w.origin = address) (hsecure : w.isSecure = false)
    (htarget : w.target = u.target) :
    Console.asked? address w =
      some (⟨w.method, ⟨"", String.ofList ('/' :: path), u.query.map String.ofList⟩, w.headers,
        ⟨w.body, none⟩⟩, rest) := by
  have hread := RequestTarget.ofBytes?_target hpath hquery hslash hlength
  rw [hslash] at hread
  have hwire : Console.ofWire? w = some ⟨w.method, ⟨"", String.ofList ('/' :: path),
      u.query.map String.ofList⟩, w.headers, ⟨w.body, none⟩⟩ := by
    rw [Console.ofWire?, htarget, hread]
  rw [Console.asked?, if_pos ⟨horigin, by rw [hsecure]; rfl⟩, hwire]
  dsimp only
  rw [hroute]

/-! ## The way of an object's name -/

/-- The query for a version. -/
def versionQuery (version : Option String) : Option (List Char) :=
  version.map fun v => Form.encodePair ("version", v)

theorem isPlainQuery_versionQuery (version : Option String) :
    ∀ q ∈ versionQuery version, Url.IsPlainQuery q := by
  intro q hq
  obtain ⟨v, -, rfl⟩ := Option.map_eq_some_iff.1 hq
  exact Form.isPlainQuery_encodePair _

section

variable {authority : String} {root : Url} (h : Url.IsServer authority root)

include h

/-- The client puts an object below the path of the registry, and its version in the query. -/
theorem Client.urlWith_object {ns key : String} (hns : Url.IsPlainSegment ns.toList)
    (hkey : Url.IsPlainPath key.toList) (version : Option String) :
    (Client.of ("http://" ++ authority)).urlWith (objectPath ns key) (versionField version) =
      .ok (root.resource (objectLead ns ++ '/' :: key.toList) (versionQuery version)) := by
  have hpath := Url.isPlainPath_append_slash.2 ⟨isPlainPath_objectLead hns, hkey⟩
  have haddress := h.trimSlashes_eq [] (by simp)
  rw [Url.pathText_nil, String.ofList_nil, String.append_empty] at haddress
  have hnone : ∀ q ∈ (none : Option (List Char)), Url.IsPlainQuery q := by simp
  have hread := h.ofText_resource hpath hnone
  have hempty : (root.resource (objectLead ns ++ '/' :: key.toList) none).queryText = [] := rfl
  rw [hempty, List.append_nil] at hread
  rw [urlWith, url_objectPath hns, haddress, hread]
  cases version <;> rfl

/-- The console finds path and query as they were sent. -/
theorem Console.asked?_resource {path : List Char} (hpath : ∀ c ∈ path, Url.IsPlainChar c)
    {query : Option (List Char)} (hquery : ∀ q ∈ query, Url.IsPlainQuery q)
    (hfits : (root.resource path query).Fits) {rest : String}
    (hroute : Route.of (String.ofList ('/' :: path)) = .registry rest) {w : WireRequest}
    (horigin : w.origin = root.origin) (hsecure : w.isSecure = false)
    (htarget : w.target = (root.resource path query).target) :
    Console.asked? root.origin w =
      some (⟨w.method, ⟨"", String.ofList ('/' :: path), query.map String.ofList⟩, w.headers,
        ⟨w.body, none⟩⟩, rest) :=
  Console.asked?_of_target (Url.isPlainChar_of_mem_resource hpath root query) hquery
    (Url.text_path_resource ..) (h.length_target_le hfits) hroute horigin hsecure htarget

/-- The gateway puts a path below that of the registry's address, and the query after it. -/
theorem Gateway.ofText_targetUrl_resource {g : Gateway} {base path whole : List Char}
    (hapi : g.apiUrl = "http://" ++ authority ++ String.ofList base)
    (hwhole : base ++ '/' :: path = '/' :: whole) (hplain : Url.IsPlainPath whole)
    {query : Option (List Char)} (hquery : ∀ q ∈ query, q ≠ [] ∧ Url.IsPlainQuery q) :
    Url.ofText (g.targetUrl (String.ofList path) (query.map String.ofList)) =
      .ok (root.resource whole query) := by
  rw [← h.ofText_resource hplain fun q hq => (hquery q hq).2]
  apply congrArg Url.ofText
  have htext : queryText (query.map String.ofList) = (root.resource whole query).queryText := by
    cases query with
    | none => rfl
    | some q =>
      have hne : String.ofList q ≠ "" := fun hq =>
        (hquery q rfl).1 (by simpa using congrArg String.toList hq)
      exact (if_neg hne).trans (congrArg ('?' :: ·) (String.toList_ofList))
  rw [targetUrl_eq, htext, hapi]
  apply String.toList_inj.1
  have hjoin : ∀ tail, base ++ '/' :: (path ++ tail) = '/' :: (whole ++ tail) := by
    intro tail
    rw [← List.cons_append, ← List.append_assoc, hwhole, List.cons_append]
  simpa using hjoin _

end

/-! ## Operations on objects through the console -/

namespace Client

variable {authority : String} {root : Url} {ns key : String}

/-- The path that the client asks for leads to the registry, and to the object there. -/
theorem route_object (hns : Url.IsPlainSegment ns.toList) :
    Route.of (String.ofList ('/' :: (objectLead ns ++ '/' :: key.toList))) =
      .registry (objectPath ns key) := by
  rw [← toList_objectPath, String.ofList_toList, Route.of_eq_registry_iff]
  refine ⟨?_, fun hempty => ?_⟩
  · apply String.toList_inj.1
    simp [objectPath]
  · have hlist := congrArg String.toList hempty
    simp [objectPath, hns.ne_nil] at hlist

/-- The console at a server is asked for the object, in the version of the operation. -/
theorem ObjectCall.exists_asked (h : Url.IsServer authority root)
    (hns : Url.IsPlainSegment ns.toList) (hkey : Url.IsPlainPath key.toList) (call : ObjectCall)
    (hfits : ∀ u, (Client.of ("http://" ++ authority)).urlWith (objectPath ns key)
      (versionField call.version) = .ok u → u.Fits)
    (htype : ∀ content ∈ (call.task ns key).content,
      HeaderField.isValue (Utf8.ofString content.1) = true) :
    ∃ asked r, (Client.of ("http://" ++ authority)).ready? (call.task ns key) = .ok asked ∧
      Console.asked? root.origin asked.wire = some (r, objectPath ns key) ∧
      r.method = call.method ∧ r.target.query = (versionQuery call.version).map String.ofList ∧
      r.body = ⟨((call.task ns key).content.map (·.2)).getD [], none⟩ := by
  have hpath := Url.isPlainPath_append_slash.2 ⟨isPlainPath_objectLead hns, hkey⟩
  have hquery := isPlainQuery_versionQuery call.version
  have hu := urlWith_object h hns hkey call.version
  obtain ⟨asked, hready, hurl⟩ := exists_ready? (call.task ns key)
    (by rw [call.path_task, call.fields_task, hu])
    (h.isCallable_resource hpath.1 hquery (hfits _ hu)) htype
  obtain ⟨hmethod, hbody, -⟩ := ready?_ok hready
  have hasked := hmethod.trans (call.method_task ns key)
  obtain ⟨horigin, hsecure, htarget⟩ := Call.wire_of_sentUrl (hasked ▸ call.method_ne_connect)
    hurl h.scheme_eq.1
  have hwire : asked.wire.body = ((call.task ns key).content.map (·.2)).getD [] :=
    congrArg (·.getD []) hbody
  refine ⟨asked, _, hready, Console.asked?_resource h hpath.1 hquery (hfits _ hu)
    (route_object hns) horigin hsecure htarget, hasked, rfl, ?_⟩
  rw [hwire]

/-- Whether a request asks a registry for what an operation is about: at the path of the registry's
address it names the object as the operation does, and its query is the version and nothing else. -/
structure ObjectCall.Reaches (call : ObjectCall) (registry : Url) (base : List (List Char))
    (ns key : String) (w : WireRequest) : Prop where
  origin : w.origin = registry.origin
  isSecure : w.isSecure = false
  method : w.method = call.method
  target : ∃ query : Option (List Char),
    w.target = Url.pathText base ++ '/' :: ns.toList ++ '/' :: key.toList ++
      (query.map ('?' :: ·)).getD [] ∧
    query.map (fun q => Form.decode (Utf8.encode q)) = call.version.map fun v => [("version", v)]

/-- A gateway that has a token asks its registry for what it was asked for. -/
theorem ObjectCall.exists_reaches (h : Url.IsServer authority root) {base : List (List Char)}
    (hbase : ∀ segment ∈ base, Url.IsPlainSegment segment) {g : Gateway}
    (hapi : g.apiUrl = RegistrySettings.trimSlashes
      ("http://" ++ authority ++ String.ofList (Url.pathText base)))
    {now : Int64} {token : String} (htoken : g.issuer.issue now = .ok token)
    (hns : Url.IsPlainSegment ns.toList) (hkey : Url.IsPlainPath key.toList) (call : ObjectCall)
    (hfits : ∀ u, Url.ofText (g.targetUrl (objectPath ns key)
      ((versionQuery call.version).map String.ofList)) = .ok u → u.Fits)
    {asked : ForwardCall} (hmethod : asked.method = call.method)
    (hpath : asked.path = objectPath ns key)
    (hquery : asked.query = (versionQuery call.version).map String.ofList) :
    ∃ first, g.firstCall? now asked = .ok first ∧ call.Reaches root base ns key first.wire := by
  have hplain := isPlainQuery_versionQuery call.version
  obtain ⟨whole, hwhole, hwholePlain⟩ := Url.exists_isPlainPath_below hbase
    (Url.isPlainPath_append_slash.2 ⟨hns.isPlainPath, hkey⟩)
  rw [h.trimSlashes_eq base hbase] at hapi
  have hname : String.ofList (ns.toList ++ '/' :: key.toList) = objectPath ns key := by
    apply String.toList_inj.1
    simp [objectPath]
  have hsome : ∀ q ∈ versionQuery call.version, q ≠ [] := by
    intro q hq
    obtain ⟨v, -, rfl⟩ := Option.map_eq_some_iff.1 hq
    simp [Form.encodePair]
  have hurl := Gateway.ofText_targetUrl_resource h hapi hwhole hwholePlain
    fun q hq => ⟨hsome q hq, hplain q hq⟩
  rw [hname] at hurl
  obtain ⟨first, hfirst, hfirstMethod, hfirstUrl⟩ := Gateway.exists_firstCall? asked htoken
    (by rw [hpath, hquery, hurl]) (h.isCallable_resource hwholePlain.1 hplain (hfits _ hurl))
  have hsent := hfirstMethod.trans hmethod
  obtain ⟨horigin, hsecure, htarget⟩ := Call.wire_of_sentUrl (hsent ▸ call.method_ne_connect)
    hfirstUrl h.scheme_eq.1
  refine ⟨first, hfirst, horigin, hsecure, hsent,
    versionQuery call.version, ?_, ?_⟩
  · rw [htarget, Url.target, Url.text_path_resource, ← hwhole]
    cases call.version with
    | none => simp [versionQuery, Url.queryText, Url.resource]
    | some v => simp [versionQuery, Url.queryText, Url.resource]
  · cases call.version with
    | none => rfl
    | some v => exact congrArg some (Form.decode_encodePair ("version", v))

/-- An operation on an object with a plain name, through a console that has a token, reaches the
registry that the console is set up for. The first request there has the method of the operation,
and its target is the object's name below the path of the registry's address, with the version as
the one field of its query. That takes URLs that are not too long, a body that the console accepts,
and a media type that can stand in a header. -/
theorem ObjectCall.reaches_registry {frontAuthority registryAuthority : String}
    {front registry : Url} (hfront : Url.IsServer frontAuthority front)
    (hregistry : Url.IsServer registryAuthority registry)
    {base : List (List Char)} (hbase : ∀ segment ∈ base, Url.IsPlainSegment segment)
    {c : Console} (hapi : c.gateway.apiUrl = RegistrySettings.trimSlashes
      ("http://" ++ registryAuthority ++ String.ofList (Url.pathText base)))
    {now : Int64} {token : String} (htoken : c.gateway.issuer.issue now = .ok token)
    (hns : Url.IsPlainSegment ns.toList)
    (hkey : ∀ segment ∈ key.toList.splitOn '/', Url.IsPlainSegment segment) (call : ObjectCall)
    (hasked : ∀ u, (Client.of ("http://" ++ frontAuthority)).urlWith (objectPath ns key)
      (versionField call.version) = .ok u → u.Fits)
    (hforwarded : ∀ u, Url.ofText (c.gateway.targetUrl (objectPath ns key)
      ((versionQuery call.version).map String.ofList)) = .ok u → u.Fits)
    (hcontent : ∀ content ∈ (call.task ns key).content,
      HeaderField.isValue (Utf8.ofString content.1) = true ∧ content.2.length ≤ c.maxBody)
    (net : Network σ) (events : List LogEvent) (s : σ) :
    ∃ first,
      (call.run (Client.of ("http://" ++ frontAuthority))
        (c.network front.origin now net.recorded) ns key (events, ([], s))).2.1.head? =
          some first ∧
      call.Reaches registry base ns key first := by
  have hplain := Url.isPlainPath_of_splitOn hkey
  obtain ⟨asked, r, hready, hconsole, hmethod, hquery, hbody⟩ := call.exists_asked hfront hns
    hplain hasked fun content hcontained => (hcontent content hcontained).1
  have hread : r.body.read c.maxBody = .ok r.body.bytes := by
    rw [hbody]
    refine InboundBody.read_of_whole ?_ rfl
    cases hsome : (call.task ns key).content with
    | none => exact Nat.zero_le _
    | some content => exact (hcontent content hsome).2
  let forwarded : ForwardCall :=
    ⟨r.method, objectPath ns key, r.target.query, r.headers, r.body.bytes⟩
  have hforward : forwarded.method = call.method := hmethod
  obtain ⟨first, hfirst, hreaches⟩ := call.exists_reaches hregistry hbase hapi htoken hns hplain
    hforwarded hforward rfl hquery
  refine ⟨first.wire, ?_, hreaches⟩
  rw [call.run_eq]
  exact isFirst_relayed hready hconsole hread hfirst net events s

/-- A file of a folder, in a version whose name has a blank and a letter beyond ASCII, is stored. -/
theorem ObjectCall.reaches_registry_folder :
    let front : Url := ⟨"http".toList, [], none, some "ui.example".toList, none,
      .segments [[]], none, none⟩
    let registry : Url := ⟨"http".toList, [], none, some "registry.example".toList, none,
      .segments [[]], none, none⟩
    let net := Backend.network fun _ b => some b
    let backend : Backend := ⟨fun _ => true, [], ⟨.ok, [], .empty⟩, []⟩
    let call := ObjectCall.upload (some "v 1\u00FC") [1, 2] none
    ∃ first,
      (call.run (Client.of ("http://" ++ "ui.example"))
        (Console.exampleConsole.network front.origin 0 net.recorded) "ns" "dir/report.txt"
        ([], ([], backend))).2.1.head? = some first ∧
      call.Reaches registry ["base".toList] "ns" "dir/report.txt" first := by
  intro front registry net backend call
  have hfront : Url.IsServer "ui.example" front :=
    ⟨by decide, rfl, (Url.isCallable_of_user_eq ⟨rfl, rfl⟩ rfl rfl (by decide)).1⟩
  have hregistry : Url.IsServer "registry.example" registry :=
    ⟨by decide, rfl, (Url.isCallable_of_user_eq ⟨rfl, rfl⟩ rfl rfl (by decide)).1⟩
  have hbase : ∀ segment ∈ ["base".toList], Url.IsPlainSegment segment := by decide
  have hns : Url.IsPlainSegment "ns".toList := by decide
  have hsplit : "dir/report.txt".toList.splitOn '/' = ["dir".toList, "report.txt".toList] := by rfl
  have hkey : ∀ segment ∈ "dir/report.txt".toList.splitOn '/', Url.IsPlainSegment segment := by
    rw [hsplit]
    decide
  have hapi : Console.exampleConsole.gateway.apiUrl = RegistrySettings.trimSlashes
      ("http://" ++ "registry.example" ++ String.ofList (Url.pathText ["base".toList])) := by
    decide
  obtain ⟨token, htoken⟩ := exists_token_of_exampleIssuer
  have hasked : ∀ u, (Client.of ("http://" ++ "ui.example")).urlWith
      (objectPath "ns" "dir/report.txt") (versionField call.version) = .ok u → u.Fits := by
    intro u hu
    have hurl := urlWith_object hfront hns (Url.isPlainPath_of_splitOn hkey) call.version
    obtain rfl := Except.ok.inj (hurl.symm.trans hu)
    decide
  have hforwarded : ∀ u, Url.ofText (Console.exampleConsole.gateway.targetUrl
      (objectPath "ns" "dir/report.txt") ((versionQuery call.version).map String.ofList)) = .ok u →
        u.Fits := by
    intro u hu
    have htarget : Console.exampleConsole.gateway.targetUrl (objectPath "ns" "dir/report.txt")
        ((versionQuery call.version).map String.ofList) =
          "http://registry.example/base/ns/dir/report.txt?version=v+1%C3%BC" := by decide
    have hurl : Url.ofText "http://registry.example/base/ns/dir/report.txt?version=v+1%C3%BC" =
        .ok ⟨"http".toList, [], none, some "registry.example".toList, none,
          .segments ["base".toList, "ns".toList, "dir".toList, "report.txt".toList],
          some "version=v+1%C3%BC".toList, none⟩ := rfl
    rw [htarget] at hu
    obtain rfl := Except.ok.inj (hurl.symm.trans hu)
    decide
  have hcontent : ∀ content ∈ (call.task "ns" "dir/report.txt").content,
      HeaderField.isValue (Utf8.ofString content.1) = true ∧
        content.2.length ≤ Console.exampleConsole.maxBody := by decide
  exact ObjectCall.reaches_registry hfront hregistry hbase hapi htoken hns hkey call hasked
    hforwarded hcontent net [] backend

end Client

end RegistryConsole
