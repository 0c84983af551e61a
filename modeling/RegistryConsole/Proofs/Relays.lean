import RegistryConsole.Proofs.Arrivals
import RegistryConsole.Proofs.Url.Base

/-! # Tasks that are relayed

What a client asks the console for, the console asks the registry for: the same path below another
address, the same fields in the query, and the same JSON value in the body. That holds of every task
with a plain path, whatever its fields and its content are, and wherever the registry is. -/

namespace RegistryConsole

variable {σ : Type}

/-- Whether an address is that of a server with the console, and `front` the URL of its root. -/
structure Url.IsFront (address : String) (front : Url) : Prop where
  base : Url.IsBase (RegistrySettings.trimSlashes address) front
  scheme : front.scheme = "http".toList
  root : front.basePath = []

/-! ## From the client to the console -/

namespace Client

/-- The path of a task at the console. -/
def consoleTarget (path : String) : List Char :=
  "api/object-registry".toList ++ '/' :: path.toList

theorem isPlainPath_consoleTarget {path : String} (h : Url.IsPlainPath path.toList) :
    Url.IsPlainPath (consoleTarget path) :=
  Url.isPlainPath_append_slash.2 ⟨by decide, h⟩

variable {address : String} {front : Url} {task : Task}

/-- A path that does not start with a slash is put below the console's lead, and the fields make up
the query. -/
theorem urlWith_of_isFront (h : Url.IsFront address front) {path : String}
    (hpath : Url.IsPlainPath path.toList) (hstart : path.toList.head?.any (· != '/') = true)
    (fields : List (String × String)) :
    (Client.of address).urlWith path fields =
      .ok (front.below (consoleTarget path) (Form.queryOf fields)) := by
  have hkept : trimLead path = path := by
    apply String.toList_inj.1
    rw [trimLead, String.toList_ofList]
    cases hlist : path.toList with
    | nil => rfl
    | cons c rest =>
      rw [hlist] at hstart
      exact List.dropWhile_cons_of_neg (by simpa using hstart)
  have hlead : Route.registryLead = "/" ++ "api/object-registry" := by decide
  have htext : ∀ start lead : String, start ++ ("/" ++ lead) ++ "/" ++ path =
      start ++ "/" ++ String.ofList (lead.toList ++ '/' :: path.toList) := by
    intro start lead
    apply String.toList_inj.1
    simp
  have hnone : ∀ q ∈ (none : Option (List Char)), Url.IsPlainQuery q := by simp
  have hread := h.base.ofText_below (isPlainPath_consoleTarget hpath) hnone
  rw [Option.map_none, Option.getD_none, List.append_nil] at hread
  have hurl : (Client.of address).url path = .ok (front.below (consoleTarget path) none) := by
    rw [url, Client.of, hkept, hlead, htext]
    exact hread
  rw [urlWith, hurl]
  obtain ⟨parts, -, -, -, hbelow⟩ := h.base.exists_below_eq
  dsimp only
  rw [Url.foldl_addField, hbelow, hbelow]
  rfl

/-- The path at the console leads to the registry, and to the same path there. -/
theorem route_consoleTarget {path : String} (hne : path ≠ "") :
    Route.of (String.ofList ('/' :: consoleTarget path)) = .registry path := by
  refine Route.of_eq_registry_iff.2 ⟨?_, hne⟩
  have hlead : Route.registryLead = "/" ++ "api/object-registry" := by decide
  have htext : ∀ lead : String, String.ofList ('/' :: (lead.toList ++ '/' :: path.toList)) =
      "/" ++ lead ++ "/" ++ path := by
    intro lead
    apply String.toList_inj.1
    simp
  rw [hlead]
  exact htext _

/-- The content that a task sends: nothing, unless it has some. -/
def Task.body (task : Task) : Bytes :=
  (task.content.map (·.2)).getD []

/-- Whether a task can be sent at all: it is not for a tunnel, its path is plain, and its media type
is a field value. -/
structure Task.IsSendable (task : Task) : Prop where
  method : task.method ≠ .connect
  path : Url.IsPlainPath task.path.toList
  start : task.path.toList.head?.any (· != '/') = true
  type : ∀ content ∈ task.content, HeaderField.isValue (Utf8.ofString content.1) = true

theorem Task.IsSendable.ne_empty (h : task.IsSendable) : task.path ≠ "" := by
  intro hempty
  have hstart := h.start
  rw [hempty] at hstart
  exact absurd hstart (by decide)

/-- The fields of a task make up a plain query. -/
theorem isPlainQuery_queryOf (fields : List (String × String)) :
    ∀ q ∈ Form.queryOf fields, Url.IsPlainQuery q :=
  fun _ hq => (Form.isQueryOf_of_mem hq).plain

/-- The console is asked for the path, the query and the content of the task. -/
theorem exists_asked_of_isFront (h : Url.IsFront address front) (htask : task.IsSendable)
    (hfits : ∀ u, (Client.of address).urlWith task.path task.fields = .ok u → u.Fits) :
    ∃ asked r, (Client.of address).ready? task = .ok asked ∧
      Console.asked? front.origin asked.wire = some (r, task.path) ∧ r.method = task.method ∧
      r.target.query = (Form.queryOf task.fields).map String.ofList ∧
      r.body = ⟨task.body, none⟩ := by
  have hpath := isPlainPath_consoleTarget htask.path
  have hquery := isPlainQuery_queryOf task.fields
  have hu := urlWith_of_isFront h htask.path htask.start task.fields
  have hlength := hfits _ hu
  obtain ⟨asked, hready, hurl⟩ := exists_ready? task hu
    (h.base.isCallable_below hlength hpath.1 hquery) htask.type
  obtain ⟨hmethod, hbody, -⟩ := ready?_ok hready
  obtain ⟨hscheme, horigin, hasked⟩ := h.base.server_below (consoleTarget task.path)
    (Form.queryOf task.fields)
  obtain ⟨hwireOrigin, hsecure, htarget⟩ := Call.wire_of_sentUrl (hmethod ▸ htask.method) hurl
    (hscheme.trans h.scheme)
  have htext : (front.below (consoleTarget task.path) (Form.queryOf task.fields)).path.text =
      '/' :: consoleTarget task.path := by
    rw [h.base.text_path_below, h.root, List.nil_append]
  have hfound := Console.asked?_of_target (h.base.exists_text_path_below hpath.1 _).1
    (by rw [hasked]; exact hquery) htext (h.base.length_target_below hlength)
    (route_consoleTarget htask.ne_empty) (hwireOrigin.trans horigin) hsecure htarget
  refine ⟨asked, _, hready, hfound, hmethod, congrArg (Option.map String.ofList) hasked, ?_⟩
  rw [show asked.wire.body = task.body from congrArg (·.getD []) hbody]

end Client

/-! ## From the console to the registry -/

namespace Gateway

variable {g : Gateway} {registry : Url}

/-- The gateway puts a plain path below the address of the registry, and the fields that were sent
after it. -/
theorem ofText_targetUrl_queryOf (h : Url.IsBase g.apiUrl registry) {path : String}
    (hpath : Url.IsPlainPath path.toList) (fields : List (String × String)) :
    Url.ofText (g.targetUrl path ((Form.queryOf fields).map String.ofList)) =
      .ok (registry.below path.toList (Form.queryOf fields)) := by
  have hplain := Client.isPlainQuery_queryOf fields
  have htext : queryText ((Form.queryOf fields).map String.ofList) =
      ((Form.queryOf fields).map ('?' :: ·)).getD [] := by
    cases hquery : Form.queryOf fields with
    | none => rfl
    | some q =>
      have hne : String.ofList q ≠ "" := fun hempty =>
        (Form.isQueryOf_of_mem hquery).ne_nil (by simpa using congrArg String.toList hempty)
      exact (if_neg hne).trans (congrArg ('?' :: ·) (String.toList_ofList))
  rw [targetUrl_eq, htext]
  exact h.ofText_below hpath hplain

end Gateway

namespace Client

/-- Whether a request asks a registry for what a task is about: below the path of its address it
names the path of the task, with the fields as they were put in. A JSON text that is sent is the
value of the task's content, under the one media type for it. -/
structure Task.Arrives (task : Task) (registry : Url) (w : WireRequest) : Prop where
  origin : w.origin = registry.origin
  isSecure : w.isSecure = decide (registry.scheme = "https".toList)
  method : w.method = task.method
  target : w.target = registry.basePath ++
    '/' :: (task.path.toList ++ ((Form.queryOf task.fields).map ('?' :: ·)).getD [])
  value : ∀ value, task.method ≠ .get → task.method ≠ .head →
    Json.ofBytes? task.body = .ok value →
      w.body = value.bytes ∧ w.headers.values "content-type" = [Response.jsonType]

variable {address : String} {front registry : Url} {task : Task}

/-- Whether the URLs for a task are not too long: that of the client for the console at `address`,
and that of the console's gateway. -/
structure Task.Fits (task : Task) (address : String) (g : Gateway) : Prop where
  asked : ∀ u, (Client.of address).urlWith task.path task.fields = .ok u → u.Fits
  forwarded : ∀ u, Url.ofText (g.targetUrl task.path
    ((Form.queryOf task.fields).map String.ofList)) = .ok u → u.Fits

/-- They are the task's path and query below the two addresses. -/
theorem Task.IsSendable.fits_of_below (htask : task.IsSendable) (hfront : Url.IsFront address front)
    {g : Gateway} (hregistry : Url.IsBase g.apiUrl registry)
    (hasked : (front.below (consoleTarget task.path) (Form.queryOf task.fields)).Fits)
    (hforwarded : (registry.below task.path.toList (Form.queryOf task.fields)).Fits) :
    task.Fits address g := by
  refine ⟨fun u hu => ?_, fun u hu => ?_⟩
  · have hurl := urlWith_of_isFront hfront htask.path htask.start task.fields
    obtain rfl := Except.ok.inj (hurl.symm.trans hu)
    exact hasked
  · have hurl := Gateway.ofText_targetUrl_queryOf hregistry htask.path task.fields
    obtain rfl := Except.ok.inj (hurl.symm.trans hu)
    exact hforwarded

/-- A task is relayed by the console to the registry. -/
theorem exists_isFirst_arrives (hfront : Url.IsFront address front) {c : Console}
    (hregistry : Url.IsBase c.gateway.apiUrl registry) {now : Int64} {token : String}
    (htoken : c.gateway.issuer.issue now = .ok token) (htask : task.IsSendable)
    (hfits : task.Fits address c.gateway) (hbody : task.body.length ≤ c.maxBody)
    (net : Network σ) (events : List LogEvent) (s : σ) :
    ∃ first : WireRequest, first.IsFirst ((Client.of address).perform
        (c.network front.origin now net.recorded) task (events, ([], s))).2.2 ∧
      task.Arrives registry first := by
  obtain ⟨asked, r, hready, hconsole, hmethod, hquery, hcontent⟩ :=
    exists_asked_of_isFront hfront htask hfits.asked
  have hread : r.body.read c.maxBody = .ok task.body := by
    rw [hcontent]
    exact InboundBody.read_of_whole hbody rfl
  have hurl := Gateway.ofText_targetUrl_queryOf hregistry htask.path task.fields
  obtain ⟨first, hfirst, hfirstMethod, hfirstUrl⟩ := Gateway.exists_firstCall?
    ⟨r.method, task.path, r.target.query, r.headers, task.body⟩ htoken
    (by rw [hquery]; exact hurl) (hregistry.isCallable_below (hfits.forwarded _ hurl) htask.path.1
      (isPlainQuery_queryOf task.fields))
  have hsent := hfirstMethod.trans hmethod
  obtain ⟨horigin, hsecure, htarget⟩ := Call.wire_eq_of_sentUrl (hsent ▸ htask.method) hfirstUrl
  obtain ⟨hscheme, hserver, -⟩ := hregistry.server_below task.path.toList
    (Form.queryOf task.fields)
  refine ⟨first.wire, isFirst_relayed hready hconsole hread hfirst net events s,
    horigin.trans hserver, ?_, hsent,
    htarget.trans (hregistry.target_below _ _), ?_⟩
  · rw [hsecure, hscheme]
  · intro value hget hhead hvalue
    exact (Gateway.isFirstRequest_wire hfirst).structured value (hmethod ▸ hget) (hmethod ▸ hhead)
      hvalue

/-- What is read off an answer has no say in what is sent. -/
theorem ask_state {α : Type} (c : Client) (net : Network σ) (codec : Json.Codec α) (task : Task)
    (s : σ) : (c.ask net codec task s).2 = (c.perform net task s).2 :=
  (Operation.failure_state _).symm.trans (Operation.passesOn_ask c net codec task s).state

end Client

end RegistryConsole
