import RegistryConsole.Proofs.Calls
import RegistryConsole.Proofs.Codings
import RegistryConsole.Proofs.Faults
import RegistryConsole.Proofs.Records

/-! # What the pages show

The data of a page is asked for by a call of the console's own, which has nothing of the request
for the page in it. If the call yields a list, the page shows that list; whatever else becomes of
the call, the page shows its default, and the log tells why. There is always a page. -/

namespace RegistryConsole

variable {α β σ : Type}

/-! ## What a call yields -/

/-- Whether the status of an answer is one of success. -/
def Response.Succeeds (r : Response) : Prop :=
  200 ≤ r.status.code ∧ r.status.code < 300

theorem Response.succeeds_iff (r : Response) : r.Succeeds ↔ r.status.isSuccess = true := by
  rw [Succeeds, Status.isSuccess, Bool.and_eq_true, decide_eq_true_iff, decide_eq_true_iff]

/-- Whether a call that came out as `outcome` succeeded, with a whole body that is read as `x`. -/
def Json.Codec.Yields (codec : Json.Codec α) (outcome : Except GatewayFault Response) (x : α) :
    Prop :=
  ∃ r text, outcome = .ok r ∧ r.Succeeds ∧ r.body.whole? = some text ∧ codec.ofBytes? text = .ok x

/-- Whether a fault tells what was wrong with a call that came out as `outcome`. -/
def PageFault.Explains (codec : Json.Codec α) (outcome : Except GatewayFault Response) :
    PageFault → Prop
  | .gateway f => outcome = .error f
  | .status given => ∃ r, outcome = .ok r ∧ ¬r.Succeeds ∧ r.status = given
  | .unreadable => ∃ r, outcome = .ok r ∧ r.Succeeds ∧ r.body.whole? = none
  | .invalid text f =>
    ∃ r, outcome = .ok r ∧ r.Succeeds ∧ r.body.whole? = some text ∧ codec.ofBytes? text = .error f

namespace Page

variable {codec : Json.Codec α}

/-- What is fetched is what the call yields, or a fault that tells why it yields nothing. -/
theorem fetch_cases (codec : Json.Codec α) (g : Gateway) (net : Network σ) (now : Int64)
    (call : ForwardCall) (s : σ) :
    (∃ x, (fetch codec g net now call s).1 = .ok x ∧
      codec.Yields (g.forward net now call s).1 x) ∨
    ∃ f : PageFault, (fetch codec g net now call s).1 = .error f ∧
      f.Explains codec (g.forward net now call s).1 := by
  unfold fetch
  cases hrun : g.forward net now call s with
  | mk outcome left =>
    cases outcome with
    | error f => exact Or.inr ⟨.gateway f, rfl, rfl⟩
    | ok r =>
      dsimp only
      unfold readValue
      split
      · next hsuccess =>
        rw [← r.succeeds_iff] at hsuccess
        split
        · next hbody => exact Or.inr ⟨.unreadable, rfl, r, rfl, hsuccess, hbody⟩
        · next text hbody =>
          split
          · next f hread =>
            exact Or.inr ⟨.invalid text f, rfl, r, rfl, hsuccess, hbody, hread⟩
          · next x hread => exact Or.inl ⟨x, rfl, r, text, rfl, hsuccess, hbody, hread⟩
      · next hfailure =>
        rw [← r.succeeds_iff] at hfailure
        exact Or.inr ⟨.status r.status, rfl, r, rfl, hfailure, rfl⟩

/-- A call yields one value only. -/
theorem yields_unique {outcome : Except GatewayFault Response} {x y : α}
    (hx : codec.Yields outcome x) (hy : codec.Yields outcome y) : x = y := by
  obtain ⟨r, text, hr, -, hbody, hread⟩ := hx
  obtain ⟨r', text', hr', -, hbody', hread'⟩ := hy
  obtain rfl := Except.ok.inj (hr.symm.trans hr')
  obtain rfl := Option.some.inj (hbody.symm.trans hbody')
  exact Except.ok.inj (hread.symm.trans hread')

/-- A call whose fault is told yields nothing. -/
theorem not_yields_of_explains {outcome : Except GatewayFault Response} {f : PageFault}
    (h : f.Explains codec outcome) (x : α) : ¬codec.Yields outcome x := by
  rintro ⟨r, text, rfl, hsuccess, hbody, hread⟩
  cases f with
  | gateway f => exact absurd h (by simp [PageFault.Explains])
  | status given =>
    obtain ⟨r', hr, hfailure, -⟩ := h
    obtain rfl := Except.ok.inj hr
    exact hfailure hsuccess
  | unreadable =>
    obtain ⟨r', hr, -, hnone⟩ := h
    obtain rfl := Except.ok.inj hr
    exact absurd (hnone.symm.trans hbody) (by simp)
  | invalid text' f =>
    obtain ⟨r', hr, -, hbody', hfault⟩ := h
    obtain rfl := Except.ok.inj hr
    obtain rfl := Option.some.inj (hbody'.symm.trans hbody)
    exact absurd (hfault.symm.trans hread) (by simp)

end Page

/-! ## Pages -/

/-- How a page comes by its data: the call for it, how the answer is read, how the page is made of
what is read and written, what it is made of otherwise, and what logs call the data. -/
structure PageSource (α β : Type) where
  call : ForwardCall
  codec : Json.Codec α
  build : α → β
  layout : Json.Layout β
  fallback : β
  title : String

/-- The home page shows the namespaces. -/
def PageSource.home : PageSource (List String) HomePage where
  call := ⟨.get, "namespaces", none, [], []⟩
  codec := .list .string
  build := HomePage.mk
  layout := HomePage.layout
  fallback := ⟨["default"]⟩
  title := "namespaces"

/-- The audit page shows the latest audit records. -/
def PageSource.audit : PageSource (List AuditRecord) AuditPage where
  call := ⟨.get, "audit", some "limit=100", [], []⟩
  codec := .list AuditRecord.layout.codec
  build := AuditPage.mk
  layout := AuditPage.layout
  fallback := ⟨[]⟩
  title := "audit logs"

/-- Whether an answer is a success with a page in JSON. -/
structure Response.Shows (r : Response) (layout : Json.Layout β) (page : β) : Prop where
  status : r.status.code = 200
  type : r.headers.values "content-type" = [Utf8.ofString "application/json"]
  body : ∃ text, r.body.whole? = some text ∧ layout.codec.ofBytes? text = .ok page

namespace Console

/-- Whether an answer, with the events along with it, shows a page as it must, when `sent` is what
was sent for it and `left` is what is left of the network. -/
structure ShowsPage (c : Console) (source : PageSource α β) (net : Network σ) (now : Int64) (s : σ)
    (answered : Response × List LogEvent) (sent : List WireRequest) (left : σ) : Prop where
  /-- All that is sent is what is sent for the call of the page. -/
  called : (sent, left) = (c.gateway.forward net.recorded now source.call ([], s)).2
  /-- What the call yields is shown, and nothing is logged. -/
  fetched : ∀ x, source.codec.Yields (c.gateway.forward net now source.call s).1 x →
    answered.1.Shows source.layout (source.build x) ∧ answered.2 = []
  /-- Otherwise the default is shown, and one event tells why. -/
  failed : (¬∃ x, source.codec.Yields (c.gateway.forward net now source.call s).1 x) →
    answered.1.Shows source.layout source.fallback ∧
      ∃ f : PageFault, f.Explains source.codec (c.gateway.forward net now source.call s).1 ∧
        answered.2 = [⟨.error, "object_registry_ui::proxy::handlers::pages",
          "Failed to fetch " ++ source.title ++ ": " ++ f.message, []⟩]

/-- A page that is read back is shown. -/
theorem shows_page {layout : Json.Layout β} {x : β}
    (h : layout.codec.ReadsBack Json.maxLevels x) : (page layout x).withLength.Shows layout x where
  status := by
    rw [Response.withLength_status]
    rfl
  type := by
    rw [Response.values_withLength (by decide)]
    rfl
  body := by
    rw [Response.withLength_body]
    exact ⟨_, rfl, Json.Codec.ofBytes?_bytes h⟩

/-- An answer shows a page as it must if it is made of what was fetched. -/
theorem showsPage_of_fetch (source : PageSource α β) {c : Console} {net : Network σ} {now : Int64}
    {s : σ} {r : InboundRequest}
    (hlayout : ∀ x, source.layout.codec.ReadsBack Json.maxLevels x)
    (hanswer : c.answer net.recorded now r ([], s) =
      let fetched := Page.fetch source.codec c.gateway net.recorded now source.call ([], s)
      let shown := Page.shown source.title source.fallback source.build fetched.1
      (((page source.layout shown.1).withLength, shown.2), fetched.2)) :
    let result := c.answer net.recorded now r ([], s)
    c.ShowsPage source net now s result.1 result.2.1 result.2.2 := by
  intro result
  have hresult : result = _ := hanswer
  have houtcome : (c.gateway.forward net.recorded now source.call ([], s)).1 =
      (c.gateway.forward net now source.call s).1 :=
    congrArg Prod.fst (Gateway.forward_of_recorded c.gateway net now source.call s)
  have hcases := Page.fetch_cases source.codec c.gateway net.recorded now source.call ([], s)
  rw [houtcome] at hcases
  constructor
  case called =>
    rw [hresult]
    exact Page.fetch_left source.codec c.gateway net.recorded now source.call ([], s)
  case fetched =>
    intro x hx
    rcases hcases with ⟨y, hy, hyields⟩ | ⟨f, -, hexplains⟩
    · obtain rfl := Page.yields_unique hyields hx
      rw [hresult]
      dsimp only
      rw [hy]
      exact ⟨shows_page (hlayout _), rfl⟩
    · exact absurd hx (Page.not_yields_of_explains hexplains x)
  case failed =>
    intro hnone
    rcases hcases with ⟨y, -, hyields⟩ | ⟨f, hf, hexplains⟩
    · exact absurd ⟨y, hyields⟩ hnone
    · rw [hresult]
      dsimp only
      rw [hf]
      exact ⟨shows_page (hlayout _), f, hexplains, rfl⟩

/-- A request that reads the data of a page is always answered with a page: with what the registry
gives for it, or with the default and an event that tells why. Nothing of the request goes into the
call to the registry. -/
theorem showsPage_of_get {r : InboundRequest} (hget : r.method = .get) (c : Console)
    (net : Network σ) (now : Int64) (s : σ) :
    let result := c.answer net.recorded now r ([], s)
    (r.target.path = "/api/pages/home" →
      c.ShowsPage .home net now s result.1 result.2.1 result.2.2) ∧
    (r.target.path = "/api/pages/audit" →
      c.ShowsPage .audit net now s result.1 result.2.1 result.2.2) := by
  intro result
  constructor
  · intro hpath
    have hroute : Route.of r.target.path = .homePage := by
      rw [hpath]
      decide
    apply showsPage_of_fetch .home (HomePage.readsBack _)
    rw [answer, dispatch, hroute, hget]
    rfl
  · intro hpath
    have hroute : Route.of r.target.path = .auditPage := by
      rw [hpath]
      decide
    apply showsPage_of_fetch .audit (AuditPage.readsBack _)
    rw [answer, dispatch, hroute, hget]
    rfl

/-- A registry that names two namespaces, and one that is not asked for audit records as there is no
key to ask it with. -/
theorem showsPage_of_get_namespaces :
    let net : Network Unit :=
      .standing ⟨.ok, [], .sized (Utf8.ofString "[\"b\", \"a\"]")⟩ fun _ _ => none
    let signing : Console := ⟨Gateway.exampleGateway, 1024, ⟨.empty, [], fun _ => none⟩⟩
    let keyless : Console :=
      ⟨⟨"http://registry.example", .ofKey none⟩, 1024, ⟨.empty, [], fun _ => none⟩⟩
    let request := fun path : String => (⟨.get, ⟨"", path, some "limit=1"⟩,
      [⟨"authorization", Utf8.ofString "Bearer mine", false⟩], ⟨[0x7B], none⟩⟩ : InboundRequest)
    (signing.answer net.recorded 0 (request "/api/pages/home") ([], ())).1.1.Shows
      HomePage.layout ⟨["b", "a"]⟩ ∧
    (signing.answer net.recorded 0 (request "/api/pages/home") ([], ())).1.2 = [] ∧
    (keyless.answer net.recorded 0 (request "/api/pages/audit") ([], ())).1.1.Shows
      AuditPage.layout ⟨[]⟩ ∧
    (keyless.answer net.recorded 0 (request "/api/pages/audit") ([], ())).2.1 = [] := by
  intro net signing keyless request
  have hhome := (showsPage_of_get (r := request "/api/pages/home") rfl signing net 0 ()).1 rfl
  have haudit := (showsPage_of_get (r := request "/api/pages/audit") rfl keyless net 0 ()).2 rfl
  have hurl : Gateway.exampleGateway.targetUrl PageSource.home.call.path
      PageSource.home.call.query = "http://registry.example/namespaces" := by decide
  have hcallable := (Url.isCallable_of_user_eq (u := ⟨"http".toList, [], none,
    some "registry.example".toList, none, .segments ["namespaces".toList], none, none⟩)
    (by decide) (by decide) (by decide) (by decide)).1
  have hundoes : net.Undoes fun _ _ => none := fun _ _ _ => rfl
  obtain ⟨r, hrun, hstatus, -, hbody⟩ := Gateway.exists_forward_of_standing
    PageSource.home.call rfl hundoes rfl (by rw [hurl]; rfl) hcallable
  have hyields : PageSource.home.codec.Yields
      (signing.gateway.forward net 0 PageSource.home.call ()).1 ["b", "a"] := by
    refine ⟨r, _, congrArg Prod.fst hrun, ?_, congrArg MessageBody.whole? hbody, rfl⟩
    rw [Response.succeeds_iff, hstatus]
    rfl
  have hunsigned : keyless.gateway.forward net 0 PageSource.audit.call () =
      (.error (.signing (.setup .missingKey)), ()) := rfl
  have hnone : ¬∃ x, PageSource.audit.codec.Yields
      (keyless.gateway.forward net 0 PageSource.audit.call ()).1 x := by
    rw [hunsigned]
    rintro ⟨x, r, text, hr, -⟩
    exact absurd hr (by simp)
  obtain ⟨hshown, hquiet⟩ := hhome.fetched _ hyields
  exact ⟨hshown, hquiet, (haudit.failed hnone).1, congrArg Prod.fst haudit.called⟩

end Console

end RegistryConsole
