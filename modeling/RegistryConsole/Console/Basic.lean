import RegistryConsole.Console.Pages
import RegistryConsole.Console.Site

/-! # The console

The server that users talk to. Calls below one path are forwarded to the registry; a few pages
have data of their own; everything else is the static site. -/

namespace RegistryConsole

/-- Where a path leads to. -/
inductive Route where
  /-- To the registry, with the path there. -/
  | registry (path : String)
  | homePage
  | auditPage
  | health
  | site
  deriving DecidableEq

namespace Route

/-- What the paths that lead to the registry start with. -/
def registryLead : String := "/api/object-registry"

/-- What stands after a lead and a slash, if anything does. -/
def below? (lead path : String) : Option String :=
  match dropLead? (lead ++ "/").toList path.toList with
  | none | some [] => none
  | some rest => some (String.ofList rest)

/-- A path is below a lead exactly if it is the lead, a slash and something else. -/
theorem below?_eq_some_iff {lead path rest : String} :
    below? lead path = some rest ↔ path = lead ++ "/" ++ rest ∧ rest ≠ "" := by
  constructor
  · intro h
    simp only [below?] at h
    split at h
    · simp at h
    · simp at h
    · next xs hne hx =>
      simp only [Option.some.injEq] at h
      have hp := dropLead?_eq_some_iff.1 hx
      subst h
      refine ⟨?_, fun he => ?_⟩
      · apply String.toList_inj.1
        simpa using hp
      · exact hne (by simpa using congrArg String.toList he)
  · rintro ⟨rfl, hr⟩
    have hx : dropLead? (lead ++ "/").toList (lead ++ "/" ++ rest).toList = some rest.toList :=
      dropLead?_eq_some_iff.2 (by simp)
    simp only [below?, hx]
    split
    · next h => simp at h
    · next h =>
      simp only [Option.some.injEq] at h
      exact absurd (String.toList_inj.1 (by simpa using h)) hr
    · next xs _ h =>
      simp only [Option.some.injEq] at h
      simp [← h]

/-- A path without its lead, and without one slash at the start of what is left. What does not start
with either of them stays as it is. -/
def strip (lead path : String) : String :=
  let rest := (dropLead? lead.toList path.toList).getD path.toList
  String.ofList ((dropLead? ['/'] rest).getD rest)

/-- The route of a path. Letter case counts and escapes stay as they are. -/
def of (path : String) : Route :=
  match below? registryLead path with
  | some _ => .registry (strip registryLead path)
  | none =>
    if path = "/api/pages/home" then .homePage
    else if path = "/api/pages/audit" then .auditPage
    else if path = "/healthz" then .health
    else .site

end Route

/-- The body of a request: what came, and how it broke off if it did. -/
structure InboundBody where
  bytes : Bytes
  broken : Option String := none
  deriving DecidableEq

/-- The octets of a body with at most `limit` of them. -/
def InboundBody.read (limit : Nat) (body : InboundBody) : Except BodyFault Bytes :=
  if limit < body.bytes.length then .error .tooLong
  else match body.broken with
    | some text => .error (.broken text)
    | none => .ok body.bytes

/-- A request to the console. -/
structure InboundRequest where
  method : Method
  target : RequestTarget
  headers : Headers
  body : InboundBody
  deriving DecidableEq

/-- What the console serves. -/
structure Console where
  gateway : Gateway
  /-- The greatest length of a body that is forwarded. -/
  maxBody : Nat
  site : Site

namespace Console

/-- The state of the console in a JSON text. -/
def health (c : Console) : Response :=
  .json .ok (Json.bytes (.object
    [("signing_configured", .bool c.gateway.issuer.isConfigured), ("status", .string "ok")]))

/-- Forwards a request to the path `path` of the registry. The body is read first. -/
def relay {σ : Type} (c : Console) (net : Network σ) (now : Int64) (path : String)
    (r : InboundRequest) (s : σ) : Except GatewayFault Response × σ :=
  match r.body.read c.maxBody with
  | .error f => (.error (.body f), s)
  | .ok body => c.gateway.forward net now ⟨r.method, path, r.target.query, r.headers, body⟩ s

/-- The answer for a forwarded request, with the event if it failed. -/
def told : Except GatewayFault Response → Response × List LogEvent
  | .ok r => (r, [])
  | .error f => (f.response, [f.event])

/-- The answer with the value of a page. -/
def page {α : Type} (layout : Json.Layout α) (x : α) : Response :=
  .json .ok (layout.codec.bytes x)

/-- An answer of the console itself to a reading method. Where only its header is asked for, it
still has the length of the body. -/
def forReader (method : Method) (r : Response) : Response :=
  if method = .head then r.withLength.withoutBody else r

/-- Whether a method reads. -/
def isReading (method : Method) : Bool :=
  method = .get || method = .head

/-- What the route of a request answers, and what is to be logged. -/
def dispatch {σ : Type} (c : Console) (net : Network σ) (now : Int64) (r : InboundRequest)
    (s : σ) : (Response × List LogEvent) × σ :=
  match Route.of r.target.path with
  | .registry path =>
    let (result, s) := c.relay net now path r s
    (told result, s)
  | .site => ((c.site.answer r.method r.target r.headers, []), s)
  | .homePage =>
    if isReading r.method then
      let ((data, events), s) := c.gateway.loadHome net now s
      ((forReader r.method (page HomePage.layout data), events), s)
    else ((Site.notAllowed, []), s)
  | .auditPage =>
    if isReading r.method then
      let ((data, events), s) := c.gateway.loadAudit net now s
      ((forReader r.method (page AuditPage.layout data), events), s)
    else ((Site.notAllowed, []), s)
  | .health =>
    ((if isReading r.method then forReader r.method c.health else Site.notAllowed, []), s)

/-- Answers a request at the time `now`. The answer has the length of its body where that is
known. -/
def answer {σ : Type} (c : Console) (net : Network σ) (now : Int64) (r : InboundRequest)
    (s : σ) : (Response × List LogEvent) × σ :=
  let ((response, events), s) := c.dispatch net now r s
  ((response.withLength, events), s)

/-- The request that came over a connection. -/
def ofWire? (w : WireRequest) : Option InboundRequest :=
  match RequestTarget.ofBytes? (Utf8.encode w.target) with
  | .error _ => none
  | .ok target => some ⟨w.method, target, w.headers, ⟨w.body, none⟩⟩

/-- The network with the console in it, at an address of its own, where connections are not
secure. -/
def network {σ : Type} (c : Console) (address : Origin) (now : Int64) (net : Network σ) :
    Network (List LogEvent × σ) where
  deliver w s :=
    if w.origin = address ∧ !w.isSecure then
      match ofWire? w with
      | none => (none, s)
      | some r =>
        let ((response, events), rest) := c.answer net now r s.2
        (some response, (s.1 ++ events, rest))
    else
      let (response, rest) := net.deliver w s.2
      (response, (s.1, rest))
  undo := net.undo

end Console

end RegistryConsole
