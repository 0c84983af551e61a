import RegistryConsole.Proofs.Redirects
import RegistryConsole.Proofs.Routes

/-! # Which requests make calls

A console makes calls to the registry for the paths below one lead, and for the data of its two
pages. It makes at most one call for a request, and which one is told by the request alone. Every
other request leaves the network as it is. -/

namespace RegistryConsole

variable {σ : Type}

/-- To fetch a value is to forward the call for it. -/
theorem Page.fetch_left {α : Type} (codec : Json.Codec α) (g : Gateway) (net : Network σ)
    (now : Int64) (call : ForwardCall) (s : σ) :
    (Page.fetch codec g net now call s).2 = (g.forward net now call s).2 := by
  unfold Page.fetch
  cases g.forward net now call s with
  | mk result t => cases result <;> rfl

/-- The call for the data of the home page. -/
def ForwardCall.home : ForwardCall :=
  .reading "namespaces" none

/-- The call for the data of the audit page. -/
def ForwardCall.audit : ForwardCall :=
  .reading "audit" (some "limit=100")

namespace Console

/-- The call to the registry that a request is answered by, if there is one. -/
def call? (c : Console) (r : InboundRequest) : Option ForwardCall :=
  match Route.of r.target.path with
  | .registry path =>
    match r.body.read c.maxBody with
    | .error _ => none
    | .ok body => some ⟨r.method, path, r.target.query, r.headers, body⟩
  | .homePage => if isReading r.method then some .home else none
  | .auditPage => if isReading r.method then some .audit else none
  | .health | .site => none

/-- What is left of a network after a call, if there is one. -/
def afterCall (g : Gateway) (net : Network σ) (now : Int64) (call? : Option ForwardCall) (s : σ) :
    σ :=
  match call? with
  | none => s
  | some call => (g.forward net now call s).2

/-- All that a request does to the network is what its call does. -/
theorem answer_left (c : Console) (net : Network σ) (now : Int64) (r : InboundRequest) (s : σ) :
    (c.answer net now r s).2 = afterCall c.gateway net now (c.call? r) s := by
  show (c.dispatch net now r s).2 = _
  unfold dispatch call?
  cases Route.of r.target.path with
  | registry path =>
    show (c.relay net now path r s).2 = _
    unfold relay
    cases r.body.read c.maxBody with
    | error f => rfl
    | ok body => rfl
  | homePage =>
    dsimp only
    split
    · exact Page.fetch_left _ c.gateway net now .home s
    · rfl
  | auditPage =>
    dsimp only
    split
    · exact Page.fetch_left _ c.gateway net now .audit s
    · rfl
  | health => rfl
  | site => rfl

/-- Whether a request is one that a call may be made for. -/
inductive MayCall (r : InboundRequest) : Prop where
  /-- By any method, its path has something after the lead and one slash. -/
  | registry (rest : String) (hrest : rest ≠ "")
      (hpath : r.target.path = "/api/object-registry/" ++ rest)
  /-- It reads, and its path is that of the data of a page. -/
  | page (hpath : r.target.path = "/api/pages/home" ∨ r.target.path = "/api/pages/audit")
      (hmethod : r.method = .get ∨ r.method = .head)

/-- A request with a call is one that a call may be made for. -/
theorem mayCall_of_call? {c : Console} {r : InboundRequest} {call : ForwardCall}
    (h : c.call? r = some call) : MayCall r := by
  have hreading : ∀ {asked : ForwardCall}, (if isReading r.method then some asked else none) =
      some call → r.method = .get ∨ r.method = .head := by
    intro asked hasked
    split at hasked
    · next hmethod => exact (Bool.or_eq_true_iff.1 hmethod).imp of_decide_eq_true of_decide_eq_true
    · exact absurd hasked (by simp)
  unfold call? at h
  cases hroute : Route.of r.target.path with
  | registry path =>
    obtain ⟨hpath, hne⟩ := Route.of_eq_registry_iff.1 hroute
    exact .registry path hne hpath
  | homePage =>
    rw [hroute] at h
    exact .page (Or.inl (Route.eq_of_homePage hroute)) (hreading h)
  | auditPage =>
    rw [hroute] at h
    exact .page (Or.inr (Route.eq_of_auditPage hroute)) (hreading h)
  | health =>
    rw [hroute] at h
    exact absurd h (by simp)
  | site =>
    rw [hroute] at h
    exact absurd h (by simp)

/-- Whether a request is answered with none but the intended calls, when `sent` is what was sent for
it and `left` is what is left of the network. -/
structure CallsAsIntended (c : Console) (net : Network σ) (now : Int64) (r : InboundRequest) (s : σ)
    (sent : List WireRequest) (left : σ) : Prop where
  /-- All that is sent is what is sent for the call of the request. -/
  called : (sent, left) = afterCall c.gateway net.recorded now (c.call? r) ([], s)
  /-- For other requests nothing is sent, and the network is left alone. -/
  unsent : ¬MayCall r → sent = [] ∧ left = s
  /-- The paths that lead to the registry are those with something after the lead and a slash. -/
  led_iff : (∃ path, Route.of r.target.path = .registry path) ↔
    ∃ rest, rest ≠ "" ∧ r.target.path = "/api/object-registry/" ++ rest
  /-- The registry is asked for the path without the lead and one slash, both of which are there. -/
  stripped : ∀ path, Route.of r.target.path = .registry path →
    Route.Strips "/api/object-registry" r.target.path path ∧
      ∀ call, c.call? r = some call → call.path = path

/-- Calls to the registry are made for what is below the lead and for the data of the pages only,
and a path is stripped of its lead exactly once. -/
theorem callsAsIntended_answer (c : Console) (net : Network σ) (now : Int64) (r : InboundRequest)
    (s : σ) :
    let result := c.answer net.recorded now r ([], s)
    c.CallsAsIntended net now r s result.2.1 result.2.2 := by
  intro result
  have hcalled : result.2 = afterCall c.gateway net.recorded now (c.call? r) ([], s) :=
    answer_left c net.recorded now r ([], s)
  constructor
  case called => exact hcalled
  case unsent =>
    intro hother
    cases hcall : c.call? r with
    | some call => exact absurd (mayCall_of_call? hcall) hother
    | none =>
      rw [hcalled, hcall]
      exact ⟨rfl, rfl⟩
  case led_iff =>
    constructor
    · rintro ⟨path, hroute⟩
      obtain ⟨hpath, hne⟩ := Route.of_eq_registry_iff.1 hroute
      exact ⟨path, hne, hpath⟩
    · rintro ⟨rest, hne, hpath⟩
      exact ⟨rest, Route.of_eq_registry_iff.2 ⟨hpath, hne⟩⟩
  case stripped =>
    intro path hroute
    obtain ⟨hpath, hne⟩ := Route.of_eq_registry_iff.1 hroute
    constructor
    · rw [hpath]
      exact Route.strips_append Route.registryLead hne
    · intro call hcall
      rw [call?, hroute] at hcall
      dsimp only at hcall
      split at hcall
      · exact absurd hcall (by simp)
      · rw [← Option.some.inj hcall]

/-- The lead itself, other letter cases of it and escapes in it lead to the site. -/
example : Route.of "/api/object-registry" = .site ∧ Route.of "/api/object-registry/" = .site ∧
    Route.of "/api/Object-Registry/ns" = .site ∧ Route.of "/api/object%2Dregistry/ns" = .site := by
  decide

end Console

end RegistryConsole
