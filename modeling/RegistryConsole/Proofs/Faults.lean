import RegistryConsole.Proofs.Forwarding
import RegistryConsole.Proofs.Headers
import RegistryConsole.Proofs.Json.RoundTrip
import RegistryConsole.Proofs.Routes

/-! # Faults of forwarded requests

A request for the registry is checked in a fixed order: the length of its body, whether the body
came as a whole, whether a token can be issued. Whatever is wrong with it is told in one and the
same form, and nothing is sent before all of this is right. -/

namespace RegistryConsole

/-! ## How a fault is told -/

/-- Whether an answer, with the events along with it, tells of a fault with a given text. -/
structure Tells (text : String) (told : Response × List LogEvent) : Prop where
  status : told.1.status.code = 500
  type : told.1.headers.values "content-type" = [Utf8.ofString "application/json"]
  /-- The body is an object with the text in it, and with nothing else. -/
  body : ∃ bytes, told.1.body.whole? = some bytes ∧
    Json.ofBytes? bytes = .ok (.object [("error", .string text)])
  logged : told.2.map LogEvent.summary = ["ERROR Proxy error"]

namespace Response

/-- The length of the body is all that is added to an answer. -/
theorem values_withLength {n : String} (hn : n ≠ "content-length") (r : Response) :
    r.withLength.headers.values n = r.headers.values n := by
  unfold withLength
  split
  · exact Headers.values_putAbsent_of_ne hn
  · rfl

@[simp] theorem withLength_status (r : Response) : r.withLength.status = r.status := by
  unfold withLength
  split <;> rfl

@[simp] theorem withLength_body (r : Response) : r.withLength.body = r.body := by
  unfold withLength
  split <;> rfl

end Response

/-- An object with one text in it is read back as it is, whatever the text. -/
theorem Json.ofBytes?_bytes_text (name text : String) :
    Json.ofBytes? (Json.bytes (.object [(name, .string text)])) =
      .ok (.object [(name, .string text)]) := by
  have hfits : Json.Fits Json.maxLevels (.object [(name, .string text)]) := by
    intro m hm
    obtain rfl := List.mem_singleton.1 hm
    trivial
  exact Json.ofBytes?_bytes hfits

/-- Every fault is told, in one and the same form. -/
theorem GatewayFault.tells (f : GatewayFault) :
    Tells f.message (f.response.withLength, [f.event]) where
  status := by
    rw [Response.withLength_status]
    rfl
  type := by
    rw [Response.values_withLength (by decide)]
    rfl
  body := by
    rw [Response.withLength_body]
    exact ⟨_, rfl, Json.ofBytes?_bytes_text "error" f.message⟩
  logged := rfl

/-! ## What comes before a request is sent -/

namespace Gateway

variable {σ : Type} {g : Gateway} {now : Int64} {call : ForwardCall}

/-- Without a token nothing is sent. -/
theorem forward_of_unsigned {f : IssueFault} (hissue : g.issuer.issue now = .error f)
    (net : Network σ) (call : ForwardCall) (s : σ) :
    g.forward net now call s = (.error (.signing f), s) := by
  rw [forward, hissue]

/-- The answer that comes back has the status that the registry gave, for the last of the requests
that went out. -/
theorem forward_status {net : Network σ} {s left : σ} {sent : List WireRequest} {r : Response}
    (h : g.forward net.recorded now call ([], s) = (.ok r, (sent, left))) :
    ∃ (last : WireRequest) (t : σ) (answered : Response),
      sent.getLast? = some last ∧ net.deliver last t = (some answered, left) ∧
      r.status = answered.status := by
  obtain ⟨last, ⟨before, t⟩, answered, hsent, hr⟩ := forward_ok h
  obtain ⟨hanswered, hleft⟩ := Prod.mk.inj hsent
  obtain ⟨hsent, hleft⟩ := Prod.mk.inj hleft
  refine ⟨last.wire, t, answered, ?_, Prod.ext hanswered hleft, ?_⟩
  · rw [← hsent, List.getLast?_concat]
  · rw [hr, answer_status, Agent.decoded_status, Agent.receive_status]

end Gateway

/-! ## What a request for the registry is answered -/

namespace Console

variable {σ : Type}

/-- Whether a request for the path `path` of the registry is answered as it must be, when `sent` is
what was sent for it and `left` is what is left of the network. -/
structure AnswersFor (c : Console) (net : Network σ) (now : Int64) (path : String)
    (r : InboundRequest) (s : σ) (answered : Response × List LogEvent)
    (sent : List WireRequest) (left : σ) : Prop where
  /-- A body beyond the limit comes first, whatever else is wrong. -/
  tooLong : c.maxBody < r.body.bytes.length →
    Tells "Failed to read request body: length limit exceeded" answered ∧ sent = [] ∧ left = s
  /-- Next comes a body that breaks off. -/
  broken : r.body.bytes.length ≤ c.maxBody → ∀ text, r.body.broken = some text →
    Tells ("Failed to read request body: " ++ text) answered ∧ sent = [] ∧ left = s
  /-- With all of the body there, a token that cannot be issued comes next. -/
  unsigned : r.body.bytes.length ≤ c.maxBody → r.body.broken = none →
    ∀ f, c.gateway.issuer.issue now = .error f →
      Tells f.message answered ∧ sent = [] ∧ left = s
  /-- With a token too, the request is forwarded, and what goes wrong there is told. -/
  forwarded : r.body.bytes.length ≤ c.maxBody → r.body.broken = none →
    ∀ token, c.gateway.issuer.issue now = .ok token →
      let call : ForwardCall := ⟨r.method, path, r.target.query, r.headers, r.body.bytes⟩
      left = (c.gateway.forward net now call s).2 ∧
      match (c.gateway.forward net now call s).1 with
      | .error f => Tells f.message answered
      | .ok _ =>
        -- the registry has answered, be it with an error, and this is no fault
        answered.2 = [] ∧ ∃ (last : WireRequest) (t : σ) (r : Response),
          sent.getLast? = some last ∧ net.deliver last t = (some r, left) ∧
          answered.1.status = r.status

/-- The checks of a request for the registry come in a fixed order. Until all of them are passed
nothing is sent, and every fault is told in the same form; the status that the registry gives is
never taken for a fault. -/
theorem answersFor_of_registry {r : InboundRequest} {path : String}
    (hroute : Route.of r.target.path = .registry path) (c : Console) (net : Network σ)
    (now : Int64) (s : σ) :
    let result := c.answer net.recorded now r ([], s)
    c.AnswersFor net now path r s result.1 result.2.1 result.2.2 := by
  intro result
  have hresult : result = c.answer net.recorded now r ([], s) := rfl
  rw [answer_of_registry hroute] at hresult
  -- a fault that leaves the network alone is told, and nothing is sent
  have hrefused : ∀ f : GatewayFault, c.relay net.recorded now path r ([], s) =
      (.error f, ([], s)) → Tells f.message result.1 ∧ result.2.1 = [] ∧ result.2.2 = s := by
    intro f hrelay
    rw [hresult, hrelay]
    exact ⟨f.tells, rfl, rfl⟩
  constructor
  case tooLong =>
    intro hlong
    exact hrefused _ (relay_of_unread (InboundBody.read_of_lt hlong) ..)
  case broken =>
    intro hfits text hbroken
    exact hrefused _ (relay_of_unread (InboundBody.read_of_broken hfits hbroken) ..)
  case unsigned =>
    intro hfits hwhole f hissue
    apply hrefused (.signing f)
    rw [relay_of_read (InboundBody.read_of_whole hfits hwhole)]
    exact Gateway.forward_of_unsigned hissue ..
  case forwarded =>
    intro hfits hwhole token _ call
    rw [relay_of_read (InboundBody.read_of_whole hfits hwhole)] at hresult
    -- what is said of the network without a record is read off the run with one
    have hsame := Gateway.forward_of_recorded c.gateway net now call s
    rw [hresult, ← hsame]
    cases hrun : c.gateway.forward net.recorded now call ([], s) with
    | mk outcome rest =>
      obtain ⟨sent, left⟩ := rest
      refine ⟨rfl, ?_⟩
      cases outcome with
      | error f => exact f.tells
      | ok relayed =>
        obtain ⟨last, t, r, hlast, hdelivered, hstatus⟩ := Gateway.forward_status hrun
        refine ⟨rfl, last, t, r, hlast, hdelivered, ?_⟩
        exact (Response.withLength_status relayed).trans hstatus

/-- An upload that is too long by one octet, to a console without a key: it is the length that is
told. -/
theorem answersFor_of_registry_upload :
    let c : Console := ⟨⟨"http://registry.example", .ofKey none⟩, 2, ⟨.empty, [], fun _ => none⟩⟩
    let net := Backend.network fun _ b => some b
    let backend : Backend := ⟨fun _ => true, [], ⟨.ok, [], .empty⟩, []⟩
    let r : InboundRequest :=
      ⟨.put, ⟨"", "/api/object-registry/ns/key", none⟩, [], ⟨[0x61, 0x62, 0x63], none⟩⟩
    let result := c.answer net.recorded 0 r ([], backend)
    Route.of r.target.path = .registry "ns/key" ∧
    c.AnswersFor net 0 "ns/key" r backend result.1 result.2.1 result.2.2 ∧
    Tells "Failed to read request body: length limit exceeded" result.1 := by
  intro c net backend r result
  have hroute : Route.of r.target.path = .registry "ns/key" :=
    Route.of_eq_registry_iff.2 ⟨by decide, by decide⟩
  have hanswers := answersFor_of_registry hroute c net 0 backend
  exact ⟨hroute, hanswers, (hanswers.tooLong (by decide)).1⟩

end Console

end RegistryConsole
