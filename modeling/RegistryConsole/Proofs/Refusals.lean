import RegistryConsole.Proofs.Faults
import RegistryConsole.Proofs.Operations
import RegistryConsole.Proofs.Requests

/-! # Refusals

What the console tells the client of a fault, or relays to it of the registry's refusal, comes out
of the client's operation as it was: a fault with its text, a refusal with the message that the
registry's own answer has. Between the registry and the client an answer loses only what concerns
the connection, and none of that has a say in the message. -/

namespace RegistryConsole

variable {σ : Type}

/-! ## Messages -/

/-- No fault is told with an empty text. -/
theorem GatewayFault.message_ne_empty (f : GatewayFault) : f.message ≠ "" := by
  have happend : ∀ {lead : String}, lead ≠ "" → ∀ text : String, lead ++ text ≠ "" := by
    intro lead hlead text hempty
    exact hlead (String.append_eq_empty_iff.1 hempty).1
  cases f with
  | signing f =>
    cases f with
    | setup f =>
      cases f with
      | missingKey => exact (by decide : SetupFault.missingKey.message ≠ "")
      | invalidKey f => exact happend (by decide) f.message
    | badKey f => exact happend (by decide) f.message
    | signing => exact (by decide : IssueFault.signing.message ≠ "")
  | header => exact (by decide : GatewayFault.header.message ≠ "")
  | body f =>
    cases f with
    | tooLong => exact (by decide : BodyFault.tooLong.message ≠ "")
    | broken text => exact happend (by decide) text
    | unwritable => exact (by decide : BodyFault.unwritable.message ≠ "")
  | registry f => exact happend (by decide) f.message
  | answer f => exact happend (by decide) f.message

namespace Refusal

/-- A message is taken from the status, the body and its type, and from nothing else. -/
theorem message_congr {r other : Response} (hstatus : r.status = other.status)
    (hbody : r.body.whole? = other.body.whole?)
    (htype : r.headers.values "content-type" = other.headers.values "content-type")
    (action : String) : message action r = message action other := by
  have hfirst : r.headers.first? "content-type" = other.headers.first? "content-type" := by
    rw [Headers.first?_eq_head?, Headers.first?_eq_head?, htype]
  have hsays : saysJson r = saysJson other := by
    rw [saysJson, saysJson, hfirst]
  rw [message, message, hstatus, hbody, hsays]

/-- The text in a JSON answer with the member `error` is its message. -/
theorem message_of_error {r : Response} {bytes : Bytes} {text : String}
    (hwhole : r.body.whole? = some bytes)
    (htype : r.headers.values "content-type" = [Response.jsonType])
    (hbody : Json.ofBytes? bytes = .ok (.object [("error", .string text)])) (htext : text ≠ "")
    (action : String) : message action r = text := by
  have hsays : saysJson r = true := by
    rw [saysJson, Headers.first?_eq_head?, htype]
    decide
  have hmember : memberText? ((Json.object [("error", .string text)]).member? "error") =
      some text := by
    show memberText? (some (.string text)) = some text
    simp [memberText?]
  rw [message, hwhole]
  dsimp only
  rw [if_pos hsays, hbody]
  dsimp only [jsonText]
  rw [hmember]

end Refusal

/-- An error is read with its whole body, if it has one. -/
theorem Agent.whole?_receive {method : Method} (hmethod : method ≠ .head) {r : Response}
    (herror : 400 ≤ r.status.code) : (receive method r).body.whole? = r.body.whole? := by
  rw [receive_body (Response.not_isBare_of_error hmethod herror)]
  cases r.body with
  | sized bytes => rfl
  | streamed bytes complete => cases complete <;> rfl

/-- The message of a fault that is told is its text. -/
theorem GatewayFault.message_reported (f : GatewayFault) {method : Method}
    (hmethod : method ≠ .head) (net : Network σ) (action : String) :
    (Agent.reported net method f.response.withLength).status = .internalError ∧
      Refusal.message action (Agent.reported net method f.response.withLength) = f.message := by
  have htells := f.tells
  obtain ⟨bytes, hwhole, hbody⟩ := htells.body
  -- the body is in no coding, so it is read as it comes
  have hcoding : ∀ v ∈ f.response.withLength.headers.first? "content-encoding",
      Coding.ofName? v = none := by
    rw [Headers.first?_eq_head?, Response.values_withLength (by decide)]
    exact fun v hv => absurd hv (by simp [response, Response.json, Headers.values])
  have hreceived : (Agent.receive method f.response.withLength).body.whole? = some bytes := by
    rw [Agent.whole?_receive hmethod (by rw [htells.status]; decide)]
    exact hwhole
  rw [Agent.reported_eq_receive hcoding, Agent.receive_status, Response.withLength_status]
  refine ⟨rfl, Refusal.message_of_error hreceived ?_ hbody f.message_ne_empty action⟩
  rw [Agent.receive_headers]
  exact htells.type

/-- An answer that is relayed says what the answer said that it is relayed from. -/
theorem Gateway.IsRelayed.message_reported {answered r : Response}
    (h : Gateway.IsRelayed answered r)
    (hstreamed : ∃ bytes complete, answered.body = .streamed bytes complete)
    (herror : 400 ≤ answered.status.code) {method : Method} (hmethod : method ≠ .head)
    (net : Network σ) (action : String) :
    (Agent.reported net method r.withLength).status = answered.status ∧
      Refusal.message action (Agent.reported net method r.withLength) =
        Refusal.message action answered := by
  obtain ⟨bytes, complete, hbody⟩ := hstreamed
  rw [← h.body] at hbody
  have hlength : r.withLength = r := by
    rw [Response.withLength, hbody]
  have hcoding : ∀ v ∈ r.headers.first? "content-encoding", Coding.ofName? v = none := by
    rw [Headers.first?_eq_head?, h.dropped _ (by decide)]
    exact fun v hv => absurd hv (by simp)
  rw [hlength, Agent.reported_eq_receive hcoding]
  have hstatus := (Agent.receive_status method r).trans h.status
  refine ⟨hstatus, Refusal.message_congr hstatus ?_ ?_ action⟩
  · rw [Agent.whole?_receive hmethod (by rwa [h.status]), h.body]
  · rw [Agent.receive_headers]
    exact h.kept _ (by decide)

/-! ## Errors of the registry -/

/-- What is read off a connection has no known length. -/
theorem Agent.exists_body_reported (net : Network σ) (method : Method) (answered : Response) :
    ∃ bytes complete, (reported net method answered).body = .streamed bytes complete := by
  have hreceived : ∃ bytes complete, (receive method answered).body = .streamed bytes complete := by
    unfold receive
    split <;> exact ⟨_, _, rfl⟩
  unfold reported decoded
  split
  · exact hreceived
  · dsimp only
    unfold undone
    split
    · exact hreceived
    · split <;> exact ⟨_, _, rfl⟩

/-- No request of a call that asks for more than a header asks for a header alone. -/
theorem Agent.Run.method_ne_head {agent : Agent} {net : Network σ} {first : Url} {left : Nat}
    {c : Call} {s last : σ} {steps : List (Exchange σ)} {result : Except CallFault Response}
    (h : agent.Run net first left c s steps result last) (hc : c.method ≠ .head) :
    ∀ e ∈ steps, e.request.method ≠ .head := by
  induction h with
  | lost | ended | limited | barred =>
    intro e he
    rw [List.mem_singleton.1 he]
    exact hc
  | redirected _ hnext _ _ ih =>
    intro e he
    rcases List.mem_cons.1 he with rfl | he
    · exact hc
    · exact ih (method_ne_head_of_next? hc hnext) e he

/-- The request of the first call is among those of a forwarded call. -/
theorem Gateway.first_mem_forward {g : Gateway} {now : Int64} {call : ForwardCall} {c : Call}
    (hfirst : g.firstCall? now call = .ok c) (net : Network σ) (s : σ) :
    ⟨c.wire, s⟩ ∈ (g.forward net.traced now call ([], s)).2.1 := by
  obtain ⟨steps, hrun⟩ := (agentFor call.method).exists_run net c.url Agent.maxRedirects c s
  rw [forward_eq, hfirst]
  dsimp only
  rw [hrun.follow_traced, List.nil_append]
  exact hrun.first_mem

/-- A call that is forwarded ends with the first error that it is answered with, and that error is
relayed. -/
theorem Gateway.forward_of_error {g : Gateway} {net : Network σ} {now : Int64} {call : ForwardCall}
    {s : σ} (hcall : call.method ≠ .head) {e : Exchange σ}
    (he : e ∈ (g.forward net.traced now call ([], s)).2.1) {answered : Response}
    (hanswered : e.answer? net = some answered) (herror : 400 ≤ answered.status.code)
    {method : Method} (hmethod : method ≠ .head) :
    ∃ r, (g.forward net now call s).1 = .ok r ∧
      IsRelayed (Agent.reported net method answered) r := by
  rw [forward_eq] at he ⊢
  cases hfirst : g.firstCall? now call with
  | error f =>
    rw [hfirst] at he
    exact absurd he List.not_mem_nil
  | ok c =>
    rw [hfirst] at he
    obtain ⟨steps, hrun⟩ := (agentFor call.method).exists_run net c.url Agent.maxRedirects c s
    dsimp only at he ⊢
    rw [hrun.follow_traced, List.nil_append] at he
    obtain ⟨token, u, -, -, hparts⟩ := isFirstCall_of_firstCall? hfirst
    have hc : c.method ≠ .head := by rwa [hparts.method]
    rw [hrun.result_of_error hc he hanswered herror hmethod]
    refine ⟨_, rfl, isRelayed_answer ?_⟩
    rw [Agent.reported_status, Status.isRedirection, Bool.and_eq_true, decide_eq_true_eq,
      decide_eq_true_eq]
    omega

/-! ## Through the console -/

namespace Console

/-- The request for the registry that comes to the console at an address, with the path that it is
for. -/
def asked? (address : Origin) (w : WireRequest) : Option (InboundRequest × String) :=
  if w.origin = address ∧ !w.isSecure then
    match ofWire? w with
    | none => none
    | some r =>
      match Route.of r.target.path with
      | .registry path => some (r, path)
      | _ => none
  else none

variable {c : Console} {address : Origin} {w : WireRequest} {r : InboundRequest} {path : String}

theorem asked?_eq_some (h : asked? address w = some (r, path)) :
    (w.origin = address ∧ !w.isSecure) ∧ ofWire? w = some r ∧
      Route.of r.target.path = .registry path := by
  unfold asked? at h
  split at h
  · next hhere =>
    refine ⟨hhere, ?_⟩
    split at h
    · exact absurd h (by simp)
    · next r' hr =>
      split at h
      · next path' hroute =>
        obtain ⟨rfl, rfl⟩ := Prod.mk.inj (Option.some.inj h)
        exact ⟨hr, hroute⟩
      · exact absurd h (by simp)
  · exact absurd h (by simp)

/-- The request comes with the method that it was sent with. -/
theorem method_of_asked? (h : asked? address w = some (r, path)) : r.method = w.method := by
  have hwire := (asked?_eq_some h).2.1
  unfold ofWire? at hwire
  split at hwire
  · exact absurd hwire (by simp)
  · rw [← Option.some.inj hwire]

/-- Such a request is answered with what is told of relaying it. -/
theorem deliver_of_asked? (h : asked? address w = some (r, path)) (now : Int64) (net : Network σ)
    (s : List LogEvent × σ) :
    (c.network address now net).deliver w s =
      (some (told (c.relay net now path r s.2).1).1.withLength,
        (s.1 ++ (told (c.relay net now path r s.2).1).2, (c.relay net now path r s.2).2)) := by
  obtain ⟨hhere, hwire, hroute⟩ := asked?_eq_some h
  dsimp only [network]
  rw [if_pos hhere, hwire]
  dsimp only
  rw [answer_of_registry hroute]

/-- The request of the first call is among those of relaying a request. -/
theorem first_mem_relay {now : Int64} {body : Bytes} {first : Call}
    (hread : r.body.read c.maxBody = .ok body)
    (hfirst : c.gateway.firstCall? now ⟨r.method, path, r.target.query, r.headers, body⟩ =
      .ok first) (net : Network σ) (s : σ) :
    ⟨first.wire, s⟩ ∈ (c.relay net.traced now path r ([], s)).2.1 := by
  rw [relay_of_read hread]
  exact Gateway.first_mem_forward hfirst net s

/-- A request whose relaying meets an error of the registry gets that error relayed. -/
theorem relay_of_error {net : Network σ} {now : Int64} {s : σ} (hr : r.method ≠ .head)
    {e : Exchange σ} (he : e ∈ (c.relay net.traced now path r ([], s)).2.1) {answered : Response}
    (hanswered : e.answer? net = some answered) (herror : 400 ≤ answered.status.code)
    {method : Method} (hmethod : method ≠ .head) :
    ∃ reply, (c.relay net now path r s).1 = .ok reply ∧
      Gateway.IsRelayed (Agent.reported net method answered) reply := by
  unfold relay at he ⊢
  split at he
  · exact absurd he List.not_mem_nil
  · exact Gateway.forward_of_error hr he hanswered herror hmethod

end Console

/-! ## What operations fail with -/

namespace Client

/-- A task that meets an error fails with that error, in the words that the client finds for it. -/
theorem perform_of_error {client : Client} {net : Network σ} {task : Task} {s : σ}
    (htask : task.method ≠ .head) {e : Exchange σ}
    (he : e ∈ (client.perform net.traced task ([], s)).2.1) {answered : Response}
    (hanswered : e.answer? net = some answered) (herror : 400 ≤ answered.status.code) :
    (client.perform net.traced task ([], s)).1 =
      let r := Agent.reported net task.method answered
      .error (.refused r.status (Refusal.message task.action r)) := by
  rcases perform_traced client net task s with
    ⟨f, -, hunsent⟩ | ⟨call, steps, result, last, hready, hrun, htraced⟩
  · rw [hunsent] at he
    exact absurd he List.not_mem_nil
  · rw [htraced] at he ⊢
    have hcall : call.method ≠ .head := by rwa [(ready?_ok hready).1]
    have hfailed : ¬(Agent.reported net task.method answered).status.isSuccess = true := by
      rw [Agent.reported_status, Status.isSuccess, Bool.and_eq_true, decide_eq_true_eq,
        decide_eq_true_eq]
      omega
    rw [hrun.result_of_error hcall he hanswered herror htask]
    exact if_neg hfailed

/-- A fault that is told is what the task fails with, in the words of the fault. -/
theorem perform_of_told {client : Client} {net : Network σ} {task : Task} {s : σ}
    (htask : task.method ≠ .head) {e : Exchange σ}
    (he : e ∈ (client.perform net.traced task ([], s)).2.1) {f : GatewayFault}
    (hanswer : e.answer? net = some f.response.withLength) :
    (client.perform net.traced task ([], s)).1 = .error (.refused ⟨500⟩ f.message) := by
  obtain ⟨hstatus, hmessage⟩ := f.message_reported htask net task.action
  have hfails := perform_of_error htask he hanswer (by rw [f.tells.status]; decide)
  dsimp only at hfails
  rw [hstatus, hmessage] at hfails
  exact hfails

/-- An error that is relayed is what the task fails with, in the words that the client finds for the
answer that it is relayed from. -/
theorem perform_of_relayed {client : Client} {net : Network σ} {task : Task} {s : σ}
    (htask : task.method ≠ .head) {e : Exchange σ}
    (he : e ∈ (client.perform net.traced task ([], s)).2.1) {answered reply : Response}
    (hanswer : e.answer? net = some reply.withLength) (hrelayed : Gateway.IsRelayed answered reply)
    (hstreamed : ∃ bytes complete, answered.body = .streamed bytes complete)
    (herror : 400 ≤ answered.status.code) :
    (client.perform net.traced task ([], s)).1 =
      .error (.refused answered.status (Refusal.message task.action answered)) := by
  obtain ⟨hstatus, hmessage⟩ := hrelayed.message_reported hstreamed herror htask net task.action
  have hfails := perform_of_error htask he hanswer
    (by rwa [Response.withLength_status, hrelayed.status])
  dsimp only at hfails
  rw [hstatus, hmessage] at hfails
  exact hfails

/-- No request of a task that asks for more than a header asks for a header alone. -/
theorem method_ne_head_of_perform {client : Client} {net : Network σ} {task : Task} {s : σ}
    (htask : task.method ≠ .head) :
    ∀ e ∈ (client.perform net.traced task ([], s)).2.1, e.request.method ≠ .head := by
  rcases perform_traced client net task s with
    ⟨f, -, hunsent⟩ | ⟨call, steps, result, last, hready, hrun, htraced⟩
  · rw [hunsent]
    exact fun e he => absurd he List.not_mem_nil
  · rw [htraced]
    exact hrun.method_ne_head (by rwa [(ready?_ok hready).1])

end Client

namespace Operation

open Client

/-- Whether `run` fails as it is told: it is what a task's run by way of the console came to, namely
what it failed with, if it did, and the requests that were sent for it. -/
structure FailsAsTold (console : Console) (address : Origin) (now : Int64) (net : Network σ)
    (task : Task)
    (run : Option ClientFault × List (Exchange (List LogEvent × σ)) × (List LogEvent × σ)) :
    Prop where
  /-- Every fault that is told comes out with its status and its text, whatever the text. -/
  told : ∀ e ∈ run.2.1, ∀ f : GatewayFault,
    e.answer? (console.network address now net) = some f.response.withLength →
      run.1 = some (.refused ⟨500⟩ f.message)
  /-- That is so for every fault in relaying a request that was sent. -/
  fault : ∀ e ∈ run.2.1, ∀ r path, Console.asked? address e.request = some (r, path) →
    ∀ f, (console.relay net now path r e.before.2).1 = .error f →
      run.1 = some (.refused ⟨500⟩ f.message)
  /-- An error that the registry answers in relaying a request comes out as it would without the
  console in between. -/
  refusal : ∀ e ∈ run.2.1, ∀ r path, Console.asked? address e.request = some (r, path) →
    ∀ beyond ∈ (console.relay net.traced now path r ([], e.before.2)).2.1,
      ∀ answered, beyond.answer? net = some answered → 400 ≤ answered.status.code →
        run.1 = some (.refused answered.status
          (Refusal.message task.action (Agent.reported net task.method answered)))

/-- The console at `ui.example` finds that its client asks for the namespaces. -/
theorem exists_asked_namespaces :
    ∃ call r, (Client.of "http://ui.example").ready? .namespaces = .ok call ∧
      Console.asked? ⟨"ui.example".toList, 80⟩ call.wire = some (r, "namespaces") ∧
      r.method = .get ∧ r.target.query = none ∧ r.body = ⟨[], none⟩ := by
  obtain ⟨call, hready, hurl⟩ := exists_ready_namespaces
  obtain ⟨hmethod, hbody, -⟩ := ready?_ok hready
  have hget : call.method = .get := hmethod
  have htarget : call.wire.target = "/api/object-registry/namespaces".toList := by
    show call.target = _
    rw [Call.target_of_ne (by rw [hget]; decide), hurl]
    rfl
  have hread : RequestTarget.ofBytes? (Utf8.encode "/api/object-registry/namespaces".toList) =
      .ok ⟨"", "/api/object-registry/namespaces", none⟩ := by rfl
  have hhere : call.wire.origin = ⟨"ui.example".toList, 80⟩ ∧ !call.wire.isSecure := by
    show call.url.origin = _ ∧ !decide (call.url.scheme = "https".toList)
    rw [hurl]
    decide
  let r : InboundRequest :=
    ⟨.get, ⟨"", "/api/object-registry/namespaces", none⟩, call.wire.headers, ⟨[], none⟩⟩
  have hwire : Console.ofWire? call.wire = some r := by
    have hempty : call.wire.body = [] := congrArg (Option.getD · []) hbody
    have hasked : call.wire.method = .get := hget
    rw [Console.ofWire?, htarget, hread, hempty, hasked]
  have hroute : Route.of "/api/object-registry/namespaces" = .registry "namespaces" :=
    Route.of_eq_registry_iff.2 ⟨by decide, by decide⟩
  refine ⟨call, r, hready, ?_, rfl, rfl, rfl⟩
  rw [Console.asked?, if_pos hhere, hwire]
  dsimp only [r]
  rw [hroute]

/-- What a task fails with is what the console told or relayed. -/
theorem failsAsTold_perform (task : Task) (htask : task.method ≠ .head) (client : Client)
    (console : Console) (address : Origin) (now : Int64) (net : Network σ)
    (s : List LogEvent × σ) :
    FailsAsTold console address now net task
      (failure (client.perform (console.network address now net).traced task ([], s))) := by
  have hstate := failure_state
    (client.perform (console.network address now net).traced task ([], s))
  constructor
  · intro e he f hanswer
    rw [hstate] at he
    exact failure_of_error (perform_of_told htask he hanswer)
  · intro e he r path hasked f hfault
    rw [hstate] at he
    refine failure_of_error (perform_of_told htask he ?_)
    rw [Exchange.answer?, Console.deliver_of_asked? hasked, hfault]
    rfl
  · intro e he r path hasked beyond hbeyond answered hanswered herror
    rw [hstate] at he
    have hr : r.method ≠ .head := by
      rw [Console.method_of_asked? hasked]
      exact method_ne_head_of_perform htask e he
    obtain ⟨reply, hreply, hrelayed⟩ := Console.relay_of_error hr hbeyond hanswered herror htask
    have hanswer : e.answer? (console.network address now net) = some reply.withLength := by
      rw [Exchange.answer?, Console.deliver_of_asked? hasked, hreply]
      rfl
    rw [← Agent.reported_status net task.method] at herror ⊢
    exact failure_of_error (perform_of_relayed htask he hanswer hrelayed
      (Agent.exists_body_reported net _ answered) herror)

/-- An operation that passes on what its task came to fails as it is told where the task does. -/
theorem FailsAsTold.of_passesOn {console : Console} {address : Origin} {now : Int64}
    {net : Network σ} {task : Task}
    {performed : Except ClientFault Response × List (Exchange (List LogEvent × σ)) ×
      (List LogEvent × σ)}
    {run : Option ClientFault × List (Exchange (List LogEvent × σ)) × (List LogEvent × σ)}
    (h : FailsAsTold console address now net task (failure performed))
    (hpasses : PassesOn performed run) : FailsAsTold console address now net task run := by
  have hsent : ∀ e ∈ run.2.1, e ∈ (failure performed).2.1 := by
    rw [failure_state, ← hpasses.state]
    exact fun e he => he
  constructor
  · intro e he f hanswer
    exact hpasses.of_failure (h.told e (hsent e he) f hanswer)
  · intro e he r path hasked f hfault
    exact hpasses.of_failure (h.fault e (hsent e he) r path hasked f hfault)
  · intro e he r path hasked beyond hbeyond answered hanswered herror
    exact hpasses.of_failure
      (h.refusal e (hsent e he) r path hasked beyond hbeyond answered hanswered herror)

/-- Whatever the console tells or relays of an error comes out of every operation as it was, by
whatever name its task goes. -/
theorem failsAsTold_run (op : Operation) (client : Client) (console : Console) (address : Origin)
    (now : Int64) (net : Network σ) (s : List LogEvent × σ) :
    let front := (console.network address now net).traced
    FailsAsTold console address now net op.task (op.run client front ([], s)) ∧
      ∀ action, FailsAsTold console address now net { op.task with action }
        (failure (client.perform front { op.task with action } ([], s))) := by
  intro front
  constructor
  · exact (failsAsTold_perform op.task (op.method_task_ne (by decide)) ..).of_passesOn
      (op.passesOn_run client front ([], s))
  · intro action
    exact failsAsTold_perform { op.task with action } (op.method_task_ne (by decide)) ..

/-- A console without a key is asked for the namespaces, and so is one with a key whose registry
says that they are not for it. Both messages come out. -/
theorem failsAsTold_run_namespaces :
    let net := Backend.network fun _ b => some b
    let refusal : Response := ⟨⟨403⟩, [⟨"content-type", Response.jsonType, false⟩],
      .sized (Utf8.ofString "\x7b\"error\":\"not yours\"\x7d")⟩
    let backend : Backend := ⟨fun _ => true, [], refusal, []⟩
    let console (issuer : Issuer) : Console :=
      ⟨⟨"http://registry.example", issuer⟩, 0, ⟨.empty, [], fun _ => none⟩⟩
    let run (issuer : Issuer) := Operation.listNamespaces.run (Client.of "http://ui.example")
      ((console issuer).network ⟨"ui.example".toList, 80⟩ 0 net).traced ([], ([], backend))
    (run (.ofKey none)).1 = some (.refused ⟨500⟩ SetupFault.missingKey.message) ∧
      (run exampleIssuer).1 = some (.refused ⟨403⟩ "not yours") := by
  intro net refusal backend console run
  obtain ⟨call, r, hready, hasked, hmethod, hquery, hbody⟩ := exists_asked_namespaces
  have hsent : ∀ issuer, ⟨call.wire, ([], backend)⟩ ∈ (run issuer).2.1 := by
    intro issuer
    unfold run
    exact first_mem_run .listNamespaces hready _ _
  have htold : ∀ issuer, FailsAsTold (console issuer) ⟨"ui.example".toList, 80⟩ 0 net .namespaces
      (run issuer) := by
    intro issuer
    exact (failsAsTold_run .listNamespaces (Client.of "http://ui.example") (console issuer)
      ⟨"ui.example".toList, 80⟩ 0 net ([], backend)).1
  have hread : ∀ issuer, r.body.read (console issuer).maxBody = .ok [] := by
    intro issuer
    rw [hbody]
    exact InboundBody.read_of_whole (Nat.zero_le _) rfl
  constructor
  · apply (htold (.ofKey none)).fault _ (hsent _) r _ hasked (.signing (.setup .missingKey))
    rw [Console.relay_of_read (hread _)]
    exact congrArg Prod.fst (Gateway.forward_of_unsigned (f := .setup .missingKey) rfl _ _ _)
  · obtain ⟨token, htoken⟩ := exists_token_of_exampleIssuer
    have hurl : (console exampleIssuer).gateway.targetUrl "namespaces" none =
        "http://registry.example/namespaces" := by decide
    generalize exampleIssuer = issuer at htoken hurl ⊢
    let u : Url := ⟨"http".toList, [], none, some "registry.example".toList, none,
      .segments ["namespaces".toList], none, none⟩
    have hcallable : u.IsCallable :=
      (Url.isCallable_of_user_eq ⟨rfl, rfl⟩ rfl (by decide) (by decide)).1
    obtain ⟨c, hfirst, -⟩ := Gateway.exists_firstCall? (g := (console issuer).gateway)
      ⟨r.method, "namespaces", r.target.query, r.headers, []⟩ htoken (by rw [hquery, hurl]; rfl)
      hcallable
    have hbeyond := Console.first_mem_relay (hread issuer) hfirst net backend
    have hcontent : Json.ofBytes? (Utf8.ofString "\x7b\"error\":\"not yours\"\x7d") =
        .ok (.object [("error", .string "not yours")]) := rfl
    have hmessage : Refusal.message Task.namespaces.action
        (Agent.reported net .get refusal) = "not yours" :=
      Refusal.message_of_error rfl rfl hcontent (by decide) _
    have hrefused := (htold issuer).refusal _ (hsent issuer) r _ hasked _ hbeyond refusal rfl
      (by decide)
    rw [hrefused, ← hmessage]
    rfl

end Operation

end RegistryConsole
