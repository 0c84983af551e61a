import RegistryConsole.Client.Basic
import RegistryConsole.Proofs.Runs

/-! # Operations of the client

Every operation carries out one task. Whether anything is sent for a task is decided by the client
and the task alone; what follows is a run of the task's call, and the operation fails with whatever
the task fails with. -/

namespace RegistryConsole.Client

variable {σ : Type}

/-! ## The call of a task -/

/-- The call that is sent first for a task, or why none is. -/
def ready? (c : Client) (task : Task) : Except ClientFault Call :=
  match c.urlWith task.path task.fields with
  | .error f => .error (.url f)
  | .ok u =>
    match callFor task u with
    | .error f => .error f
    | .ok call =>
      match call.prepare agent with
      | .error f => .error (.call f)
      | .ok ready => .ok ready

/-- What comes of following the first call. -/
def concluded (action : String) : Except CallFault Response → Except ClientFault Response
  | .error f => .error (.call f)
  | .ok r =>
    if r.status.isSuccess then .ok r
    else .error (.refused r.status (Refusal.message action r))

/-- A task is carried out by sending its first call and following the answers to it. Without a first
call the network is left alone. -/
theorem perform_eq (c : Client) (net : Network σ) (task : Task) (s : σ) :
    c.perform net task s =
      match c.ready? task with
      | .error f => (.error f, s)
      | .ok call =>
        let run := agent.follow net call.url Agent.maxRedirects call s
        (concluded task.action run.1, run.2) := by
  unfold perform ready?
  cases c.urlWith task.path task.fields with
  | error f => rfl
  | ok u =>
    dsimp only
    cases callFor task u with
    | error f => rfl
    | ok call =>
      dsimp only [Agent.send]
      cases call.prepare agent with
      | error f => rfl
      | ok ready =>
        dsimp only
        cases agent.follow net ready.url Agent.maxRedirects ready s with
        | mk result t =>
          cases result with
          | error f => rfl
          | ok r =>
            dsimp only [concluded]
            split <;> rfl

/-- The call of a task has the method, the header and the content of the task. -/
theorem callFor_ok {task : Task} {u : Url} {call : Call} (h : callFor task u = .ok call) :
    call.method = task.method ∧ call.url = u ∧ call.body = task.content.map (·.2) := by
  unfold callFor at h
  split at h
  · exact absurd h (by simp)
  · split at h
    · next hcontent =>
      rw [← Except.ok.inj h, hcontent]
      exact ⟨rfl, rfl, rfl⟩
    · next hcontent =>
      dsimp only at h
      split at h
      · rw [← Except.ok.inj h, hcontent]
        exact ⟨rfl, rfl, rfl⟩
      · exact absurd h (by simp)

/-- So has the first call that is sent for it. The user of its URL, if there is one, goes to the
header. -/
theorem ready?_ok {c : Client} {task : Task} {call : Call} (h : c.ready? task = .ok call) :
    call.method = task.method ∧ call.body = task.content.map (·.2) ∧
      ∃ u, c.urlWith task.path task.fields = .ok u ∧
        (call.url = u ∨ call.url = u.withoutUser) := by
  unfold ready? at h
  split at h
  · exact absurd h (by simp)
  · next u hu =>
    split at h
    · exact absurd h (by simp)
    · next bare hbare =>
      obtain ⟨hmethod, rfl, hbody⟩ := callFor_ok hbare
      split at h
      · exact absurd h (by simp)
      · next ready hready =>
        obtain rfl := Except.ok.inj h
        unfold Call.prepare at hready
        dsimp only at hready
        split at hready
        · exact absurd hready (by simp)
        · split at hready
          · exact absurd hready (by simp)
          · rw [← Except.ok.inj hready]
            unfold Call.withCredentials
            split
            · exact ⟨hmethod, hbody, _, hu, Or.inl rfl⟩
            · exact ⟨hmethod, hbody, _, hu, Or.inr rfl⟩

/-- There is a call of a task if what is sent has a media type. -/
theorem exists_callFor {task : Task} {u : Url} (hhost : u.hasHost = true)
    (hcontent : ∀ content ∈ task.content, HeaderField.isValue (Utf8.ofString content.1) = true) :
    ∃ call, callFor task u = .ok call := by
  unfold callFor
  rw [hhost]
  cases hsome : task.content with
  | none => exact ⟨_, rfl⟩
  | some content =>
    dsimp only
    rw [if_pos (hcontent content hsome)]
    exact ⟨_, rfl⟩

/-- It is sent first if its URL can be called. -/
theorem exists_ready? {c : Client} (task : Task) {u : Url}
    (hu : c.urlWith task.path task.fields = .ok u) (hcallable : u.IsCallable)
    (hcontent : ∀ content ∈ task.content, HeaderField.isValue (Utf8.ofString content.1) = true) :
    ∃ call, c.ready? task = .ok call ∧ call.url = Call.sentUrl u := by
  obtain ⟨bare, hbare⟩ := exists_callFor hcallable.host hcontent
  obtain ⟨-, rfl, -⟩ := callFor_ok hbare
  obtain ⟨call, hcall, -, hurl, -⟩ := agent.exists_prepare hcallable
  refine ⟨call, ?_, hurl⟩
  unfold ready?
  rw [hu]
  dsimp only
  rw [hbare]
  dsimp only
  rw [hcall]

/-- A client of the console at `ui.example` can ask for the namespaces. -/
theorem exists_ready_namespaces :
    ∃ call, (Client.of "http://ui.example").ready? .namespaces = .ok call ∧
      call.url = ⟨"http".toList, [], none, some "ui.example".toList, none,
        .segments ["api".toList, "object-registry".toList, "namespaces".toList], none, none⟩ := by
  have htext : (Client.of "http://ui.example").base ++ "/" ++ trimLead "namespaces" =
      "http://ui.example/api/object-registry/namespaces" := by decide
  obtain ⟨hcallable, hsent⟩ := Url.isCallable_of_user_eq (u := ⟨"http".toList, [], none,
    some "ui.example".toList, none,
    .segments ["api".toList, "object-registry".toList, "namespaces".toList], none, none⟩)
    ⟨rfl, rfl⟩ rfl (by decide) (by decide)
  obtain ⟨call, hcall, hurl⟩ := exists_ready? (c := Client.of "http://ui.example") .namespaces
    (by rw [urlWith, Task.namespaces, url, htext]; rfl) hcallable
    (fun content hcontent => absurd hcontent (by simp [Task.namespaces]))
  exact ⟨call, hcall, hurl.trans hsent⟩

/-- The request of the first call is the first one on a record. -/
theorem head?_perform {c : Client} {task : Task} {call : Call} (hready : c.ready? task = .ok call)
    (net : Network σ) (s : σ) :
    (c.perform net.recorded task ([], s)).2.1.head? = some call.wire := by
  obtain ⟨later, hrun, -, -⟩ := agent.follow_recorded net call.url Agent.maxRedirects call [] s
  rw [perform_eq, hready]
  dsimp only
  rw [hrun]
  rfl

/-- A task whose first call is there is carried out by a run of that call, which is what a record of
the requests shows. -/
theorem perform_of_run {c : Client} {net : Network σ} {task : Task} {call : Call} {s last : σ}
    {steps : List (Exchange σ)} {result : Except CallFault Response}
    (hready : c.ready? task = .ok call)
    (hrun : agent.Run net call.url Agent.maxRedirects call s steps result last) :
    c.perform net.traced task ([], s) = (concluded task.action result, (steps, last)) := by
  rw [perform_eq, hready]
  dsimp only
  rw [hrun.follow_traced, List.nil_append]

/-- Nothing is sent for a task, or what is sent is a run of its first call. -/
theorem perform_traced (c : Client) (net : Network σ) (task : Task) (s : σ) :
    (∃ f, c.ready? task = .error f ∧ c.perform net.traced task ([], s) = (.error f, ([], s))) ∨
    ∃ call steps result last, c.ready? task = .ok call ∧
      agent.Run net call.url Agent.maxRedirects call s steps result last ∧
      c.perform net.traced task ([], s) = (concluded task.action result, (steps, last)) := by
  cases hready : c.ready? task with
  | error f =>
    refine Or.inl ⟨f, rfl, ?_⟩
    rw [perform_eq, hready]
  | ok call =>
    obtain ⟨steps, hrun⟩ := agent.exists_run net call.url Agent.maxRedirects call s
    exact Or.inr ⟨call, steps, _, _, rfl, hrun, perform_of_run hready hrun⟩

end Client

/-! ## Operations -/

/-- The operations of a client. -/
inductive Operation where
  | listNamespaces
  | listObjects (ns : String)
  | getObject (ns key : String) (version : Option String)
  | downloadObject (ns key : String) (version : Option String)
  | uploadObject (ns key : String) (version : Option String) (body : Bytes)
      (mediaType : Option String)
  | deleteObject (ns key : String)
  | listEvents (ns : String)
  | createEvent (ns : String) (request : EventRequest)
  | updateEvent (ns event : String) (request : EventRequest)
  | deleteEvent (ns event : String)
  | listAuditLogs (query : AuditQuery)

namespace Operation

open Client

variable {σ : Type}

/-- The task that an operation carries out. -/
def task : Operation → Task
  | .listNamespaces => .namespaces
  | .listObjects ns => .objects ns
  | .getObject ns key version => .object ns key version
  | .downloadObject ns key version => .object ns key version
  | .uploadObject ns key version body mediaType => .upload ns key version body mediaType
  | .deleteObject ns key => .delete ns key
  | .listEvents ns => .events ns
  | .createEvent ns request => .createEvent ns request
  | .updateEvent ns event request => .updateEvent ns event request
  | .deleteEvent ns event => .deleteEvent ns event
  | .listAuditLogs query => .auditLog query

/-- What a result fails with, if it does, and what is left of the network. -/
def failure {α : Type} (result : Except ClientFault α × σ) : Option ClientFault × σ :=
  match result with
  | (.error f, s) => (some f, s)
  | (.ok _, s) => (none, s)

theorem failure_state {α : Type} (result : Except ClientFault α × σ) :
    (failure result).2 = result.2 := by
  obtain ⟨outcome, s⟩ := result
  cases outcome <;> rfl

theorem failure_of_error {α : Type} {result : Except ClientFault α × σ} {f : ClientFault}
    (h : result.1 = .error f) : (failure result).1 = some f := by
  obtain ⟨outcome, s⟩ := result
  obtain rfl : outcome = .error f := h
  rfl

theorem error_of_failure {α : Type} {result : Except ClientFault α × σ} {f : ClientFault}
    (h : (failure result).1 = some f) : result.1 = .error f := by
  obtain ⟨outcome, s⟩ := result
  cases outcome with
  | error g => exact congrArg Except.error (Option.some.inj h)
  | ok x => exact absurd h (by simp [failure])

/-- What an operation fails with, if it does, and what it leaves of the network. -/
def run (op : Operation) (c : Client) (net : Network σ) (s : σ) : Option ClientFault × σ :=
  match op with
  | .listNamespaces => failure (c.listNamespaces net s)
  | .listObjects ns => failure (c.listObjects net ns s)
  | .getObject ns key version => failure (c.getObject net ns key version s)
  | .downloadObject ns key version => failure (c.downloadObject net ns key version s)
  | .uploadObject ns key version body mediaType =>
    failure (c.uploadObject net ns key version body mediaType s)
  | .deleteObject ns key => failure (c.deleteObject net ns key s)
  | .listEvents ns => failure (c.listEvents net ns s)
  | .createEvent ns request => failure (c.createEvent net ns request s)
  | .updateEvent ns event request => failure (c.updateEvent net ns event request s)
  | .deleteEvent ns event => failure (c.deleteEvent net ns event s)
  | .listAuditLogs query => failure (c.listAuditLogs net query s)

/-- Whether an operation passes on what its task came to: it leaves the network as the task does,
and fails at least where the task fails, with the same fault. -/
structure PassesOn (performed : Except ClientFault Response × σ)
    (done : Option ClientFault × σ) : Prop where
  state : done.2 = performed.2
  fault : ∀ f, performed.1 = .error f → done.1 = some f

theorem PassesOn.of_failure {performed : Except ClientFault Response × σ}
    {done : Option ClientFault × σ} (h : PassesOn performed done) {f : ClientFault}
    (hf : (failure performed).1 = some f) : done.1 = some f :=
  h.fault f (error_of_failure hf)

theorem passesOn_ask {α : Type} (c : Client) (net : Network σ) (codec : Json.Codec α)
    (task : Task) (s : σ) : PassesOn (c.perform net task s) (failure (c.ask net codec task s)) := by
  unfold ask
  cases c.perform net task s with
  | mk result t =>
    cases result with
    | error f => exact ⟨rfl, fun g hg => congrArg some (Except.error.inj hg)⟩
    | ok r =>
      dsimp only
      refine ⟨?_, fun g hg => absurd hg (by simp)⟩
      cases valueOf codec r <;> rfl

theorem passesOn_tell (c : Client) (net : Network σ) (task : Task) (s : σ) :
    PassesOn (c.perform net task s) (failure (c.tell net task s)) := by
  unfold Client.tell
  cases c.perform net task s with
  | mk result t =>
    cases result with
    | error f => exact ⟨rfl, fun g hg => congrArg some (Except.error.inj hg)⟩
    | ok r => exact ⟨rfl, fun g hg => absurd hg (by simp)⟩

/-- What is made of a value has a say only where there is one. -/
theorem PassesOn.andThen {α β : Type} {performed : Except ClientFault Response × σ}
    {asked : Except ClientFault α × σ} {made : Except ClientFault β × σ}
    (make : α → Except ClientFault β)
    (hmade : made = match asked with
      | (.error f, s) => (.error f, s)
      | (.ok x, s) => (make x, s))
    (h : PassesOn performed (failure asked)) : PassesOn performed (failure made) := by
  rw [hmade]
  obtain ⟨result, s⟩ := asked
  cases result with
  | error f => exact h
  | ok x =>
    refine ⟨?_, fun f hf => absurd (h.fault f hf) (by simp [failure])⟩
    rw [← h.state]
    dsimp only
    cases make x <;> rfl

/-- Every operation carries out its task, and passes on what comes of it. -/
theorem passesOn_run (op : Operation) (c : Client) (net : Network σ) (s : σ) :
    PassesOn (c.perform net op.task s) (op.run c net s) := by
  cases op with
  | listNamespaces => exact passesOn_ask c net _ _ s
  | listObjects ns =>
    refine .andThen (fun listing => .ok listing.objects) ?_
      (passesOn_ask c net ObjectListing.layout.codec (.objects ns) s)
    unfold Client.listObjects
    cases c.ask net ObjectListing.layout.codec (.objects ns) s with
    | mk result t => cases result <;> rfl
  | getObject ns key version => exact passesOn_ask c net _ _ s
  | downloadObject ns key version =>
    refine .andThen (fun envelope => (Download.ofEnvelope envelope key).mapError .envelope) ?_
      (passesOn_ask c net ObjectEnvelope.layout.codec (.object ns key version) s)
    unfold Client.downloadObject Client.getObject
    cases c.ask net ObjectEnvelope.layout.codec (.object ns key version) s with
    | mk result t =>
      cases result with
      | error f => rfl
      | ok envelope =>
        dsimp only
        cases Download.ofEnvelope envelope key <;> rfl
  | uploadObject ns key version body mediaType => exact passesOn_tell c net _ s
  | deleteObject ns key => exact passesOn_tell c net _ s
  | listEvents ns => exact passesOn_ask c net _ _ s
  | createEvent ns request => exact passesOn_ask c net _ _ s
  | updateEvent ns event request => exact passesOn_ask c net _ _ s
  | deleteEvent ns event => exact passesOn_tell c net _ s
  | listAuditLogs query => exact passesOn_ask c net _ _ s

/-- The request of the first call is among those of an operation. -/
theorem first_mem_run (op : Operation) {c : Client} {call : Call}
    (hready : c.ready? op.task = .ok call) (net : Network σ) (s : σ) :
    ⟨call.wire, s⟩ ∈ (op.run c net.traced ([], s)).2.1 := by
  rw [(op.passesOn_run c net.traced ([], s)).state]
  rcases perform_traced c net op.task s with ⟨f, hf, -⟩ | ⟨_, steps, _, _, hcall, hrun, htraced⟩
  · exact absurd (hf.symm.trans hready) (by simp)
  · obtain rfl := Except.ok.inj (hcall.symm.trans hready)
    rw [htraced]
    exact hrun.first_mem

/-- The methods that operations use: none asks for a header alone, or for a tunnel. -/
def methods : List Method := [.get, .post, .put, .delete]

theorem method_task_mem (op : Operation) : op.task.method ∈ methods := by
  cases op with
  | uploadObject | updateEvent => exact (by decide : Method.put ∈ methods)
  | createEvent => exact (by decide : Method.post ∈ methods)
  | deleteObject | deleteEvent => exact (by decide : Method.delete ∈ methods)
  | _ => exact (by decide : Method.get ∈ methods)

theorem method_task_ne (op : Operation) {method : Method} (h : method ∉ methods) :
    op.task.method ≠ method :=
  fun heq => h (heq ▸ op.method_task_mem)

end Operation

end RegistryConsole
