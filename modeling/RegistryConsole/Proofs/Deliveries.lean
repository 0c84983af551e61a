import RegistryConsole.Proofs.Objects
import RegistryConsole.Proofs.Operations

/-! # Uploads of the client

An upload is reported as done when the last of its answers says so. The requests before that are
uploads of the same content, until an answer says to see elsewhere (303): what follows such an
answer only asks for something, and its success is not that of the upload. -/

namespace RegistryConsole

variable {σ : Type}

/-- Whether a request uploads a content, as it is. -/
def WireRequest.Uploads (w : WireRequest) (content : Bytes) : Prop :=
  w.method = .put ∧ w.body = content

/-- Whether a request only asks for something. -/
def WireRequest.OnlyAsks (w : WireRequest) : Prop :=
  w.method = .get ∧ w.body = []

theorem WireRequest.OnlyAsks.not_uploads {w : WireRequest} (h : w.OnlyAsks) (content : Bytes) :
    ¬w.Uploads content := by
  rintro ⟨hput, -⟩
  exact absurd (h.1.symm.trans hput) (by decide)

/-- Whether the answer to a request says to see elsewhere. -/
def Exchange.SeesOther (net : Network σ) (e : Exchange σ) : Prop :=
  ∃ answer, e.answer? net = some answer ∧ answer.status.code = 303

/-- Whether the request of `e` is what becomes of an upload after the requests `before`: the same
upload, unless one of their answers said to see elsewhere. -/
structure Exchange.Continues (net : Network σ) (content : Bytes) (before : List (Exchange σ))
    (e : Exchange σ) : Prop where
  uploads : (∀ p ∈ before, ¬p.SeesOther net) → e.request.Uploads content
  onlyAsks : (∃ p ∈ before, p.SeesOther net) → e.request.OnlyAsks

/-- The first request is the upload. -/
theorem Exchange.continues_nil {net : Network σ} {content : Bytes} {e : Exchange σ}
    (h : e.request.Uploads content) : Continues net content [] e :=
  ⟨fun _ => h, fun ⟨_, hp, _⟩ => absurd hp List.not_mem_nil⟩

namespace Call

/-- Whether a call uploads a content. -/
def Uploads (c : Call) (content : Bytes) : Prop :=
  c.method = .put ∧ c.body = some content

/-- Whether a call only asks for something. -/
def OnlyAsks (c : Call) : Prop :=
  c.method = .get ∧ c.body = none

theorem Uploads.wire {c : Call} {content : Bytes} (h : c.Uploads content) :
    c.wire.Uploads content :=
  ⟨h.1, congrArg (Option.getD · []) h.2⟩

theorem OnlyAsks.wire {c : Call} (h : c.OnlyAsks) : c.wire.OnlyAsks :=
  ⟨h.1, congrArg (Option.getD · []) h.2⟩

/-- A call that only asks is redirected to one that does so too. -/
theorem OnlyAsks.redirected {c next : Call} {answer : Response} (hc : c.OnlyAsks)
    (h : c.AssumedRedirect answer next) : next.OnlyAsks := by
  have hhead : c.method ≠ .head := by rw [hc.1]; decide
  by_cases hplain : c.BecomesPlain answer.status
  · obtain ⟨hmethod, hbody⟩ := h.plain hplain
    rw [if_neg hhead] at hmethod
    exact ⟨hmethod, hbody⟩
  · obtain ⟨hmethod, hbody⟩ := h.again hplain
    exact ⟨hmethod.trans hc.1, hbody.trans hc.2⟩

/-- An upload is redirected to one of the same content, except that to see elsewhere is to ask. -/
theorem Uploads.redirected {c next : Call} {answer : Response} {content : Bytes}
    (hc : c.Uploads content) (h : c.AssumedRedirect answer next) :
    if answer.status.code = 303 then next.OnlyAsks else next.Uploads content := by
  have hpost : c.method ≠ .post := by rw [hc.1]; decide
  have hhead : c.method ≠ .head := by rw [hc.1]; decide
  split
  · next hother =>
    obtain ⟨hmethod, hbody⟩ := h.plain ((becomesPlain_iff hpost answer.status).2 hother)
    rw [if_neg hhead] at hmethod
    exact ⟨hmethod, hbody⟩
  · next hother =>
    obtain ⟨hmethod, hbody⟩ := h.again (mt (becomesPlain_iff hpost answer.status).1 hother)
    exact ⟨hmethod.trans hc.1, hbody.trans hc.2⟩

end Call

namespace Agent

variable {agent : Agent} {net : Network σ} {first : Url} {left : Nat} {c next : Call}
  {answer : Response} {s last : σ} {steps : List (Exchange σ)} {content : Bytes}
  {result : Except CallFault Response}

/-! ## Whole runs -/

/-- After a call that only asks, nothing is uploaded. -/
theorem Run.onlyAsks (h : agent.Run net first left c s steps result last) (hc : c.OnlyAsks) :
    ∀ e ∈ steps, e.request.OnlyAsks := by
  induction h with
  | lost | ended | limited | barred =>
    intro e he
    rw [List.mem_singleton.1 he]
    exact hc.wire
  | redirected _ hnext _ _ ih =>
    intro e he
    rcases List.mem_cons.1 he with rfl | he
    · exact hc.wire
    · exact ih (hc.redirected (assumedRedirect_of_next? hnext)) e he

/-- The requests of an upload are uploads until an answer says to see elsewhere, and only ask after
that. -/
theorem Run.continues (h : agent.Run net first left c s steps result last)
    (hc : c.Uploads content) {before later : List (Exchange σ)} {e : Exchange σ}
    (hsplit : steps = before ++ e :: later) : e.Continues net content before := by
  induction h generalizing before with
  | lost | ended | limited | barred =>
    obtain ⟨rfl, hcons⟩ := (List.singleton_eq_append_iff.1 hsplit).resolve_right (by simp)
    rw [(List.cons.inj hcons).1]
    exact Exchange.continues_nil hc.wire
  | @redirected left c next s s' last answer steps result hsent hnext _ hrest ih =>
    cases before with
    | nil =>
      rw [← (List.cons.inj hsplit).1]
      exact Exchange.continues_nil hc.wire
    | cons p before =>
      obtain ⟨rfl, rfl⟩ := List.cons.inj hsplit
      have hanswer : Exchange.answer? net ⟨c.wire, s⟩ = some answer := congrArg Prod.fst hsent
      -- what comes later depends on the answer to the first request
      have hstep := hc.redirected (assumedRedirect_of_next? hnext)
      by_cases hother : answer.status.code = 303
      · rw [if_pos hother] at hstep
        have hasks := hrest.onlyAsks hstep e (List.mem_append_right _ List.mem_cons_self)
        have hsees : Exchange.SeesOther net ⟨c.wire, s⟩ := ⟨answer, hanswer, hother⟩
        exact ⟨fun hno => absurd hsees (hno _ List.mem_cons_self), fun _ => hasks⟩
      · rw [if_neg hother] at hstep
        have hnot : ¬Exchange.SeesOther net ⟨c.wire, s⟩ := by
          rintro ⟨other, hsame, hcode⟩
          rw [← Option.some.inj (hanswer.symm.trans hsame)] at hcode
          exact hother hcode
        have hrest := ih hstep rfl
        refine ⟨fun hno => hrest.uploads fun p hp => hno p (List.mem_cons_of_mem _ hp), ?_⟩
        rintro ⟨p, hp, hsees⟩
        rcases List.mem_cons.1 hp with rfl | hp
        · exact absurd hsees hnot
        · exact hrest.onlyAsks ⟨p, hp, hsees⟩

/-- A run that ends with an answer ends with the one to its last request. -/
theorem Run.exists_last {r : Response} (h : agent.Run net first left c s steps (.ok r) last) :
    ∃ before e answer, steps = before ++ [e] ∧ e.answer? net = some answer ∧
      r.status = answer.status := by
  generalize hresult : Except.ok r = result at h
  induction h with
  | lost => exact absurd hresult (by simp)
  | @ended _ c s _ answer hsent =>
    rw [Except.ok.inj hresult, reported_status]
    exact ⟨[], ⟨c.wire, s⟩, answer, rfl, congrArg Prod.fst hsent, rfl⟩
  | limited => exact absurd hresult (by simp)
  | barred => exact absurd hresult (by simp)
  | @redirected _ c _ s _ _ _ _ _ _ _ _ _ ih =>
    obtain ⟨before, e, answer, rfl, hanswer, hstatus⟩ := ih hresult
    exact ⟨⟨c.wire, s⟩ :: before, e, answer, rfl, hanswer, hstatus⟩

end Agent

namespace Client

/-- What went out for an upload that is reported as done: `last`, and `before` it the others. -/
structure ReportedDone (net : Network σ) (content : Bytes) (before : List (Exchange σ))
    (last : Exchange σ) : Prop where
  /-- The last answer says that all went well. -/
  succeeded : ∃ answer, last.answer? net = some answer ∧ answer.status.isSuccess = true
  /-- What was answered is the upload, unless an answer before said to see elsewhere. -/
  uploads_iff : last.request.Uploads content ↔ ∀ e ∈ before, ¬e.SeesOther net
  /-- Otherwise it is a request without a content. -/
  asks : (∃ e ∈ before, e.SeesOther net) → last.request.OnlyAsks

/-- An answer is taken for that of a task only if it says that all went well. -/
theorem ok_of_concluded {action : String} {result : Except CallFault Response} {r : Response}
    (h : concluded action result = .ok r) : result = .ok r ∧ r.status.isSuccess = true := by
  unfold concluded at h
  split at h
  · exact absurd h (by simp)
  · split at h
    · next hsuccess =>
      obtain rfl := Except.ok.inj h
      exact ⟨rfl, hsuccess⟩
    · exact absurd h (by simp)

/-- What is told went well if the task did. -/
theorem perform_of_tell {c : Client} {net : Network σ} {task : Task} {s : σ}
    (h : (c.tell net task s).1 = .ok ()) :
    ∃ r, c.perform net task s = (.ok r, (c.tell net task s).2) := by
  unfold tell at h ⊢
  cases hperformed : c.perform net task s with
  | mk result t =>
    rw [hperformed] at h
    cases result with
    | error f => exact absurd h (by simp)
    | ok r => exact ⟨r, rfl⟩

/-- The last answer to a task that goes well says so. -/
theorem exists_last_of_perform {c : Client} {net : Network σ} {task : Task} {s last : σ}
    {steps : List (Exchange σ)} {r : Response}
    (h : c.perform net.traced task ([], s) = (.ok r, (steps, last))) :
    ∃ before e answer, steps = before ++ [e] ∧ e.answer? net = some answer ∧
      answer.status.isSuccess = true := by
  rcases perform_traced c net task s with
    ⟨f, -, hunsent⟩ | ⟨call, steps', result, t, -, hrun, htraced⟩
  · exact absurd (congrArg Prod.fst (hunsent.symm.trans h)) (by simp)
  · obtain ⟨hresult, hstate⟩ := Prod.mk.inj (htraced.symm.trans h)
    obtain ⟨rfl, -⟩ := Prod.mk.inj hstate
    obtain ⟨rfl, hsuccess⟩ := ok_of_concluded hresult
    obtain ⟨before, e, answer, hsplit, hanswer, hstatus⟩ := hrun.exists_last
    exact ⟨before, e, answer, hsplit, hanswer, hstatus ▸ hsuccess⟩

/-- What is told went well if a run of it ended so. -/
theorem tell_of_run {c : Client} {net : Network σ} {task : Task} {call : Call} {s last : σ}
    {steps : List (Exchange σ)} {r : Response} (hready : c.ready? task = .ok call)
    (hrun : agent.Run net call.url Agent.maxRedirects call s steps (.ok r) last)
    (hsuccess : r.status.isSuccess = true) :
    c.tell net.traced task ([], s) = (.ok (), (steps, last)) := by
  rw [tell, perform_of_run hready hrun, concluded, if_pos hsuccess]

/-- Every request of an upload is what becomes of the upload after those before it. -/
theorem continues_of_uploadObject {c : Client} {net : Network σ} {ns key : String}
    {version : Option String} {content : Bytes} {mediaType : Option String} {s : σ}
    {before later : List (Exchange σ)} {e : Exchange σ}
    (hsplit : (c.uploadObject net.traced ns key version content mediaType ([], s)).2.1 =
      before ++ e :: later) : e.Continues net content before := by
  have hstate : (c.uploadObject net.traced ns key version content mediaType ([], s)).2 =
      (c.perform net.traced (.upload ns key version content mediaType) ([], s)).2 :=
    (ObjectCall.upload version content mediaType).run_eq c net.traced ns key ([], s)
  rw [hstate] at hsplit
  rcases perform_traced c net (.upload ns key version content mediaType) s with
    ⟨f, -, hunsent⟩ | ⟨call, steps, result, t, hready, hrun, htraced⟩
  · rw [hunsent] at hsplit
    exact absurd hsplit (by simp)
  · rw [htraced] at hsplit
    obtain ⟨hmethod, hbody, -⟩ := ready?_ok hready
    exact hrun.continues ⟨hmethod, hbody⟩ hsplit

/-- The last request of an upload that is reported as done was answered with success. It was the
upload itself, with the whole content, exactly if no answer before it said to see elsewhere; every
other redirect is followed with the same method and content. -/
theorem uploadObject_delivered_iff (c : Client) (net : Network σ) (ns key : String)
    (version : Option String) (content : Bytes) (mediaType : Option String) (s : σ)
    (hdone : (c.uploadObject net.traced ns key version content mediaType ([], s)).1 = .ok ()) :
    ∃ before last,
      (c.uploadObject net.traced ns key version content mediaType ([], s)).2.1 =
        before ++ [last] ∧
      ReportedDone net content before last := by
  obtain ⟨r, hperform⟩ := perform_of_tell hdone
  obtain ⟨before, last, answer, hsplit, hanswer, hsuccess⟩ := exists_last_of_perform hperform
  have hlast := continues_of_uploadObject hsplit
  refine ⟨before, last, hsplit, ⟨answer, hanswer, hsuccess⟩, ⟨?_, hlast.uploads⟩, hlast.onlyAsks⟩
  intro huploaded e he hsees
  exact (hlast.onlyAsks ⟨e, he, hsees⟩).not_uploads content huploaded

/-- Servers that answer once with a redirect to a store, and then with success. -/
def exampleServers (status : Status) : Backend :=
  ⟨fun _ => true,
    [some ⟨status, [⟨"location", Utf8.ofString "http://store.example/data", false⟩], .empty⟩],
    ⟨.ok, [], .empty⟩, []⟩

/-- An upload to these servers. -/
def exampleUpload (status : Status) :
    Except ClientFault Unit × List (Exchange Backend) × Backend :=
  (Client.of "http://ui.example").uploadObject (Backend.network fun _ b => some b).traced
    "ns" "key" none [1, 2] none ([], exampleServers status)

/-- It is reported as done after two requests. -/
theorem exampleUpload_eq {status : Status} (hfollowed : status.IsFollowed) :
    ∃ (first second : Exchange Backend) (left : Backend),
      exampleUpload status = (.ok (), ([first, second], left)) ∧
      second.Continues (Backend.network fun _ b => some b) [1, 2] [first] ∧
      ∃ answer, first.answer? (Backend.network fun _ b => some b) = some answer ∧
        answer.status = status := by
  have htext : (Client.of "http://ui.example").base ++ "/" ++ trimLead (objectPath "ns" "key") =
      "http://ui.example/api/object-registry/ns/key" := by decide
  obtain ⟨hcallable, hsent⟩ := Url.isCallable_of_user_eq (u := ⟨"http".toList, [], none,
    some "ui.example".toList, none, .segments ["api".toList, "object-registry".toList,
      "ns".toList, "key".toList], none, none⟩) (by decide) (by decide) (by decide) (by decide)
  obtain ⟨call, hready, hurl⟩ := exists_ready? (c := Client.of "http://ui.example")
    (.upload "ns" "key" none [1, 2] none) (by rw [urlWith, Task.upload, url, htext]; rfl) hcallable
    (by decide)
  let answer : Response :=
    ⟨status, [⟨"location", Utf8.ofString "http://store.example/data", false⟩], .empty⟩
  let done : Response := ⟨.ok, [], .empty⟩
  have hlocation : call.location? answer = some ⟨"http".toList, [], none,
      some "store.example".toList, none, .segments ["data".toList], none, none⟩ := by
    rw [Call.location?, hurl, hsent]
    rfl
  obtain ⟨next, hnext, hnexturl⟩ :=
    Agent.exists_next? (rfl : agent.follows = true) hfollowed hlocation
  have hlast : agent.next? next done = none :=
    Agent.next?_eq_none (by decide : ¬Status.ok.IsFollowed) agent next
  let sent : Backend := ⟨fun _ => true, [], done, [call.wire]⟩
  have hfirst : (Backend.network fun _ b => some b).deliver call.wire (exampleServers status) =
      (some answer, sent) := rfl
  have hsecond : (Backend.network fun _ b => some b).deliver next.wire sent =
      (some done, { sent with received := [call.wire, next.wire] }) := rfl
  have hrun : agent.Run (Backend.network fun _ b => some b) call.url Agent.maxRedirects call
      (exampleServers status) [⟨call.wire, exampleServers status⟩, ⟨next.wire, sent⟩]
      (.ok (Agent.reported (Backend.network fun _ b => some b) next.method done))
      { sent with received := [call.wire, next.wire] } :=
    .redirected hfirst hnext (by rw [hnexturl]; rfl) (.ended hsecond hlast)
  have hsuccess : (Agent.reported (Backend.network fun _ b => some b) next.method
      done).status.isSuccess = true := by
    rw [Agent.reported_status]
    rfl
  have hdone : exampleUpload status = (Client.of "http://ui.example").tell
    (Backend.network fun _ b => some b).traced (.upload "ns" "key" none [1, 2] none)
    ([], exampleServers status) := rfl
  rw [tell_of_run hready hrun hsuccess] at hdone
  obtain ⟨hmethod, hbody, -⟩ := ready?_ok hready
  have hcontinues : Exchange.Continues (Backend.network fun _ b => some b) [1, 2]
      [⟨call.wire, exampleServers status⟩] ⟨next.wire, sent⟩ :=
    hrun.continues ⟨hmethod, hbody⟩ rfl
  exact ⟨_, _, _, hdone, hcontinues, answer, rfl, rfl⟩

/-- An upload whose answer is a temporary redirect (307) reaches the store with its content. -/
theorem uploadObject_delivered_iff_redirect :
    (exampleUpload ⟨307⟩).1 = .ok () ∧ ∃ before last : Exchange Backend,
      (exampleUpload ⟨307⟩).2.1 = [before, last] ∧
      ReportedDone (Backend.network fun _ b => some b) [1, 2] [before] last ∧
      last.request.Uploads [1, 2] := by
  obtain ⟨first, second, left, hdone, -, answer, hanswer, hstatus⟩ :=
    exampleUpload_eq (by decide : Status.IsFollowed ⟨307⟩)
  have hok : (exampleUpload ⟨307⟩).1 = .ok () := congrArg Prod.fst hdone
  obtain ⟨before, last, hsplit, hreported⟩ := uploadObject_delivered_iff
    (Client.of "http://ui.example") (Backend.network fun _ b => some b) "ns" "key" none [1, 2] none
    (exampleServers ⟨307⟩) hok
  have hsent : (exampleUpload ⟨307⟩).2.1 = [first, second] := by rw [hdone]
  rw [exampleUpload] at hdone
  rw [hdone] at hsplit
  have hsame : [first] ++ [second] = before ++ [last] := hsplit
  obtain ⟨rfl, hlast⟩ := List.append_inj' hsame rfl
  obtain rfl := List.singleton_inj.1 hlast
  refine ⟨hok, first, second, hsent, hreported, hreported.uploads_iff.2 ?_⟩
  rintro e he ⟨other, hother, hcode⟩
  obtain rfl := List.mem_singleton.1 he
  rw [Option.some.inj (hother.symm.trans hanswer), hstatus] at hcode
  exact absurd hcode (by decide)

/-- An upload whose answer says to see elsewhere (303) is reported as done, though the last request
is not the upload but one without a content. -/
theorem uploadObject_undelivered_of_see_other :
    (exampleUpload ⟨303⟩).1 = .ok () ∧ ∃ before last : Exchange Backend,
      (exampleUpload ⟨303⟩).2.1 = [before, last] ∧ last.request.OnlyAsks ∧
      ¬last.request.Uploads [1, 2] := by
  obtain ⟨first, second, left, hdone, hcontinues, answer, hanswer, hstatus⟩ :=
    exampleUpload_eq (by decide : Status.IsFollowed ⟨303⟩)
  have hasks := hcontinues.onlyAsks
    ⟨first, List.mem_singleton_self first, answer, hanswer, congrArg Status.code hstatus⟩
  rw [hdone]
  exact ⟨rfl, first, second, rfl, hasks, hasks.not_uploads [1, 2]⟩

end Client

end RegistryConsole
