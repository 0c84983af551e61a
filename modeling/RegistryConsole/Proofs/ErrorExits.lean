import RegistryConsole.Proofs.Codings
import RegistryConsole.Proofs.HttpAnswers

/-! # The error exits of a forwarded call

On its way a forwarded call passes five places where something may be wrong: there may be no token,
the token may not fit into a header, the body may have no text, the call may fail, and its answer
may be none that can be handed on. Only the first and the fourth can ever be. A token has nothing
but visible characters whatever the name of the key is, every value that is read can be written, and
whatever is answered in HTTP can be handed on. -/

namespace RegistryConsole

/-! ## What can be handed on -/

variable {σ : Type} {net : Network σ} {method : Method} {answered : Response}

/-- What the agent reports of an answer is one of HTTP: at most, fields are left out. -/
theorem Response.IsHttp.reported (h : answered.IsHttp) (net : Network σ) (method : Method) :
    (Agent.reported net method answered).IsHttp := by
  refine h.of_fields (Agent.reported_status net method answered) fun f hf => ?_
  unfold Agent.reported Agent.decoded at hf
  split at hf
  · rwa [Agent.receive_headers] at hf
  · rw [← Agent.receive_headers method answered]
    exact Headers.mem_of_mem_without hf

/-- So is what the gateway makes of a report. -/
theorem Response.IsHttp.answer (h : answered.IsHttp) (method : Method) :
    (Gateway.answer method answered).IsHttp := by
  refine h.of_fields (Gateway.answer_status method answered) fun f hf => ?_
  unfold Gateway.answer at hf
  split at hf
  · exact hf
  · exact Headers.mem_of_mem_without hf

/-! ## The exits -/

namespace Gateway

variable {g : Gateway} {now : Int64} {call : ForwardCall} {s : σ}

/-- A forwarded call comes to an answer, unless there is no token or the call itself fails. -/
theorem forward_cases (g : Gateway) (net : Network σ) (now : Int64) (call : ForwardCall) (s : σ) :
    (∃ r, (g.forward net now call s).1 = .ok r) ∨
      (∃ f, g.issuer.issue now = .error f ∧
        g.forward net now call s = (.error (.signing f), s)) ∨
      ∃ f, (g.forward net now call s).1 = .error (.registry f) := by
  rw [forward_eq]
  cases hfirst : g.firstCall? now call with
  | error f =>
    rcases firstCall?_error hfirst with ⟨i, hissue, rfl⟩ | rfl | ⟨u, rfl⟩
    · exact Or.inr (Or.inl ⟨i, hissue, rfl⟩)
    · exact Or.inr (Or.inr ⟨_, rfl⟩)
    · exact Or.inr (Or.inr ⟨_, rfl⟩)
  | ok c =>
    dsimp only
    cases ((agentFor call.method).follow net c.url Agent.maxRedirects c s).1 with
    | error f => exact Or.inr (Or.inr ⟨f, rfl⟩)
    | ok r => exact Or.inl ⟨_, rfl⟩

/-- Whether forwarding a call at the time `now` can go wrong in two ways only. -/
structure HasTwoFaults (g : Gateway) (net : Network σ) (now : Int64) (call : ForwardCall) (s : σ) :
    Prop where
  /-- It comes to an answer of HTTP, unless there is no token or the call fails. -/
  exits : (∃ r, (g.forward net now call s).1 = .ok r ∧ r.IsHttp) ∨
    (∃ f, g.issuer.issue now = .error f ∧ g.forward net now call s = (.error (.signing f), s)) ∨
    ∃ f, (g.forward net now call s).1 = .error (.registry f)
  /-- Every token may stand in a header. -/
  token : ∀ token, g.issuer.issue now = .ok token → HeaderField.isValue (bearer token) = true
  /-- Every body that goes on can be written. -/
  body : ∀ body, ForwardBody.classify call.method call.body = some body →
    body.written? = some body.bytes
  /-- What is written for a JSON value can be read again. -/
  structured : ∀ value, ForwardBody.classify call.method call.body = some (.structured value) →
    Json.Document.ofBytes? value.bytes = .ok value.document
  /-- Every answer can be handed on, whichever request it answers. -/
  answered : ∀ asked answered, Response.IsHttp answered →
    let reported := Agent.reported net asked answered
    answer? call.method reported = .ok (answer call.method reported) ∧
      (answer call.method reported).IsHttp

/-- Forwarding has two error exits: without a token nothing is sent, and otherwise only the call
itself can fail. -/
theorem forward_hasTwoFaults (hnet : net.SpeaksHttp) (g : Gateway) (now : Int64)
    (call : ForwardCall) (s : σ) : g.HasTwoFaults net now call s where
  exits := by
    rcases forward_cases g net now call s with ⟨r, hr⟩ | hsigning | hregistry
    · obtain ⟨last, before, answered, hsent, rfl⟩ := forward_ok (Prod.ext hr rfl)
      exact Or.inl ⟨_, hr, ((hnet _ _ _ _ hsent).reported net last.method).answer call.method⟩
    · exact Or.inr (Or.inl hsigning)
    · exact Or.inr (Or.inr hregistry)
  token := fun _ htoken => isValue_bearer htoken
  body := fun _ hbody => ForwardBody.written?_of_classify hbody
  structured := fun _ hvalue =>
    Json.document_of_ofBytes? (ForwardBody.of_classify_structured hvalue).2.2
  answered := fun asked _ hanswered =>
    ⟨answer?_eq .., (hanswered.reported net asked).answer call.method⟩

/-- So it is with a registry that fails and says so in two fields of one name. -/
theorem forward_hasTwoFaults_unavailable :
    let answered : Response :=
      ⟨⟨503⟩, [⟨"set-cookie", Utf8.ofString "a=1", false⟩, ⟨"set-cookie", [], false⟩],
        .streamed (Utf8.ofString "busy") false⟩
    let net : Network Unit := .standing answered fun _ _ => none
    net.SpeaksHttp ∧ exampleGateway.HasTwoFaults net 0 examplePage () := by
  intro answered net
  have hnet : net.SpeaksHttp := by
    intro w s r t hsent
    obtain rfl : answered = r := Option.some.inj (congrArg Prod.fst hsent)
    decide
  exact ⟨hnet, forward_hasTwoFaults hnet exampleGateway 0 examplePage ()⟩

end Gateway

end RegistryConsole
