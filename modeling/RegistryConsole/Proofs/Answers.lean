import RegistryConsole.Proofs.Forwarding
import RegistryConsole.Proofs.Headers

/-! # What comes back of a forwarded call

An answer is read off the connection, the agent undoes the coding of its body, and the gateway
takes out what concerns only the connection to the registry. Only the redirect of an upload is
spared the last step. -/

namespace RegistryConsole

namespace Agent

variable {σ : Type} {method : Method}

/-- An answer as the agent reports it to whoever made the call. -/
def reported (net : Network σ) (method : Method) (answered : Response) : Response :=
  decoded net.undo (receive method answered)

@[simp] theorem receive_headers (method : Method) (r : Response) :
    (receive method r).headers = r.headers := by
  unfold receive
  split <;> rfl

@[simp] theorem reported_status (net : Network σ) (method : Method) (answered : Response) :
    (reported net method answered).status = answered.status := by
  rw [reported, decoded_status, receive_status]

/-- Some answers have no body, whatever was meant to be one. -/
theorem receive_body_of_bare {r : Response} (h : Response.IsBare method r.status) :
    (receive method r).body = .streamed [] true := by
  rw [receive, if_pos h]

/-- All others are read as they come, up to where they break off. -/
theorem receive_body {r : Response} (h : ¬Response.IsBare method r.status) :
    (receive method r).body = .streamed r.body.received r.body.whole?.isSome := by
  rw [receive, if_neg h]

/-- Nothing is undone if the first coding that is named is none that is asked for. -/
theorem reported_eq_receive {net : Network σ} {answered : Response}
    (h : ∀ v ∈ answered.headers.first? "content-encoding", Coding.ofName? v = none) :
    reported net method answered = receive method answered := by
  have hnone : (answered.headers.first? "content-encoding").bind Coding.ofName? = none := by
    cases hfirst : answered.headers.first? "content-encoding" with
    | none => rfl
    | some v => exact h v hfirst
  rw [reported, decoded, receive_headers, hnone]

end Agent

namespace Gateway

variable {σ : Type} {method : Method} {g : Gateway} {now : Int64} {call : ForwardCall}

/-- Whether `r` is the answer `reported` without what concerns only the connection. -/
structure IsRelayed (reported r : Response) : Prop where
  status : r.status = reported.status
  body : r.body = reported.body
  /-- No name gets values that it did not have, and none loses any. -/
  kept : ∀ n, n ∉ responseOnly → r.headers.values n = reported.headers.values n
  dropped : ∀ n ∈ responseOnly, r.headers.values n = []

/-- Every answer is relayed, unless it is the redirect of an upload. -/
theorem isRelayed_answer {r : Response} (h : ¬(method = .put ∧ r.status.isRedirection = true)) :
    IsRelayed r (answer method r) := by
  rw [answer, if_neg h]
  constructor
  · rfl
  · rfl
  · intro n hn
    rw [relayed, Headers.values_without, if_neg hn]
  · intro n hn
    rw [relayed, Headers.values_without, if_pos hn]

/-- The redirect of an upload is handed back as the agent reports it. -/
theorem answer_of_redirect {r : Response} (h : r.status.isRedirection = true) :
    answer .put r = r :=
  if_pos ⟨rfl, h⟩

/-- What comes back is relayed from the last answer that came over the network, unless that is the
redirect of an upload. -/
theorem exists_isRelayed_of_forward {net : Network σ} {s s' : σ} {r : Response}
    (h : g.forward net now call s = (.ok r, s'))
    (hrelayed : ¬(call.method = .put ∧ r.status.isRedirection = true)) :
    ∃ (last : Call) (t : σ) (answered : Response),
      net.deliver last.wire t = (some answered, s') ∧
      IsRelayed (Agent.reported net last.method answered) r := by
  obtain ⟨last, t, answered, hsent, rfl⟩ := forward_ok h
  refine ⟨last, t, answered, hsent, isRelayed_answer ?_⟩
  rwa [answer_status] at hrelayed

end Gateway

end RegistryConsole
