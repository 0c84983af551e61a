import RegistryConsole.Proofs.Answers

/-! # Runs of calls

A run of a call is the list of its requests, each with the network as it was before it, and what
the call ends with. What holds of every run is proved over its steps: a request is lost, it ends
the run with its answer, or its answer leads on. -/

namespace RegistryConsole

variable {σ : Type}

/-- A request that goes out, and the network before it. -/
structure Exchange (σ : Type) where
  request : WireRequest
  before : σ

/-- The answer to a request. -/
def Exchange.answer? (net : Network σ) (e : Exchange σ) : Option Response :=
  (net.deliver e.request e.before).1

/-- The network that keeps a record of the requests, each with the network before it. -/
def Network.traced (net : Network σ) : Network (List (Exchange σ) × σ) where
  deliver w s := ((net.deliver w s.2).1, (s.1 ++ [⟨w, s.2⟩], (net.deliver w s.2).2))
  undo := net.undo

theorem Status.not_isFollowed_of_error {status : Status} (h : 400 ≤ status.code) :
    ¬status.IsFollowed := by
  simp only [IsFollowed, List.mem_cons, List.not_mem_nil, or_false]
  omega

/-- An error has a body, unless only a header was asked for. -/
theorem Response.not_isBare_of_error {method : Method} (hmethod : method ≠ .head) {status : Status}
    (h : 400 ≤ status.code) : ¬IsBare method status := by
  rintro (hhead | ⟨-, hsuccess⟩ | hcode | hcode)
  · exact hmethod hhead
  · rw [Status.isSuccess, Bool.and_eq_true, decide_eq_true_eq, decide_eq_true_eq] at hsuccess
    omega
  · omega
  · omega

namespace Agent

/-! ## Steps -/

/-- The call that an answer leads the agent to, if it is one to follow. -/
def next? (agent : Agent) (c : Call) (answer : Response) : Option Call :=
  if agent.follows then c.next? (receive c.method answer) else none

/-- What comes of following a call: its requests, its result, and what is left of the network. -/
inductive Run (agent : Agent) (net : Network σ) (first : Url) :
    (left : Nat) → Call → σ → List (Exchange σ) → Except CallFault Response → σ → Prop
  | lost {left : Nat} {c : Call} {s s' : σ} (hsent : net.deliver c.wire s = (none, s')) :
      Run agent net first left c s [⟨c.wire, s⟩] (.error (.notSent first)) s'
  | ended {left : Nat} {c : Call} {s s' : σ} {answer : Response}
      (hsent : net.deliver c.wire s = (some answer, s')) (hnext : agent.next? c answer = none) :
      Run agent net first left c s [⟨c.wire, s⟩] (.ok (reported net c.method answer)) s'
  | limited {c next : Call} {s s' : σ} {answer : Response}
      (hsent : net.deliver c.wire s = (some answer, s'))
      (hnext : agent.next? c answer = some next) :
      Run agent net first 0 c s [⟨c.wire, s⟩] (.error (.redirects c.url.withoutFragment)) s'
  | barred {left : Nat} {c next : Call} {s s' : σ} {answer : Response}
      (hsent : net.deliver c.wire s = (some answer, s'))
      (hnext : agent.next? c answer = some next) (hhttp : next.url.isHttp = false) :
      Run agent net first (left + 1) c s [⟨c.wire, s⟩] (.error (.badUrl next.url)) s'
  | redirected {left : Nat} {c next : Call} {s s' last : σ} {answer : Response}
      {later : List (Exchange σ)} {result : Except CallFault Response}
      (hsent : net.deliver c.wire s = (some answer, s'))
      (hnext : agent.next? c answer = some next) (hhttp : next.url.isHttp = true)
      (rest : Run agent net first left next s' later result last) :
      Run agent net first (left + 1) c s (⟨c.wire, s⟩ :: later) result last

/-- Following a call is a run. -/
theorem exists_run (agent : Agent) (net : Network σ) (first : Url) (left : Nat) (c : Call)
    (s : σ) :
    ∃ steps, agent.Run net first left c s steps (agent.follow net first left c s).1
      (agent.follow net first left c s).2 := by
  induction left generalizing c s with
  | zero =>
    unfold follow
    cases hsent : net.deliver c.wire s with
    | mk answer s' =>
      cases answer with
      | none => exact ⟨_, .lost hsent⟩
      | some answer =>
        dsimp only
        cases hnext : if agent.follows then c.next? (receive c.method answer) else none with
        | none => exact ⟨_, .ended hsent hnext⟩
        | some next => exact ⟨_, .limited hsent hnext⟩
  | succ left ih =>
    unfold follow
    cases hsent : net.deliver c.wire s with
    | mk answer s' =>
      cases answer with
      | none => exact ⟨_, .lost hsent⟩
      | some answer =>
        dsimp only
        cases hnext : if agent.follows then c.next? (receive c.method answer) else none with
        | none => exact ⟨_, .ended hsent hnext⟩
        | some next =>
          dsimp only
          cases hhttp : next.url.isHttp with
          | false => exact ⟨_, .barred hsent hnext hhttp⟩
          | true =>
            rw [if_pos rfl]
            obtain ⟨later, hrun⟩ := ih next s'
            exact ⟨_, .redirected hsent hnext hhttp hrun⟩

/-- What an agent does with an answer, once it is there. -/
theorem follow_of_sent {agent : Agent} {net : Network σ} {first : Url} {left : Nat} {c : Call}
    {s s' : σ} {answer : Response} (hsent : net.deliver c.wire s = (some answer, s')) :
    agent.follow net first left c s =
      match agent.next? c answer, left with
      | none, _ => (.ok (reported net c.method answer), s')
      | some _, 0 => (.error (.redirects c.url.withoutFragment), s')
      | some next, left + 1 =>
        if next.url.isHttp then agent.follow net first left next s'
        else (.error (.badUrl next.url), s') := by
  cases left with
  | zero =>
    rw [follow, hsent]
    dsimp only [next?]
    cases if agent.follows then c.next? (receive c.method answer) else none <;> rfl
  | succ left =>
    rw [follow, hsent]
    dsimp only [next?]
    cases if agent.follows then c.next? (receive c.method answer) else none <;> rfl

variable {agent : Agent} {net : Network σ} {first : Url} {left : Nat} {c : Call} {s last : σ}
  {steps : List (Exchange σ)} {result : Except CallFault Response}

/-- There is one run of a call, and a record of the requests is the list of its steps. -/
theorem Run.follow_traced (h : agent.Run net first left c s steps result last)
    (before : List (Exchange σ)) :
    agent.follow net.traced first left c (before, s) = (result, (before ++ steps, last)) := by
  have hanswered : ∀ {c : Call} {s s' : σ} {answer : Response} (before : List (Exchange σ)),
      net.deliver c.wire s = (some answer, s') →
      net.traced.deliver c.wire (before, s) = (some answer, (before ++ [⟨c.wire, s⟩], s')) := by
    intro c s s' answer before hsent
    dsimp only [Network.traced]
    rw [hsent]
  induction h generalizing before with
  | lost hsent =>
    unfold follow
    dsimp only [Network.traced]
    rw [hsent]
  | ended hsent hnext =>
    rw [follow_of_sent (hanswered before hsent), hnext]
    rfl
  | limited hsent hnext => rw [follow_of_sent (hanswered before hsent), hnext]
  | barred hsent hnext hhttp =>
    rw [follow_of_sent (hanswered before hsent), hnext]
    dsimp only
    rw [if_neg (by rw [hhttp]; simp)]
  | @redirected left c next s s' last answer later result hsent hnext hhttp _ ih =>
    rw [follow_of_sent (hanswered before hsent), hnext]
    dsimp only
    -- the record goes on after the request of this call
    have hbefore : before ++ ⟨c.wire, s⟩ :: later = before ++ [⟨c.wire, s⟩] ++ later := by
      rw [List.append_assoc, List.singleton_append]
    rw [if_pos hhttp, ih, hbefore]

/-- The first request is that of the call. -/
theorem Run.first_mem (h : agent.Run net first left c s steps result last) :
    ⟨c.wire, s⟩ ∈ steps := by
  cases h with
  | lost | ended | limited | barred | redirected => exact List.mem_cons_self

/-- What the first request makes true of the network and no request makes false, is true of it after
the run. -/
theorem Run.preserves {p : σ → Prop} (h : agent.Run net first left c s steps result last)
    (hstep : ∀ w t, p t → p (net.deliver w t).2) (hfirst : p (net.deliver c.wire s).2) :
    p last := by
  induction h with
  | lost hsent | ended hsent | limited hsent | barred hsent =>
    rw [hsent] at hfirst
    exact hfirst
  | redirected hsent _ _ _ ih =>
    rw [hsent] at hfirst
    exact ih (hstep _ _ hfirst)

/-! ## Answers that end a run -/

theorem location?_receive (c : Call) (method : Method) (answer : Response) :
    c.location? (receive method answer) = c.location? answer := by
  rw [Call.location?, Call.location?, receive_headers]

/-- An answer leads on only as it is assumed of the client. -/
theorem assumedRedirect_of_next? {agent : Agent} {c next : Call} {answer : Response}
    (h : agent.next? c answer = some next) : c.AssumedRedirect answer next := by
  unfold next? at h
  split at h
  · have hleads := Call.assumedRedirect_of_next? h
    -- what is read off the connection has the status and the header that were answered
    have hlocation := hleads.location
    have hfollowed := hleads.followed
    have hplain := hleads.plain
    have hagain := hleads.again
    have hothers := hleads.others
    rw [location?_receive] at hlocation
    rw [receive_status] at hfollowed hplain hagain hothers
    exact ⟨hfollowed, hlocation, hplain, hagain, hleads.secrets, hothers⟩
  · exact absurd h (by simp)

/-- A redirect that points somewhere leads there. -/
theorem exists_next? {agent : Agent} (hfollows : agent.follows = true) {c : Call}
    {answer : Response} {url : Url} (hfollowed : answer.status.IsFollowed)
    (hlocation : c.location? answer = some url) :
    ∃ next, agent.next? c answer = some next ∧ next.url = url := by
  rw [next?, if_pos hfollows]
  exact Call.exists_next? (by rwa [receive_status]) (by rwa [location?_receive])

/-- Any other answer leads nowhere. -/
theorem next?_eq_none {answer : Response} (h : ¬answer.status.IsFollowed) (agent : Agent)
    (c : Call) : agent.next? c answer = none := by
  cases hnext : agent.next? c answer with
  | none => rfl
  | some next => exact absurd (assumedRedirect_of_next? hnext).followed h

/-- No redirect makes a call one for a header alone. -/
theorem method_ne_head_of_next? {agent : Agent} {c next : Call} {answer : Response}
    (hc : c.method ≠ .head) (h : agent.next? c answer = some next) : next.method ≠ .head := by
  rcases (assumedRedirect_of_next? h).method_cases with hsame | hget
  · rwa [hsame]
  · rw [hget]
    decide

/-- Only a call for a header alone has an error read in another way. -/
theorem reported_of_error {method other : Method} (h : method ≠ .head) (hother : other ≠ .head)
    (net : Network σ) {answered : Response} (herror : 400 ≤ answered.status.code) :
    reported net method answered = reported net other answered := by
  rw [reported, reported, receive, receive, if_neg (Response.not_isBare_of_error h herror),
    if_neg (Response.not_isBare_of_error hother herror)]

/-- A run ends with the first of its answers that is an error. -/
theorem Run.result_of_error (h : agent.Run net first left c s steps result last)
    (hc : c.method ≠ .head) {e : Exchange σ} (he : e ∈ steps) {answer : Response}
    (hanswer : e.answer? net = some answer) (herror : 400 ≤ answer.status.code)
    {method : Method} (hmethod : method ≠ .head) : result = .ok (reported net method answer) := by
  have hfinal := Status.not_isFollowed_of_error herror
  -- in every step the request of the call has that call's answer
  induction h with
  | lost hsent =>
    obtain rfl := List.mem_singleton.1 he
    exact absurd (hanswer.symm.trans (congrArg Prod.fst hsent)) (by simp)
  | ended hsent =>
    obtain rfl := List.mem_singleton.1 he
    obtain rfl := Option.some.inj (hanswer.symm.trans (congrArg Prod.fst hsent))
    rw [reported_of_error hc hmethod net herror]
  | limited hsent hnext | barred hsent hnext =>
    obtain rfl := List.mem_singleton.1 he
    obtain rfl := Option.some.inj (hanswer.symm.trans (congrArg Prod.fst hsent))
    exact absurd ((next?_eq_none hfinal ..).symm.trans hnext) (by simp)
  | redirected hsent hnext _ _ ih =>
    rcases List.mem_cons.1 he with rfl | hlater
    · obtain rfl := Option.some.inj (hanswer.symm.trans (congrArg Prod.fst hsent))
      exact absurd ((next?_eq_none hfinal ..).symm.trans hnext) (by simp)
    · exact ih (method_ne_head_of_next? hc hnext) hlater

end Agent

end RegistryConsole
