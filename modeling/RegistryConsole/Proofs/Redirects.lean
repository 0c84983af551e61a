import Mathlib.Data.List.Chain
import RegistryConsole.Http.Agent
import RegistryConsole.Proofs.Headers

/-! # Chains of redirects

The requests of one call form a chain: the first is that of the call, and each later one is that of
the call that an answer to the one before leads to. The chain is read off a network that keeps a
record. Keeping it changes neither the result nor what the network does. What one redirect does is
what is assumed of the client, and nothing else about redirects is made use of. -/

namespace RegistryConsole

variable {σ : Type}

/-- The network that keeps a record of the requests that go out, in their order. A request whose
connection fails is recorded as well. -/
def Network.recorded (net : Network σ) : Network (List WireRequest × σ) where
  deliver w s := ((net.deliver w s.2).1, (s.1 ++ [w], (net.deliver w s.2).2))
  undo := net.undo

/-- Whether servers that were `start` have received what a record says, so far as it reached
them. -/
structure Backend.IsAfter (start : Backend) (state : List WireRequest × Backend) : Prop where
  reaches : state.2.reaches = start.reaches
  received : state.2.received = start.received ++ state.1.filter fun w => start.reaches w.origin

/-- Record and servers agree after every request. -/
theorem Backend.isAfter_deliver {start : Backend} (undo : Coding → Bytes → Option Bytes)
    (w : WireRequest) (state : List WireRequest × Backend) (h : start.IsAfter state) :
    start.IsAfter ((network undo).recorded.deliver w state).2 := by
  dsimp only [Network.recorded, network]
  cases hw : start.reaches w.origin with
  | false =>
    rw [deliver_of_not_reaches (by rw [h.reaches, hw])]
    refine ⟨h.reaches, ?_⟩
    rw [h.received, List.filter_append]
    simp [hw]
  | true =>
    unfold deliver
    rw [h.reaches, if_pos hw]
    dsimp only
    split
    · exact ⟨rfl, by simp [h.received, hw]⟩
    · exact ⟨rfl, by simp [h.received, hw]⟩

/-- Whether some answer to one call leads to the other. -/
def Call.LeadsTo (c next : Call) : Prop :=
  ∃ r : Response, c.AssumedRedirect r next

/-! ## What a redirect changes -/

namespace Call

variable {c next : Call} {r : Response}

/-- The header for another URL differs only in the secrets and in what led there. -/
theorem values_headersFor (c : Call) (url : Url) {n : String} (hn : n ≠ "referer") :
    (c.headersFor url).values n =
      if url.origin ≠ c.url.origin ∧ n ∈ secretFields then [] else c.headers.values n := by
  have hkept : (if url.origin = c.url.origin then c.headers
      else c.headers.without secretFields).values n =
      if url.origin ≠ c.url.origin ∧ n ∈ secretFields then [] else c.headers.values n := by
    by_cases horigin : url.origin = c.url.origin
    · rw [if_pos horigin, if_neg fun h => h.1 horigin]
    · simp only [horigin, if_false, ne_eq, not_false_eq_true, true_and, Headers.values_without]
  unfold headersFor
  dsimp only
  split
  · exact hkept
  · rw [Headers.values_put_of_ne hn, hkept]

/-- An answer leads somewhere only if its status is followed, and to where it points. -/
theorem next?_eq_some (h : c.next? r = some next) :
    ∃ again, again = (if c.BecomesPlain r.status then
        c.withoutBody (if c.method = .head then .head else .get) else c) ∧
      r.status.IsFollowed ∧ c.location? r = some next.url ∧
      next = { again with url := next.url, headers := again.headersFor next.url } := by
  unfold next? at h
  split at h
  · next again url hagain hurl =>
    obtain rfl := Option.some.inj h
    unfold redirected? at hagain
    split at hagain
    · next hfollowed => exact ⟨again, (Option.some.inj hagain).symm, hfollowed, hurl, rfl⟩
    · exact absurd hagain (by simp)
  · exact absurd h (by simp)

/-- Redirects are followed as it is assumed of the client. -/
theorem assumedRedirect_of_next? (h : c.next? r = some next) : c.AssumedRedirect r next := by
  obtain ⟨again, hagain, hfollowed, hlocation, hnext⟩ := next?_eq_some h
  have hheaders : next.headers = again.headersFor next.url := by rw [hnext]
  have hurl : again.url = c.url := by
    rw [hagain]
    split <;> rfl
  -- what is left out with a body does not include a secret
  have hsame : ∀ n, (c.BecomesPlain r.status → n ∉ bodyFields) →
      again.headers.values n = c.headers.values n := by
    intro n hn
    rw [hagain]
    split
    · next hplain => rw [withoutBody, Headers.values_without, if_neg (hn hplain)]
    · rfl
  refine ⟨hfollowed, hlocation, ?_, ?_, ?_, ?_⟩
  · intro hplain
    rw [hnext, hagain, if_pos hplain]
    exact ⟨rfl, rfl⟩
  · intro hplain
    rw [hnext, hagain, if_neg hplain]
    exact ⟨rfl, rfl⟩
  · intro n hn
    have hapart : n ≠ "referer" ∧ n ∉ bodyFields := by
      revert n
      decide
    rw [hheaders, values_headersFor again next.url hapart.1, hurl, hsame n fun _ => hapart.2]
    by_cases horigin : next.url.origin = c.url.origin
    · rw [if_neg fun h => h.1 horigin, if_pos horigin]
    · rw [if_pos ⟨horigin, hn⟩, if_neg horigin]
  · intro n hn href hbody
    rw [hheaders, values_headersFor again next.url href, if_neg fun h => hn h.2, hsame n hbody]

/-- An answer whose status is not followed leads nowhere. -/
theorem next?_eq_none (h : ¬r.status.IsFollowed) (c : Call) : c.next? r = none := by
  cases hnext : c.next? r with
  | none => rfl
  | some next => exact absurd (assumedRedirect_of_next? hnext).followed h

/-- An answer whose status is followed leads to where it points. -/
theorem exists_next? {url : Url} (hfollowed : r.status.IsFollowed)
    (hlocation : c.location? r = some url) : ∃ next, c.next? r = some next ∧ next.url = url := by
  rw [next?, redirected?, if_pos hfollowed, hlocation]
  exact ⟨_, rfl, rfl⟩

/-- Only a POST is made a plain request by other statuses than 303. -/
theorem becomesPlain_iff (h : c.method ≠ .post) (status : Status) :
    c.BecomesPlain status ↔ status.code = 303 :=
  or_iff_left fun hother => h hother.2

/-- A redirect sends a body on as it is, or leaves it out. -/
theorem LeadsTo.body (h : c.LeadsTo next) : next.body = c.body ∨ next.body = none := by
  obtain ⟨r, hr⟩ := h
  by_cases hplain : c.BecomesPlain r.status
  · exact Or.inr (hr.plain hplain).2
  · exact Or.inl (hr.again hplain).2

/-- A redirect changes the method only to that of a plain request. -/
theorem AssumedRedirect.method_cases (h : c.AssumedRedirect r next) :
    next.method = c.method ∨ next.method = .get := by
  by_cases hplain : c.BecomesPlain r.status
  · rw [(h.plain hplain).1]
    split
    · next hhead => exact Or.inl hhead.symm
    · exact Or.inr rfl
  · exact Or.inl (h.again hplain).1

end Call

/-! ## Calls that can be sent -/

namespace Call

/-- Every call but one for a tunnel asks for the path and the query of its URL. -/
theorem target_of_ne {c : Call} (h : c.method ≠ .connect) : c.target = c.url.target :=
  if_neg h

/-- The URL that a call to a URL is sent to: a user who can be told in the header is not named. -/
def sentUrl (u : Url) : Url :=
  if (credentials? u).isSome then u.withoutUser else u

theorem sentUrl_cases (u : Url) : sentUrl u = u ∨ sentUrl u = u.withoutUser := by
  unfold sentUrl
  split
  · exact Or.inr rfl
  · exact Or.inl rfl

/-- But for the user it is the same URL. -/
theorem exists_sentUrl_eq (u : Url) : ∃ user password, sentUrl u = { u with user, password } := by
  rcases sentUrl_cases u with hsent | hsent
  · exact ⟨u.user, u.password, hsent⟩
  · exact ⟨[], none, hsent⟩

/-- The user is all that is moved to the header. -/
theorem withCredentials_eq (c : Call) :
    ∃ headers, c.withCredentials = ⟨c.method, sentUrl c.url, headers, c.body⟩ := by
  unfold withCredentials sentUrl
  split
  · next hnone =>
    rw [hnone]
    exact ⟨c.headers, rfl⟩
  · next pair hsome =>
    rw [hsome]
    exact ⟨_, rfl⟩

end Call

/-- Whether calls to a URL can be sent. -/
structure Url.IsCallable (u : Url) : Prop where
  host : u.hasHost = true
  http : u.isHttp = true
  text : ∃ t, RequestTarget.ofBytes? (Utf8.ofString (Call.sentUrl u).text) = .ok t

/-- They can be sent to a URL of the web that has a host, names no user and is not too long. -/
theorem Url.isCallable_of_user_eq {u : Url} (huser : u.user = [] ∧ u.password = none)
    (hhost : u.hasHost = true) (hhttp : u.isHttp = true)
    (htext : (RequestTarget.ofBytes? (Utf8.ofString u.text)).isOk) :
    u.IsCallable ∧ Call.sentUrl u = u := by
  have hsent : Call.sentUrl u = u := by
    rw [Call.sentUrl, Call.credentials?, huser.1, huser.2]
    rfl
  refine ⟨⟨hhost, hhttp, ?_⟩, hsent⟩
  rw [hsent]
  cases htarget : RequestTarget.ofBytes? (Utf8.ofString u.text) with
  | error f =>
    rw [htarget] at htext
    exact absurd htext (by simp [Except.isOk, Except.toBool])
  | ok target => exact ⟨target, rfl⟩

/-! ## The run of a call -/

namespace Agent

/-- The call that is made for a URL's text, before anything is sent. -/
def prepared? (agent : Agent) (method : Method) (url : String) (headers : Headers)
    (body : Option Bytes) : Except CallFault Call :=
  match Url.ofText url with
  | .error _ => .error .malformed
  | .ok url => Call.prepare agent ⟨method, url, headers, body⟩

/-- A call is first prepared, which sends nothing, and then followed. -/
theorem sendTo_eq (agent : Agent) (net : Network σ) (method : Method) (url : String)
    (headers : Headers) (body : Option Bytes) (s : σ) :
    agent.sendTo net method url headers body s =
      match agent.prepared? method url headers body with
      | .error f => (.error f, s)
      | .ok c => agent.follow net c.url maxRedirects c s := by
  unfold sendTo prepared? send
  cases Url.ofText url with
  | error f => rfl
  | ok u =>
    cases hprepared : Call.prepare agent ⟨method, u, headers, body⟩ with
    | error f => simp only [hprepared]
    | ok c => simp only [hprepared]

/-- The faults of a call that is not sent. -/
theorem prepared?_error {agent : Agent} {method : Method} {url : String} {headers : Headers}
    {body : Option Bytes} {f : CallFault}
    (h : agent.prepared? method url headers body = .error f) :
    f = .malformed ∨ ∃ u, f = .badUrl u := by
  unfold prepared? Call.prepare at h
  split at h
  · exact Or.inl (Except.error.inj h).symm
  · dsimp only at h
    split at h
    · exact Or.inr ⟨_, (Except.error.inj h).symm⟩
    · split at h
      · exact Or.inr ⟨_, (Except.error.inj h).symm⟩
      · exact absurd h (by simp)

/-- A call that is sent has a URL of the web with a host, and all the fields that an agent adds. -/
theorem prepared?_ok {agent : Agent} {method : Method} {url : String} {headers : Headers}
    {body : Option Bytes} {c : Call} (h : agent.prepared? method url headers body = .ok c) :
    ∃ u, Url.ofText url = .ok u ∧
      c = (Call.withCredentials ⟨method, u, headers, body⟩).withDefaults agent ∧
      c.url.hasHost = true ∧ c.url.isHttp = true := by
  unfold prepared? Call.prepare at h
  split at h
  · exact absurd h (by simp)
  · next u hu =>
    dsimp only at h
    split at h
    · exact absurd h (by simp)
    · next hbad =>
      rw [Bool.or_eq_true, Bool.not_eq_true', Bool.not_eq_true', not_or, Bool.not_eq_false,
        Bool.not_eq_false] at hbad
      split at h
      · exact absurd h (by simp)
      · have hc := Except.ok.inj h
        subst hc
        exact ⟨u, hu, rfl, hbad⟩

/-- A call that can be sent is sent with its own method and body. -/
theorem exists_prepare (agent : Agent) {c : Call} (h : c.url.IsCallable) :
    ∃ ready, c.prepare agent = .ok ready ∧ ready.method = c.method ∧
      ready.url = Call.sentUrl c.url ∧ ready.body = c.body := by
  obtain ⟨headers, hmoved⟩ := c.withCredentials_eq
  obtain ⟨t, ht⟩ := h.text
  have hkept : (Call.sentUrl c.url).hasHost = true ∧ (Call.sentUrl c.url).isHttp = true := by
    obtain ⟨user, password, hsame⟩ := Call.exists_sentUrl_eq c.url
    rw [hsame]
    exact ⟨h.host, h.http⟩
  unfold Call.prepare
  rw [hmoved]
  dsimp only
  rw [hkept.1, hkept.2, if_neg (by decide), ht]
  exact ⟨_, rfl, rfl, rfl, rfl⟩

/-- The requests of a call, on a network that keeps a record: those of a chain of calls that lead
to each other, with at most `left` of them after the first. Result and network are the same as
without the record. -/
theorem follow_recorded (agent : Agent) (net : Network σ) (first : Url) (left : Nat) (c : Call)
    (sent : List WireRequest) (s : σ) :
    ∃ later : List Call,
      agent.follow net.recorded first left c (sent, s) =
        ((agent.follow net first left c s).1,
          (sent ++ (c :: later).map Call.wire, (agent.follow net first left c s).2)) ∧
      later.length ≤ left ∧ List.IsChain Call.LeadsTo (c :: later) := by
  -- with no redirect left the run is one request; otherwise the answer may lead to one more call
  induction left generalizing c sent s with
  | zero =>
    refine ⟨[], ?_, le_rfl, List.isChain_singleton c⟩
    unfold follow
    dsimp only [Network.recorded]
    cases net.deliver c.wire s with
    | mk answer s' =>
      cases answer with
      | none => rfl
      | some answer =>
        dsimp only
        cases if agent.follows then c.next? (receive c.method answer) else none <;> rfl
  | succ left ih =>
    unfold follow
    dsimp only [Network.recorded]
    cases net.deliver c.wire s with
    | mk answer s' =>
      cases answer with
      | none => exact ⟨[], rfl, Nat.zero_le _, List.isChain_singleton c⟩
      | some answer =>
        dsimp only
        cases hnext : if agent.follows then c.next? (receive c.method answer) else none with
        | none => exact ⟨[], rfl, Nat.zero_le _, List.isChain_singleton c⟩
        | some next =>
          dsimp only
          by_cases hhttp : next.url.isHttp = true
          · rw [if_pos hhttp, if_pos hhttp]
            obtain ⟨later, hrun, hlength, hchain⟩ := ih next (sent ++ [c.wire]) s'
            have hleads : c.LeadsTo next := by
              by_cases hf : agent.follows = true
              · rw [if_pos hf] at hnext
                exact ⟨_, Call.assumedRedirect_of_next? hnext⟩
              · exact absurd hnext (by simp [hf])
            refine ⟨next :: later, ?_, Nat.succ_le_succ hlength, hchain.cons_cons hleads⟩
            -- the rest of the run is that of the next call, after the request of this one
            have happ : sent ++ (c :: next :: later).map Call.wire =
                sent ++ [c.wire] ++ (next :: later).map Call.wire := by
              rw [List.map_cons, List.append_assoc, List.singleton_append]
            rw [happ]
            exact hrun
          · rw [if_neg hhttp, if_neg hhttp]
            exact ⟨[], rfl, Nat.zero_le _, List.isChain_singleton c⟩

/-- What every request leaves true of a network, a whole call leaves true of it. -/
theorem follow_preserves {p : σ → Prop} {net : Network σ}
    (hstep : ∀ w t, p t → p (net.deliver w t).2) (agent : Agent) (first : Url) (left : Nat)
    (c : Call) {s : σ} (hs : p s) : p (agent.follow net first left c s).2 := by
  induction left generalizing c s with
  | zero =>
    unfold follow
    have hnext := hstep c.wire s hs
    cases hsent : net.deliver c.wire s with
    | mk answer t =>
      rw [hsent] at hnext
      cases answer with
      | none => exact hnext
      | some answer =>
        dsimp only
        split <;> exact hnext
  | succ left ih =>
    unfold follow
    have hnext := hstep c.wire s hs
    cases hsent : net.deliver c.wire s with
    | mk answer t =>
      rw [hsent] at hnext
      cases answer with
      | none => exact hnext
      | some answer =>
        dsimp only
        split
        · exact hnext
        · split
          · exact ih _ hnext
          · exact hnext

@[simp] theorem receive_status (method : Method) (r : Response) :
    (receive method r).status = r.status := by
  unfold receive
  split <;> rfl

@[simp] theorem decoded_status (undo : Coding → Bytes → Option Bytes) (r : Response) :
    (decoded undo r).status = r.status := by
  unfold decoded
  split <;> rfl

/-- The result of a call that goes well is the last answer that came over the network, as it is read
off the connection and with the coding of its body undone. -/
theorem follow_ok {agent : Agent} {net : Network σ} {first : Url} {left : Nat} {c : Call}
    {s s' : σ} {r : Response} (h : agent.follow net first left c s = (.ok r, s')) :
    ∃ (last : Call) (t : σ) (answer : Response),
      net.deliver last.wire t = (some answer, s') ∧
      r = decoded net.undo (receive last.method answer) := by
  induction left generalizing c s with
  | zero =>
    unfold follow at h
    split at h
    · exact absurd (congrArg Prod.fst h) (by simp)
    · next answer t hsent =>
      dsimp only at h
      split at h
      · obtain ⟨hr, hs⟩ := Prod.mk.inj h
        exact ⟨c, s, answer, hs ▸ hsent, (Except.ok.inj hr).symm⟩
      · exact absurd (congrArg Prod.fst h) (by simp)
  | succ left ih =>
    unfold follow at h
    split at h
    · exact absurd (congrArg Prod.fst h) (by simp)
    · next answer t hsent =>
      dsimp only at h
      split at h
      · obtain ⟨hr, hs⟩ := Prod.mk.inj h
        exact ⟨c, s, answer, hs ▸ hsent, (Except.ok.inj hr).symm⟩
      · split at h
        · exact ih h
        · exact absurd (congrArg Prod.fst h) (by simp)

end Agent

end RegistryConsole
