import RegistryConsole.Console.Basic

/-! # Requests for the registry

Which paths lead to the registry, and what a request with such a path comes to: its body is read,
and all of it is forwarded. -/

namespace RegistryConsole

namespace Route

/-- Whether a path is its lead, a slash and `rest`, which is not empty, so that both the lead and
the slash are there to be taken off. -/
structure Strips (lead path rest : String) : Prop where
  nonempty : rest ≠ ""
  whole : path = lead ++ "/" ++ rest
  /-- The lead is found, and so is the slash after it. -/
  found : ∃ after, dropLead? lead.toList path.toList = some after ∧
    dropLead? ['/'] after = some rest.toList
  stripped : strip lead path = rest

/-- A path is stripped of a lead and a slash that it has. -/
theorem strips_append (lead : String) {rest : String} (hrest : rest ≠ "") :
    Strips lead (lead ++ "/" ++ rest) rest := by
  have htext : (lead ++ "/" ++ rest).toList = lead.toList ++ ('/' :: rest.toList) := by simp
  have hlead : dropLead? lead.toList (lead ++ "/" ++ rest).toList = some ('/' :: rest.toList) :=
    dropLead?_eq_some_iff.2 htext
  have hslash : dropLead? ['/'] ('/' :: rest.toList) = some rest.toList :=
    dropLead?_append ['/'] rest.toList
  refine ⟨hrest, rfl, ⟨_, hlead, hslash⟩, ?_⟩
  rw [strip, hlead]
  dsimp only [Option.getD_some]
  rw [hslash]
  exact String.ofList_toList

/-- The paths that lead to the registry are those with something after the lead and one slash, and
the registry is asked for just that. -/
theorem of_eq_registry_iff {path rest : String} :
    Route.of path = .registry rest ↔ path = registryLead ++ "/" ++ rest ∧ rest ≠ "" := by
  unfold Route.of
  cases hbelow : below? registryLead path with
  | some below =>
    obtain ⟨rfl, hne⟩ := below?_eq_some_iff.1 hbelow
    dsimp only
    rw [(strips_append registryLead hne).stripped]
    constructor
    · intro h
      obtain rfl := Route.registry.inj h
      exact ⟨rfl, hne⟩
    · rintro ⟨h, -⟩
      exact congrArg Route.registry ((String.append_right_inj _).1 h)
  | none =>
    constructor
    · intro h
      dsimp only at h
      repeat' split at h
      all_goals exact absurd h (by simp)
    · intro h
      exact absurd (hbelow.symm.trans (below?_eq_some_iff.2 h)) (by simp)

/-- The path of the home page's data is a single one, letter by letter. -/
theorem eq_of_homePage {path : String} (h : Route.of path = .homePage) :
    path = "/api/pages/home" := by
  unfold Route.of at h
  repeat' split at h
  all_goals first | assumption | exact absurd h (by simp)

/-- So is that of the audit page's data. -/
theorem eq_of_auditPage {path : String} (h : Route.of path = .auditPage) :
    path = "/api/pages/audit" := by
  unfold Route.of at h
  repeat' split at h
  all_goals first | assumption | exact absurd h (by simp)

end Route

namespace InboundBody

variable {limit : Nat} {body : InboundBody}

/-- A body beyond the limit is too long, whether or not it breaks off. -/
theorem read_of_lt (h : limit < body.bytes.length) : body.read limit = .error .tooLong :=
  if_pos h

/-- A body that breaks off within the limit is broken. -/
theorem read_of_broken {text : String} (h : body.bytes.length ≤ limit)
    (hbroken : body.broken = some text) : body.read limit = .error (.broken text) := by
  rw [read, if_neg (Nat.not_lt.2 h), hbroken]

/-- Any other body is read, up to the very limit. -/
theorem read_of_whole (h : body.bytes.length ≤ limit) (hwhole : body.broken = none) :
    body.read limit = .ok body.bytes := by
  rw [read, if_neg (Nat.not_lt.2 h), hwhole]

end InboundBody

namespace Console

variable {σ : Type}

/-- What a request for the registry comes to: the answer with the events, and what is left of the
network. -/
theorem answer_of_registry {r : InboundRequest} {path : String}
    (hroute : Route.of r.target.path = .registry path) (c : Console) (net : Network σ)
    (now : Int64) (s : σ) :
    c.answer net now r s =
      (((told (c.relay net now path r s).1).1.withLength,
        (told (c.relay net now path r s).1).2), (c.relay net now path r s).2) := by
  rw [answer, dispatch, hroute]

/-- A request whose body cannot be read goes nowhere. -/
theorem relay_of_unread {r : InboundRequest} {f : BodyFault} {c : Console}
    (hread : r.body.read c.maxBody = .error f) (net : Network σ) (now : Int64) (path : String)
    (s : σ) : c.relay net now path r s = (.error (.body f), s) := by
  rw [relay, hread]

/-- A request whose body is read is forwarded with all of it. -/
theorem relay_of_read {r : InboundRequest} {body : Bytes} {c : Console}
    (hread : r.body.read c.maxBody = .ok body) (net : Network σ) (now : Int64) (path : String)
    (s : σ) :
    c.relay net now path r s =
      c.gateway.forward net now ⟨r.method, path, r.target.query, r.headers, body⟩ s := by
  rw [relay, hread]

end Console

end RegistryConsole
