import RegistryConsole.Proofs.Relays

/-! # Filters of the audit log

A query for the audit log is built up filter by filter. What counts of the filters is the last
limit and, of each other kind, the texts in the order in which they were given. Just that arrives at
the registry as the fields of the query, whatever characters the texts have. So filters of different
kinds can be given in any order, and different queries never look the same. -/

namespace RegistryConsole

variable {σ : Type}

/-! ## What counts of filters -/

namespace AuditFilter

/-- The limits among filters. -/
def limitsOf (filters : List AuditFilter) : List UInt32 :=
  filters.filterMap fun
    | .limit n => some n
    | _ => none

/-- The actions among filters. -/
def actionsOf (filters : List AuditFilter) : List String :=
  filters.filterMap fun
    | .action s => some s
    | _ => none

/-- The subjects among filters. -/
def subjectsOf (filters : List AuditFilter) : List String :=
  filters.filterMap fun
    | .subject s => some s
    | _ => none

/-- The namespaces among filters. -/
def namespacesOf (filters : List AuditFilter) : List String :=
  filters.filterMap fun
    | .ns s => some s
    | _ => none

/-- The fields that filters come to: the last limit, or the usual one, then the actions, the
subjects and the namespaces. -/
def fields (filters : List AuditFilter) : List (String × String) :=
  ("limit", toString ((limitsOf filters).getLast?.getD 100).toNat) ::
    ((actionsOf filters).map ("action", ·) ++ (subjectsOf filters).map ("subject", ·) ++
      (namespacesOf filters).map ("namespace", ·))

/-- Whether two filters are of one kind. -/
def isSameKind : AuditFilter → AuditFilter → Bool
  | .limit _, .limit _ | .action _, .action _ | .subject _, .subject _ | .ns _, .ns _ => true
  | _, _ => false

end AuditFilter

namespace AuditQuery

open AuditFilter

/-- A filter more is at the end of its kind. -/
theorem foldl_add (filters : List AuditFilter) (q : AuditQuery) :
    filters.foldl add q = ⟨(limitsOf filters).getLast?.getD q.limit, q.actions ++ actionsOf filters,
      q.subjects ++ subjectsOf filters, q.namespaces ++ namespacesOf filters⟩ := by
  induction filters generalizing q with
  | nil => simp [limitsOf, actionsOf, subjectsOf, namespacesOf]
  | cons filter filters ih =>
    rw [List.foldl_cons, ih]
    cases filter with
    | limit n =>
      have hlast : (limitsOf (.limit n :: filters)).getLast?.getD q.limit =
          (limitsOf filters).getLast?.getD n := by
        show (n :: limitsOf filters).getLast?.getD q.limit = _
        rw [List.getLast?_cons, Option.getD_some]
      rw [hlast]
      rfl
    | action s => simp [add, limitsOf, actionsOf, subjectsOf, namespacesOf]
    | subject s => simp [add, limitsOf, actionsOf, subjectsOf, namespacesOf]
    | ns s => simp [add, limitsOf, actionsOf, subjectsOf, namespacesOf]

/-- A query has the last limit, and the other filters kind by kind. -/
theorem ofFilters_eq (filters : List AuditFilter) :
    ofFilters filters = ⟨(limitsOf filters).getLast?.getD 100, actionsOf filters,
      subjectsOf filters, namespacesOf filters⟩ :=
  foldl_add filters {}

/-- What is sent for filters are their fields. -/
theorem pairs_ofFilters (filters : List AuditFilter) :
    (ofFilters filters).pairs = fields filters := by
  rw [ofFilters_eq]
  rfl

/-- Two filters of different kinds can change places. -/
theorem ofFilters_swap {a b : AuditFilter} (h : a.isSameKind b = false)
    (before after : List AuditFilter) :
    ofFilters (before ++ b :: a :: after) = ofFilters (before ++ a :: b :: after) := by
  have hadd : ∀ q : AuditQuery, (q.add b).add a = (q.add a).add b := by
    intro q
    cases a <;> cases b <;> first | rfl | exact absurd h (by simp [isSameKind])
  rw [ofFilters, ofFilters, List.foldl_append, List.foldl_append, List.foldl_cons, List.foldl_cons,
    List.foldl_cons, List.foldl_cons, hadd]

/-! ## What tells queries apart -/

/-- The values of one name among fields. -/
def valuesOf (name : String) (fields : List (String × String)) : List String :=
  fields.filterMap fun field => if field.1 = name then some field.2 else none

theorem valuesOf_append (name : String) (a b : List (String × String)) :
    valuesOf name (a ++ b) = valuesOf name a ++ valuesOf name b :=
  List.filterMap_append

theorem valuesOf_map (name other : String) (values : List String) :
    valuesOf name (values.map (other, ·)) = if other = name then values else [] := by
  by_cases h : other = name
  · simp [valuesOf, List.filterMap_map, h]
  · simp [valuesOf, List.filterMap_map, h]

/-- The values of each name are those that the query has. -/
theorem valuesOf_pairs (q : AuditQuery) :
    valuesOf "limit" q.pairs = [toString q.limit.toNat] ∧
      valuesOf "action" q.pairs = q.actions ∧ valuesOf "subject" q.pairs = q.subjects ∧
      valuesOf "namespace" q.pairs = q.namespaces := by
  have hpairs : q.pairs = [toString q.limit.toNat].map ("limit", ·) ++
      (q.actions.map ("action", ·) ++ q.subjects.map ("subject", ·) ++
        q.namespaces.map ("namespace", ·)) := rfl
  have hall : ∀ name, valuesOf name q.pairs =
      (if "limit" = name then [toString q.limit.toNat] else []) ++
        ((if "action" = name then q.actions else []) ++
          (if "subject" = name then q.subjects else []) ++
            (if "namespace" = name then q.namespaces else [])) := by
    intro name
    rw [hpairs, valuesOf_append, valuesOf_append, valuesOf_append, valuesOf_map, valuesOf_map,
      valuesOf_map, valuesOf_map]
  refine ⟨?_, ?_, ?_, ?_⟩
  all_goals
    rw [hall]
    simp

/-- The text of a number is that of no other one. -/
theorem toString_inj {m n : Nat} (h : toString m = toString n) : m = n := by
  have hdigits : Nat.toDigits 10 m = Nat.toDigits 10 n := by
    have hlist := congrArg String.toList h
    rwa [Nat.toString_eq_repr, Nat.toString_eq_repr, Nat.toList_repr, Nat.toList_repr] at hlist
  rw [← Nat.ofDigitChars_ten_toDigits (n := m), hdigits, Nat.ofDigitChars_ten_toDigits]

/-- Different queries are sent as different fields. -/
theorem pairs_inj {q r : AuditQuery} (h : q.pairs = r.pairs) : q = r := by
  obtain ⟨hlimit, hactions, hsubjects, hnamespaces⟩ := valuesOf_pairs q
  rw [h] at hlimit hactions hsubjects hnamespaces
  obtain ⟨hlimit', hactions', hsubjects', hnamespaces'⟩ := valuesOf_pairs r
  have hsame : q.limit = r.limit := by
    have htext := List.singleton_inj.1 (hlimit.symm.trans hlimit')
    exact UInt32.toNat_inj.1 (toString_inj htext)
  cases q
  cases r
  simp_all

end AuditQuery

/-! ## What arrives -/

/-- Whether a request asks a registry for the audit log with some fields: it names the log below the
path of the registry's address, and its query is read as the fields. -/
structure AuditFilter.Arrives (fields : List (String × String)) (registry : Url)
    (w : WireRequest) : Prop where
  origin : w.origin = registry.origin
  isSecure : w.isSecure = decide (registry.scheme = "https".toList)
  method : w.method = .get
  target : ∃ query, w.target = registry.basePath ++ "/audit?".toList ++ query ∧
    Form.decode (Utf8.encode query) = fields

namespace Client

variable {address : String} {front registry : Url}

theorem isSendable_auditLog (query : AuditQuery) : (Task.auditLog query).IsSendable where
  method := (by decide : Method.get ≠ Method.connect)
  path := (by decide : Url.IsPlainPath "audit".toList)
  start := (by decide : "audit".toList.head?.any (· != '/') = true)
  type _ h := absurd h (by simp [Task.auditLog])

/-- The fields of a query arrive, and of different queries different targets do. -/
theorem exists_isFirst_auditLog (hfront : Url.IsFront address front) {c : Console}
    (hregistry : Url.IsBase c.gateway.apiUrl registry) {now : Int64} {token : String}
    (htoken : c.gateway.issuer.issue now = .ok token) {query : AuditQuery}
    (hfits : (Task.auditLog query).Fits address c.gateway) (net : Network σ)
    (events : List LogEvent) (s : σ) :
    ∃ first text, ((Client.of address).listAuditLogs (c.network front.origin now net.recorded)
        query (events, ([], s))).2.2.1.head? = some first ∧
      first.target = registry.basePath ++ "/audit?".toList ++ text ∧
      Form.IsQueryOf query.pairs text ∧ (Task.auditLog query).Arrives registry first := by
  obtain ⟨first, hfirst, harrives⟩ := exists_isFirst_arrives hfront hregistry htoken
    (isSendable_auditLog query) hfits (Nat.zero_le _) net events s
  have hne : query.pairs ≠ [] := List.cons_ne_nil _ _
  obtain ⟨text, htext, hread⟩ := Form.exists_isQueryOf hne
  refine ⟨first, text, ?_, ?_, hread, harrives⟩
  · rw [listAuditLogs, ask_state]
    exact hfirst
  · rw [harrives.target, show (Task.auditLog query).fields = query.pairs from rfl, htext]
    have hjoin : '/' :: ("audit".toList ++ '?' :: text) = "/audit?".toList ++ text := rfl
    show registry.basePath ++ '/' :: ("audit".toList ++ '?' :: text) = _
    rw [hjoin, List.append_assoc]

/-- Audit filters, given in any sequence to a client of a console that has a token, arrive at the
registry: the first request there asks for the log below the path of the registry's address, and its
query is read as the last limit, or the usual one, and then the actions, the subjects and the
namespaces, each in the order in which they were given. Filters of different kinds can be given in
any order, and two queries come with one target only if they are the same. -/
theorem auditLog_arrives (hfront : Url.IsFront address front) {c : Console}
    (hregistry : Url.IsBase c.gateway.apiUrl registry) {now : Int64} {token : String}
    (htoken : c.gateway.issuer.issue now = .ok token) {filters : List AuditFilter}
    (hfits : (Task.auditLog (.ofFilters filters)).Fits address c.gateway) (net : Network σ)
    (events : List LogEvent) (s : σ) :
    let sent := fun query : AuditQuery => ((Client.of address).listAuditLogs
      (c.network front.origin now net.recorded) query (events, ([], s))).2.2.1
    ∃ first, (sent (.ofFilters filters)).head? = some first ∧
      AuditFilter.Arrives (AuditFilter.fields filters) registry first ∧
      (∀ query : AuditQuery, (Task.auditLog query).Fits address c.gateway →
        ∃ other, (sent query).head? = some other ∧
          (other.target = first.target ↔ query = .ofFilters filters)) ∧
      ∀ before a b after, filters = before ++ a :: b :: after → a.isSameKind b = false →
        AuditQuery.ofFilters (before ++ b :: a :: after) = .ofFilters filters := by
  intro sent
  obtain ⟨first, text, hfirst, htarget, hread, harrives⟩ :=
    exists_isFirst_auditLog hfront hregistry htoken hfits net events s
  refine ⟨first, hfirst, ⟨harrives.origin, harrives.isSecure, harrives.method, text, htarget, ?_⟩,
    ?_, ?_⟩
  · rw [hread.read, AuditQuery.pairs_ofFilters]
  · intro query hquery
    obtain ⟨other, text', hother, htarget', hread', -⟩ :=
      exists_isFirst_auditLog hfront hregistry htoken hquery net events s
    refine ⟨other, hother, fun hsame => ?_, ?_⟩
    · -- the same text is read as the same fields
      rw [htarget, htarget'] at hsame
      obtain rfl := List.append_cancel_left hsame
      exact AuditQuery.pairs_inj (hread'.read.symm.trans hread.read)
    · rintro rfl
      rw [Option.some.inj (hother.symm.trans hfirst)]
  · rintro before a b after rfl hkind
    exact AuditQuery.ofFilters_swap hkind before after

/-- Two limits and texts with the marks of a query, of which one is empty. -/
theorem auditLog_arrives_marks :
    let front : Url := ⟨"http".toList, [], none, some "ui.example".toList, none,
      .segments [[]], none, none⟩
    let registry : Url := ⟨"http".toList, [], none, some "registry.example".toList, none,
      .segments ["base".toList, []], none, none⟩
    let net := Backend.network fun _ b => some b
    let backend : Backend := ⟨fun _ => true, [], ⟨.ok, [], .empty⟩, []⟩
    let sent := fun query : AuditQuery => ((Client.of "http://ui.example/").listAuditLogs
      (Console.exampleConsole.network front.origin 0 net.recorded) query
        ([], ([], backend))).2.2.1
    let filters : List AuditFilter :=
      [.ns "", .limit 5, .action "a&b=c", .subject "1+1", .limit 7, .action "100% #\u00FC"]
    ∃ first other, (sent (.ofFilters filters)).head? = some first ∧
      AuditFilter.Arrives [("limit", "7"), ("action", "a&b=c"), ("action", "100% #\u00FC"),
        ("subject", "1+1"), ("namespace", "")] registry first ∧
      (sent {}).head? = some other ∧ other.target ≠ first.target ∧
      AuditQuery.ofFilters [.limit 5, .ns "", .action "a&b=c", .subject "1+1", .limit 7,
        .action "100% #\u00FC"] = .ofFilters filters := by
  intro front registry net backend sent filters
  have hfront : Url.IsFront "http://ui.example/" front :=
    ⟨⟨by rfl, rfl, rfl, (Url.isCallable_of_user_eq ⟨rfl, rfl⟩ rfl rfl (by decide)).1⟩, rfl, rfl⟩
  have hregistry : Url.IsBase Console.exampleConsole.gateway.apiUrl registry :=
    ⟨by rfl, rfl, rfl, (Url.isCallable_of_user_eq ⟨rfl, rfl⟩ rfl rfl (by decide)).1⟩
  obtain ⟨token, htoken⟩ := exists_token_of_exampleIssuer
  have hfits : ∀ query : AuditQuery,
      (front.below (consoleTarget "audit") (Form.queryOf query.pairs)).Fits →
      (registry.below "audit".toList (Form.queryOf query.pairs)).Fits →
      (Task.auditLog query).Fits "http://ui.example/" Console.exampleConsole.gateway :=
    fun query => (isSendable_auditLog query).fits_of_below hfront hregistry
  obtain ⟨first, hfirst, harrives, hothers, hswap⟩ := auditLog_arrives hfront hregistry htoken
    (hfits (.ofFilters filters) (by decide +kernel) (by decide +kernel)) net [] backend
  obtain ⟨other, hother, hsame⟩ := hothers {} (hfits {} (by decide +kernel) (by decide +kernel))
  have hfields : AuditFilter.fields filters = [("limit", "7"), ("action", "a&b=c"),
      ("action", "100% #\u00FC"), ("subject", "1+1"), ("namespace", "")] := by decide
  rw [hfields] at harrives
  exact ⟨first, other, hfirst, harrives, hother, fun h => absurd (hsame.1 h) (by decide),
    hswap [] (.ns "") (.limit 5) _ rfl rfl⟩

end Client

end RegistryConsole
