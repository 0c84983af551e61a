import RegistryConsole.Proofs.Json.Integers
import RegistryConsole.Proofs.Requests

/-! # Bodies that go on

A body that is a JSON text goes on in its compact form, and every other body as it is. What goes on
says the same as what came, and would go on unchanged. A redirect sends it on or leaves it out. -/

namespace RegistryConsole

/-! ## What is made of a body -/

namespace ForwardBody

variable {method : Method} {body : Bytes}

/-- Whether `out` says the same as a body, and would go on unchanged. -/
structure SaysSame (method : Method) (body out : Bytes) : Prop where
  /-- What is no JSON text goes on as it is. -/
  raw : ∀ f, Json.ofBytes? body = .error f → out = body
  /-- A JSON text whose numbers are integers goes on as a text of the same value: with the same
  strings, the items of lists in the same order, and of the members of one name the last. -/
  value : ∀ v, Json.ofBytes? body = .ok v → Json.HasIntegers body → Json.ofBytes? out = .ok v
  /-- It is a JSON text again, and its compact form. -/
  fixed : ∀ v, Json.ofBytes? body = .ok v → Json.HasIntegers body →
    ∃ again, classify method out = some again ∧ again.isStructured = true ∧ again.bytes = out

/-- Methods that do more than read send their bodies on. -/
theorem classify_of_ne (hget : method ≠ .get) (hhead : method ≠ .head) (body : Bytes) :
    classify method body =
      match Json.ofBytes? body with
      | .ok value => some (.structured value)
      | .error _ => some (.raw body) := by
  exact if_neg (not_or.2 ⟨hget, hhead⟩)

/-- What goes on of a body says the same. -/
theorem exists_saysSame (hget : method ≠ .get) (hhead : method ≠ .head) (body : Bytes) :
    ∃ out, (classify method body).map bytes = some out ∧ SaysSame method body out := by
  rw [classify_of_ne hget hhead]
  cases hbody : Json.ofBytes? body with
  | error f =>
    refine ⟨body, rfl, fun _ _ => rfl, ?_, ?_⟩
    · intro v hv
      exact absurd (hbody.symm.trans hv) (by simp)
    · intro v hv
      exact absurd (hbody.symm.trans hv) (by simp)
  | ok v =>
    have hsame : Json.HasIntegers body → Json.ofBytes? v.bytes = .ok v :=
      Json.ofBytes?_bytes_of_ofBytes? hbody
    refine ⟨v.bytes, rfl, ?_, ?_, ?_⟩
    · intro f hf
      exact absurd (hbody.symm.trans hf) (by simp)
    · intro w hw hintegers
      rw [← hw, hbody]
      exact hsame hintegers
    · intro w hw hintegers
      refine ⟨.structured v, ?_, rfl, rfl⟩
      rw [classify_of_ne hget hhead, hsame hintegers]

end ForwardBody

/-! ## What is sent of it -/

namespace Gateway

variable {σ : Type}

/-- With every method that does more than read, what is sent of a body says the same as the body,
and would be sent unchanged if it came again. It is sent with the first request, and later ones have
it or none. -/
theorem forward_says_same (g : Gateway) (net : Network σ) (now : Int64) (call : ForwardCall)
    (hget : call.method ≠ .get) (hhead : call.method ≠ .head) (s : σ) :
    let sent := (g.forward net.recorded now call ([], s)).2.1
    ∃ out, (ForwardBody.classify call.method call.body).map ForwardBody.bytes = some out ∧
      ForwardBody.SaysSame call.method call.body out ∧
      (∀ first ∈ sent.head?, first.body = out) ∧ ∀ w ∈ sent, w.body = out ∨ w.body = [] := by
  intro sent
  obtain ⟨out, hout, hsame⟩ := ForwardBody.exists_saysSame hget hhead call.body
  refine ⟨out, hout, hsame, ?_⟩
  have hsent : sent = (g.forward net.recorded now call ([], s)).2.1 := rfl
  rcases forward_recorded g net now call s with ⟨f, -, hrun, -⟩ | ⟨c, later, hc, hrun, -, hchain⟩
  · rw [hsent, hrun]
    exact ⟨fun first hfirst => absurd hfirst (by simp), fun w hw => absurd hw (by simp)⟩
  · obtain ⟨_, _, _, _, hfirst⟩ := isFirstCall_of_firstCall? hc
    have hbody : c.body = some out := hfirst.body.trans hout
    -- the body of every call of the chain is the first one's, or none
    have hall : ∀ d ∈ c :: later, d.body = some out ∨ d.body = none := by
      apply hchain.induction
      · intro x y hleads hx
        rcases hleads.body with hy | hy
        · rwa [hy]
        · exact Or.inr hy
      · exact fun _ => Or.inl hbody
    rw [hsent, hrun]
    constructor
    · intro first hfirst
      obtain rfl := Option.some.inj hfirst
      rw [Call.wire, hbody]
      rfl
    · intro w hw
      obtain ⟨d, hd, rfl⟩ := List.mem_map.1 hw
      rcases hall d hd with h | h
      · exact Or.inl (by rw [Call.wire, h]; rfl)
      · exact Or.inr (by rw [Call.wire, h]; rfl)

/-- A posted object with white space, an escape and two members of one name: what is sent is its
compact form, with the second of the two members. -/
theorem forward_says_same_post :
    let g : Gateway := ⟨"http://registry.example", exampleIssuer⟩
    let net := Backend.network fun _ b => some b
    let backend : Backend := ⟨fun _ => true, [], ⟨.ok, [], .empty⟩, []⟩
    let body := Utf8.ofString "\x7b\"b\": 1, \"a\": \"\\u0041\", \"b\" : [ -2 ]\x7d"
    let call : ForwardCall := ⟨.post, "ns/a.json", none, [], body⟩
    ∃ first, (g.forward net.recorded 0 call ([], backend)).2.1.head? = some first ∧
      first.body = Utf8.ofString "\x7b\"a\":\"A\",\"b\":[-2]\x7d" ∧
      (Json.ofBytes? body).isOk = true ∧ Json.ofBytes? first.body = Json.ofBytes? body := by
  intro g net backend body call
  have hurl : g.targetUrl "ns/a.json" none = "http://registry.example/ns/a.json" := by decide
  obtain ⟨token, htoken⟩ := exists_token_of_exampleIssuer
  obtain ⟨first, hfirst, -⟩ := exists_first_sent (g := g) (u := ⟨"http".toList, [], none,
    some "registry.example".toList, none, .segments ["ns".toList, "a.json".toList], none, none⟩)
    call (by decide) htoken (by rw [hurl]; rfl) (by decide) (by decide)
    (by decide) (by decide) net backend
  have hvalue : Json.ofBytes? body = .ok (.object [("a", .string "A"),
      ("b", .array [.number (.integer (-2) (by decide))])]) := rfl
  have hnumerals : Json.numerals body = [Utf8.ofString "1", Utf8.ofString "-2"] := by decide
  have hintegers : Json.HasIntegers body := by
    intro numeral hnumeral
    rw [hnumerals] at hnumeral
    rcases List.mem_cons.1 hnumeral with rfl | hnumeral
    · exact ⟨1, by decide, by decide⟩
    · obtain rfl := List.mem_singleton.1 hnumeral
      exact ⟨-2, by decide, by decide⟩
  obtain ⟨out, hout, hsame, hsent, -⟩ :=
    forward_says_same g net 0 call (by decide) (by decide) backend
  obtain rfl := hsent first hfirst
  refine ⟨first, hfirst, ?_, ?_, ?_⟩
  · rw [ForwardBody.classify_of_ne (by decide) (by decide), hvalue] at hout
    rw [← Option.some.inj hout]
    rfl
  · rw [hvalue]
    rfl
  · rw [hsame.value _ hvalue hintegers, hvalue]

end Gateway

end RegistryConsole
