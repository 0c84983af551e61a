import RegistryConsole.Proofs.Binary64
import RegistryConsole.Proofs.Bodies
import RegistryConsole.Proofs.Json.Documents

/-! # The numbers of bodies that go on

A body that is a JSON text goes on as what is written for its value. Each of its integers goes on at
its place with its value, as long as it fits 64 bits, with or without a sign. Of a longer one only
the digits that fit are read, into a binary fraction, and what goes on is the shortest decimal of
that; so it keeps its value only if this decimal is the integer. Of several members of one name only
the last one goes on. -/

namespace RegistryConsole

namespace Json

/-- Whether `m` is what goes on of the integer `n`. -/
structure Numeral.GoesOnAs (n m : Numeral) : Prop where
  /-- An integer of 64 bits, with or without a sign, keeps its value. -/
  exact : n.Fits → m.value = n.value
  /-- Any other is rounded, and keeps its value if the decimal of the fraction is the integer. -/
  rounded : ¬n.Fits → ∃ x, scaled? (kept 0 n.whole).1 (kept 0 n.whole).2.length = some x ∧
    (m.value = if n.negative then -x.shortest.value else x.shortest.value) ∧
    (m.value = n.value ↔ x.shortest.value = Nat.ofDigitChars 10 n.whole 0)

/-- The digits of zero make up zero. -/
theorem scaled?_of_zero {ds : List Char} (h : Nat.ofDigitChars 10 ds 0 = 0) :
    scaled? (kept 0 ds).1 (kept 0 ds).2.length = some .zero := by
  have hall : (kept 0 ds).2 = [] := by
    by_contra hmore
    exact absurd (le_of_kept hmore) (by rw [h]; decide)
  rw [kept_of_nil hall, hall, h]
  rfl

/-- A fraction with a sign is written as its shortest decimal with that sign. -/
theorem value_numeral_signed {x : Binary64} (hx : x.negative = false) (negative : Bool) :
    (signed (!negative) x).numeral.value =
      if negative then -x.shortest.value else x.shortest.value := by
  cases negative with
  | true =>
    have hneg : x.neg.negative = true := by
      show (!x.negative) = true
      rw [hx]
      rfl
    have hvalue := Number.value_numeral_float x.neg
    rwa [if_pos hneg, Binary64.shortest_neg] at hvalue
  | false =>
    have hvalue := Number.value_numeral_float x
    rwa [if_neg (by simp [hx])] at hvalue

/-- What is written for a number that was read of an integer is what goes on of that. -/
theorem goesOnAs_numeral {n : Numeral} {x : Number} (hn : n.IsInteger) (h : n.Reads x) :
    n.GoesOnAs x.numeral := by
  cases h with
  | integer hfits hsign =>
    refine ⟨fun _ => ?_, fun hnot => absurd hfits hnot⟩
    rw [Numeral.value_of_isInteger hn]
    exact Number.value_numeral_integer _ _
  | @float x hzero hscaled =>
    have hsigned := value_numeral_signed (scaled?_ok hscaled).1 n.negative
    have hkeeps : (signed (!n.negative) x).numeral.value = n.value ↔
        x.shortest.value = Nat.ofDigitChars 10 n.whole 0 := by
      rw [hsigned, Numeral.value_of_isInteger hn, Numeral.integer]
      cases n.negative with
      | true => simp
      | false => simp
    refine ⟨fun hfits => ?_, fun _ => ⟨x, hscaled, hsigned, hkeeps⟩⟩
    -- a whole number that fits is a fraction only if it is zero
    obtain ⟨hnegative, hinteger⟩ := hzero hfits
    have hdigits : Nat.ofDigitChars 10 n.whole 0 = 0 := by
      rw [Numeral.integer, hnegative, if_pos rfl] at hinteger
      omega
    obtain rfl := Option.some.inj ((scaled?_of_zero hdigits).symm.trans hscaled)
    have hshortest : Binary64.zero.shortest.value = 0 := Decimal.value_of_zero rfl
    rw [hsigned, Numeral.value_of_isInteger hn, hinteger, hshortest, neg_zero, ite_self]
    rfl

/-- Every integer of a text goes on at its place of what is written for the value of the text. -/
theorem exists_documents_of_ofBytes? {text : Bytes} {j : Json} (h : ofBytes? text = .ok j) :
    ∃ body out, Document.ofBytes? text = .ok body ∧ Document.ofBytes? j.bytes = .ok out ∧
      ∀ place n, body.at? place = some (.numeral n) → n.IsInteger →
        ∃ m, out.at? place = some (.numeral m) ∧ n.GoesOnAs m := by
  obtain ⟨body, hbody, hspells⟩ := exists_document_of_ofBytes? h
  refine ⟨body, j.document, hbody, ofBytes?_document (isOrdered_of_ofBytes? h).nests, ?_⟩
  intro place n hplace hinteger
  obtain ⟨x, hx, hreads⟩ := hspells place n hplace hinteger
  refine ⟨x.numeral, ?_, goesOnAs_numeral hinteger hreads⟩
  rw [at?_document, hx]
  rfl

end Json

/-- Two to the power of 64, as it is read off twenty digits. -/
def exampleLong : Binary64 := ⟨false, 4503599627370496, 12⟩

theorem value_shortest_exampleLong : exampleLong.shortest.value = 18446744073709552000 := by
  have hshortest : exampleLong.shortest = ⟨18446744073709552, 3⟩ := by decide +kernel
  rw [hshortest]
  decide +kernel

/-- A list with an integer that fits and one that is too long. -/
def exampleList : Bytes := Utf8.ofString "[-9,18446744073709551617]"

theorem ofBytes?_exampleList : Json.ofBytes? exampleList =
    .ok (.array [.number (.integer (-9) (by decide)), .number (.float exampleLong)]) := by
  rfl

namespace Gateway

variable {σ : Type}

/-- Of a body that is a JSON text, what is sent first is a text too, and has every integer of the
body at its place, unless it is in a member that is replaced by a later one of its name: with the
same value if it fits 64 bits, with or without a sign, and rounded otherwise. -/
theorem forward_integers (g : Gateway) (net : Network σ) (now : Int64) (call : ForwardCall) (s : σ)
    {value : Json} (h : ForwardBody.classify call.method call.body = some (.structured value)) :
    ∃ body out, Json.Document.ofBytes? call.body = .ok body ∧
      Json.Document.ofBytes? value.bytes = .ok out ∧
      (∀ first ∈ (g.forward net.recorded now call ([], s)).2.1.head?, first.body = value.bytes) ∧
      (∀ n, body.Writes n → (∃ place, body.at? place = some (.numeral n)) ∨ body.Replaces n) ∧
      ∀ place n, body.at? place = some (.numeral n) → n.IsInteger →
        ∃ m, out.at? place = some (.numeral m) ∧ n.GoesOnAs m := by
  obtain ⟨hget, hhead, hvalue⟩ := ForwardBody.of_classify_structured h
  obtain ⟨body, out, hbody, hout, hplaces⟩ := Json.exists_documents_of_ofBytes? hvalue
  refine ⟨body, out, hbody, hout, ?_, fun n hn => hn.exists_place, hplaces⟩
  intro first hfirst
  rcases forward_recorded g net now call s with ⟨f, -, hrun, -⟩ | ⟨c, later, hc, hrun, -, -⟩
  · rw [hrun] at hfirst
    exact absurd hfirst (by simp)
  · rw [hrun] at hfirst
    obtain rfl := Option.some.inj hfirst
    exact ((isFirstRequest_wire hc).structured value hget hhead hvalue).1

/-- Of a posted list of an integer that fits and one that is too long, the first one is sent as it
is, and the second one as another integer. -/
theorem forward_integers_list :
    let g : Gateway := ⟨"http://registry.example", exampleIssuer⟩
    let net := Backend.network fun _ b => some b
    let backend : Backend := ⟨fun _ => true, [], ⟨.ok, [], .empty⟩, []⟩
    let call : ForwardCall := ⟨.post, "ns/a.json", none, [], exampleList⟩
    ∃ first out short long, (g.forward net.recorded 0 call ([], backend)).2.1.head? = some first ∧
      Json.Document.ofBytes? first.body = .ok out ∧
      out.at? [.item 0] = some (.numeral short) ∧ short.value = -9 ∧
      out.at? [.item 1] = some (.numeral long) ∧ long.value = 18446744073709552000 := by
  intro g net backend call
  have hurl : g.targetUrl "ns/a.json" none = "http://registry.example/ns/a.json" := by decide
  obtain ⟨token, htoken⟩ := exists_token_of_exampleIssuer
  obtain ⟨first, hfirst, -⟩ := exists_first_sent (g := g) (u := ⟨"http".toList, [], none,
    some "registry.example".toList, none, .segments ["ns".toList, "a.json".toList], none, none⟩)
    call (by decide) htoken (by rw [hurl]; rfl) (by decide) (by decide)
    (by decide) (by decide) net backend
  have hclass : ForwardBody.classify call.method call.body = some (.structured (.array
      [.number (.integer (-9) (by decide)), .number (.float exampleLong)])) := by
    rw [ForwardBody.classify_of_ne (by decide) (by decide), ofBytes?_exampleList]
  obtain ⟨body, out, hbody, hout, hsent, -, hplaces⟩ :=
    forward_integers g net 0 call backend hclass
  -- the body has two integers, and both have a place
  let nine : Json.Numeral := ⟨true, ['9'], none, none⟩
  let longer : Json.Numeral := ⟨false, "18446744073709551617".toList, none, none⟩
  have hread : Json.Document.ofBytes? exampleList = .ok (.array [.numeral nine, .numeral longer]) :=
    rfl
  obtain rfl := Except.ok.inj (hread.symm.trans hbody)
  obtain ⟨short, hshort, hexact, -⟩ := hplaces [.item 0] nine rfl ⟨rfl, rfl⟩
  obtain ⟨long, hlong, -, hrounded⟩ := hplaces [.item 1] longer rfl ⟨rfl, rfl⟩
  obtain ⟨x, hx, hvalue, -⟩ := hrounded (by decide)
  have hkept : Json.kept 0 longer.whole = (1844674407370955161, ['7']) := by decide
  have hscaled : Json.scaled? 1844674407370955161 1 = some exampleLong := rfl
  rw [hkept] at hx
  obtain rfl := Option.some.inj (hscaled.symm.trans hx)
  refine ⟨first, out, short, long, hfirst, ?_, hshort, ?_, hlong, ?_⟩
  · rw [hsent first hfirst, hout]
  · rw [hexact (by decide), Json.Numeral.value_of_isInteger ⟨rfl, rfl⟩]
    rfl
  · rw [hvalue, if_neg (by decide), value_shortest_exampleLong]

end Gateway

/-- Two bodies whose integers do not go on as they are: one is too long, and one is in a member that
is replaced. -/
theorem ForwardBody.changes_integers :
    (∃ value n m, classify .post (Utf8.ofString "18446744073709551616") = some (.structured value) ∧
      Json.Document.ofBytes? (Utf8.ofString "18446744073709551616") = .ok (.numeral n) ∧
      n.IsInteger ∧ n.value = 18446744073709551616 ∧
      Json.Document.ofBytes? value.bytes = .ok (.numeral m) ∧ m.value = 18446744073709552000) ∧
    ∃ value one two, classify .post (Utf8.ofString "\x7b\"a\":1,\"a\":2\x7d") =
        some (.structured value) ∧
      Json.Document.ofBytes? (Utf8.ofString "\x7b\"a\":1,\"a\":2\x7d") =
        .ok (.object [("a", .numeral one), ("a", .numeral two)]) ∧
      one.IsInteger ∧ one.value = 1 ∧ two.value = 2 ∧
      Json.Document.ofBytes? value.bytes = .ok (.object [("a", .numeral two)]) := by
  constructor
  · let n : Json.Numeral := ⟨false, "18446744073709551616".toList, none, none⟩
    refine ⟨.number (.float exampleLong), n, _, rfl, rfl, ⟨rfl, rfl⟩, ?_,
      Json.ofBytes?_document trivial, ?_⟩
    · rw [Json.Numeral.value_of_isInteger ⟨rfl, rfl⟩]
      rfl
    · rw [Number.value_numeral_float, if_neg (by decide), value_shortest_exampleLong]
  · refine ⟨.object [("a", .number (.integer 2 (by decide)))], ⟨false, ['1'], none, none⟩,
      ⟨false, ['2'], none, none⟩, rfl, rfl, ⟨rfl, rfl⟩, ?_, ?_, rfl⟩
    · rw [Json.Numeral.value_of_isInteger ⟨rfl, rfl⟩]
      rfl
    · rw [Json.Numeral.value_of_isInteger ⟨rfl, rfl⟩]
      rfl

end RegistryConsole
