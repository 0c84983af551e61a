import RegistryConsole.Proofs.Url.Address
import RegistryConsole.Proofs.Url.Path

/-! # What servers are written with

However a user, a host and a port are spelled where they are read, their text has no mark that ends
the part with the host. So wherever it stands in a URL, it is told from the path behind it, and
where it stands alone, it has no path. -/

namespace RegistryConsole

namespace Url

/-- Whether no character of a text ends the part with the host. -/
def StaysInAuthority (cs : List Char) : Prop :=
  ∀ c ∈ cs, endsAuthority true c = false

instance (cs : List Char) : Decidable (StaysInAuthority cs) :=
  List.decidableBAll (fun c => endsAuthority true c = false) cs

theorem staysInAuthority_nil : StaysInAuthority [] :=
  fun _ hc => absurd hc List.not_mem_nil

theorem StaysInAuthority.append {a b : List Char} (ha : StaysInAuthority a)
    (hb : StaysInAuthority b) : StaysInAuthority (a ++ b) :=
  List.forall_mem_append.2 ⟨ha, hb⟩

theorem StaysInAuthority.cons {c : Char} {cs : List Char} (hc : endsAuthority true c = false)
    (hcs : StaysInAuthority cs) : StaysInAuthority (c :: cs) :=
  List.forall_mem_cons.2 ⟨hc, hcs⟩

theorem StaysInAuthority.filter {cs : List Char} (h : StaysInAuthority cs) (p : Char → Bool) :
    StaysInAuthority (cs.filter p) :=
  fun c hc => h c (List.mem_filter.1 hc).1

/-- Texts stay there also with another one between each two of them. -/
theorem StaysInAuthority.intercalate {sep : List Char} {texts : List (List Char)}
    (hsep : StaysInAuthority sep) (h : ∀ text ∈ texts, StaysInAuthority text) :
    StaysInAuthority (List.intercalate sep texts) := by
  induction texts with
  | nil => exact staysInAuthority_nil
  | cons text texts ih =>
    have htexts := List.forall_mem_cons.1 h
    cases texts with
    | nil => simpa using htexts.1
    | cons next rest =>
      have hjoin : List.intercalate sep (text :: next :: rest) =
          text ++ (sep ++ List.intercalate sep (next :: rest)) := by simp [List.intercalate]
      rw [hjoin]
      exact htexts.1.append (hsep.append (ih htexts.2))

/-- No digit ends the part with the host. -/
theorem staysInAuthority_toDigits {base : Nat} (h : 1 < base) (h' : base ≤ 16) (n : Nat) :
    StaysInAuthority (Nat.toDigits base n) := by
  have hdigit : ∀ d < 16, endsAuthority true (Nat.digitChar d) = false := by decide
  induction n using Nat.strongRecOn with
  | _ n ih =>
    rw [Nat.toDigits_eq_if h]
    split
    · exact .cons (hdigit n (by omega)) staysInAuthority_nil
    · have hlast : n % base < base := Nat.mod_lt n (by omega)
      exact (ih (n / base) (Nat.div_lt_self (by omega) h)).append
        (.cons (hdigit _ (by omega)) staysInAuthority_nil)

end Url

open Url

/-! ## Names -/

namespace Punycode

theorem staysInAuthority_encodeNumber (bias place q : Nat) :
    StaysInAuthority (encodeNumber bias place q) := by
  have hdigit : ∀ d < 36, endsAuthority true (digit d) = false := by decide
  fun_induction encodeNumber bias place q with
  | case1 place q t hlast =>
    have hbounds : threshold place bias ≤ 26 := (threshold_bounds place bias).2
    have hq : q < threshold place bias := hlast
    exact .cons (hdigit q (by omega)) staysInAuthority_nil
  | case2 place q t hmore ih =>
    have hbounds : threshold place bias ≤ 26 := (threshold_bounds place bias).2
    have hrest : (q - threshold place bias) % (36 - threshold place bias) <
        36 - threshold place bias := Nat.mod_lt _ (by omega)
    exact .cons (hdigit (threshold place bias + (q - threshold place bias) %
      (36 - threshold place bias)) (by omega)) ih

/-- Whatever character is seen, only digits are written for it. -/
theorem staysInAuthority_seeChar {code basic : Nat} {p : Progress} {c : Char}
    (h : StaysInAuthority p.written) : StaysInAuthority (seeChar code basic p c).written := by
  unfold seeChar
  split
  · exact h
  · split
    · exact h.append (staysInAuthority_encodeNumber p.bias 36 p.delta)
    · exact h

theorem staysInAuthority_encodeCodes {label : List Char} {basic : Nat} {codes : List Nat}
    {next : Nat} {p : Progress} (h : StaysInAuthority p.written) :
    StaysInAuthority (encodeCodes label basic codes next p) := by
  induction codes generalizing next p with
  | nil => exact h
  | cons code codes ih =>
    have hseen : ∀ (seen : List Char) (p : Progress), StaysInAuthority p.written →
        StaysInAuthority (seen.foldl (seeChar code basic) p).written := by
      intro seen
      induction seen with
      | nil => exact fun _ hp => hp
      | cons c seen ihseen => exact fun p hp => ihseen _ (staysInAuthority_seeChar hp)
    exact ih (hseen label _ h)

/-- A label in ASCII is made of the label's own characters, a hyphen and digits. -/
theorem staysInAuthority_encode {label : List Char} (h : StaysInAuthority label) :
    StaysInAuthority (encode label) := by
  unfold encode
  refine ((h.filter _).append ?_).append (staysInAuthority_encodeCodes staysInAuthority_nil)
  split
  · exact staysInAuthority_nil
  · exact .cons (by decide) staysInAuthority_nil

end Punycode

namespace Host

/-- The marks that end the part with the host are in no name. -/
theorem endsAuthority_of_isNameChar {c : Char} (h : isNameChar c = true) :
    endsAuthority true c = false := by
  rw [Bool.eq_false_iff]
  intro hends
  simp only [endsAuthority, Bool.true_and, Bool.or_eq_true, beq_iff_eq] at hends
  rcases hends with ((rfl | rfl) | rfl) | rfl <;> exact absurd h (by decide)

theorem staysInAuthority_of_label? {label text : List Char} (h : label? label = some text)
    (hlabel : StaysInAuthority label) : StaysInAuthority text := by
  unfold label? at h
  dsimp only at h
  split at h
  · split at h
    · rwa [← Option.some.inj h]
    · exact absurd h (by simp)
  · rw [← Option.some.inj h]
    split
    · exact hlabel
    · exact StaysInAuthority.append (by decide) (Punycode.staysInAuthority_encode hlabel)

/-- The results of a list are those of its elements. -/
theorem exists_of_mem_mapM {α β : Type} {f : α → Option β} {xs : List α} {ys : List β}
    (h : xs.mapM f = some ys) {y : β} (hy : y ∈ ys) : ∃ x ∈ xs, f x = some y := by
  induction xs generalizing ys with
  | nil =>
    obtain rfl := Option.some.inj h
    exact absurd hy List.not_mem_nil
  | cons x xs ih =>
    rw [List.mapM_cons] at h
    obtain ⟨first, hfirst, h⟩ := Option.bind_eq_some_iff.1 h
    obtain ⟨rest, hrest, h⟩ := Option.bind_eq_some_iff.1 h
    obtain rfl := Option.some.inj h
    rcases List.mem_cons.1 hy with rfl | hy
    · exact ⟨x, List.mem_cons_self, hfirst⟩
    · obtain ⟨z, hz, hzy⟩ := ih hrest hy
      exact ⟨z, List.mem_cons_of_mem x hz, hzy⟩

theorem staysInAuthority_of_name? {cs name : List Char} (h : name? cs = some name) :
    StaysInAuthority name := by
  unfold name? at h
  dsimp only at h
  split at h
  · next hall =>
    obtain ⟨labels, hlabels, rfl⟩ := Option.map_eq_some_iff.1 h
    refine StaysInAuthority.intercalate (by decide) fun text htext => ?_
    obtain ⟨label, hlabel, hmade⟩ := exists_of_mem_mapM hlabels htext
    refine staysInAuthority_of_label? hmade fun c hc => ?_
    exact endsAuthority_of_isNameChar
      (List.all_eq_true.1 hall c (mem_of_mem_splitOnP hlabel hc).1)
  · exact absurd h (by simp)

/-! ## Any host -/

theorem staysInAuthority_ipv4Text (n : Nat) : StaysInAuthority (ipv4Text n) := by
  have hpart : ∀ n, StaysInAuthority (Nat.toDigits 10 n) :=
    staysInAuthority_toDigits (by decide) (by decide)
  unfold ipv4Text
  dsimp only
  exact (((hpart _).append (.cons (by decide) (hpart _))).append
    (.cons (by decide) (hpart _))).append (.cons (by decide) (hpart _))

theorem staysInAuthority_ipv6Text (numbers : List Nat) : StaysInAuthority (ipv6Text numbers) := by
  have hcolon : ∀ numbers, StaysInAuthority (colonText numbers) := by
    intro numbers
    refine StaysInAuthority.intercalate (by decide) fun text htext => ?_
    obtain ⟨n, -, rfl⟩ := List.mem_map.1 htext
    exact staysInAuthority_toDigits (by decide) (by decide) n
  unfold ipv6Text
  dsimp only
  split
  · exact .cons (by decide) ((hcolon _).append (by decide))
  · exact .cons (by decide)
      ((((hcolon _).append (by decide)).append (hcolon _)).append (by decide))

/-- The text of a host stays where it is. -/
theorem staysInAuthority_of_ofText {cs host : List Char} (h : ofText cs = .ok host) :
    StaysInAuthority host := by
  unfold ofText at h
  split at h
  · split at h
    · split at h
      · rw [← Except.ok.inj h]
        exact staysInAuthority_ipv6Text _
      · exact absurd h (by simp)
    · exact absurd h (by simp)
  · split at h
    · exact absurd h (by simp)
    · exact absurd h (by simp)
    · next name _ hname =>
      obtain ⟨text, -, hname⟩ := Option.bind_eq_some_iff.1 hname
      split at h
      · split at h
        · rw [← Except.ok.inj h]
          exact staysInAuthority_ipv4Text _
        · exact absurd h (by simp)
      · rw [← Except.ok.inj h]
        exact staysInAuthority_of_name? hname

end Host

/-! ## Servers -/

namespace Url

/-- What is escaped in a user stays where it is. -/
theorem staysInAuthority_text_inUser (cs : List Char) :
    StaysInAuthority (Escape.text Escape.inUser cs) := by
  intro c hc
  have hkept := Escape.eq_false_of_mem_text
    (Escape.isFinal_of_digits (by decide) (by decide)) hc
  rw [Bool.eq_false_iff]
  intro hends
  simp only [endsAuthority, Bool.true_and, Bool.or_eq_true, beq_iff_eq] at hends
  rcases hends with ((rfl | rfl) | rfl) | rfl <;> exact absurd hkept (by decide)

theorem staysInAuthority_readUser (cs : List Char) :
    StaysInAuthority (readUser cs).1 ∧ ∀ password ∈ (readUser cs).2, StaysInAuthority password := by
  unfold readUser
  dsimp only
  split
  · exact ⟨staysInAuthority_text_inUser _, fun password h => absurd h (by simp)⟩
  · refine ⟨staysInAuthority_text_inUser _, fun password h => ?_⟩
    rw [← Option.some.inj h]
    exact staysInAuthority_text_inUser _

theorem staysInAuthority_of_readHostAndPort {usual : Nat} {cs host rest : List Char}
    {port : Option Nat} (h : readHostAndPort (.web usual) cs = .ok (host, port, rest)) :
    StaysInAuthority host := by
  rw [readHostAndPort_eq (.web usual) rfl] at h
  split at h
  · exact absurd h (by simp)
  · next name hname =>
    have hsame : name = host := by
      unfold readAfterHost at h
      split at h
      · split at h
        · exact absurd h (by simp)
        · next digits _ _ =>
          cases hport : readPort (SchemeKind.web usual).port? digits with
          | error f =>
            rw [hport] at h
            exact absurd h (by simp [Except.map])
          | ok p =>
            rw [hport] at h
            exact congrArg Prod.fst (Except.ok.inj h)
      · exact congrArg Prod.fst (Except.ok.inj h)
    rw [← hsame]
    exact Host.staysInAuthority_of_ofText hname

/-- User, host and port of a server that is read stay where they are. -/
theorem staysInAuthority_of_readServer {scheme authority : List Char} {port : Nat} {server : Url}
    (hkind : SchemeKind.of scheme = .web port) (h : readServer scheme authority = .ok server) :
    StaysInAuthority server.userText ∧ StaysInAuthority server.hostText := by
  unfold readServer at h
  rw [hkind] at h
  dsimp only at h
  split at h
  · exact absurd h (by simp)
  · next host digits rest hread =>
    split at h
    · exact absurd h (by simp)
    · obtain ⟨huser, hpassword⟩ := staysInAuthority_readUser
        ((splitUser? authority).getD ([], authority)).1
      rw [← Except.ok.inj h]
      constructor
      · unfold userText
        dsimp only
        split
        · next password hsome =>
          exact (huser.append (.cons (by decide) (hpassword password hsome))).append (by decide)
        · split
          · exact staysInAuthority_nil
          · exact huser.append (by decide)
      · refine (staysInAuthority_of_readHostAndPort hread).append ?_
        cases digits with
        | none => exact staysInAuthority_nil
        | some n =>
          exact .cons (by decide) (staysInAuthority_toDigits (by decide) (by decide) n)

/-! ## Whole addresses -/

theorem exists_withEnd_eq (u : Url) (cs : List Char) :
    ∃ query fragment, u.withEnd cs = { u with query, fragment } := by
  unfold withEnd
  split
  · dsimp only
    split <;> exact ⟨_, _, rfl⟩
  · exact ⟨_, _, rfl⟩
  · exact ⟨u.query, u.fragment, rfl⟩

/-- What is read after the server changes nothing before it. -/
theorem exists_withPath_eq_with (u : Url) (cs : List Char) :
    ∃ path query fragment, u.withPath cs = { u with path, query, fragment } := by
  unfold withPath
  dsimp only
  split
  · obtain ⟨query, fragment, h⟩ := exists_withEnd_eq u cs
    exact ⟨u.path, query, fragment, h⟩
  · obtain ⟨query, fragment, h⟩ := exists_withEnd_eq { u with
      path := .segments (readPath u.kind.isSpecial [] (dropSlash u.kind.isSpecial cs)).1 }
      (readPath u.kind.isSpecial [] (dropSlash u.kind.isSpecial cs)).2
    exact ⟨_, query, fragment, h⟩

/-- However an address of the web is written, its user, host and port are told from its path. -/
theorem staysInAuthority_of_ofText {text : String} {u : Url} (h : ofText text = .ok u)
    (hhttp : u.isHttp = true) : StaysInAuthority u.userText ∧ StaysInAuthority u.hostText := by
  unfold ofText at h
  split at h
  · next scheme rest _ =>
    obtain ⟨port, hkind⟩ := readScheme_isHttp h hhttp
    obtain ⟨authority, after, hrest, hauthority, hafter⟩ := exists_authority rest
    rw [readScheme, hkind] at h
    dsimp only at h
    rw [hrest, readAuthority_append hkind hauthority hafter] at h
    cases hserver : readServer scheme authority with
    | error f =>
      rw [hserver] at h
      exact absurd h (by simp [Except.map])
    | ok server =>
      rw [hserver] at h
      have hkept := staysInAuthority_of_readServer hkind hserver
      obtain ⟨path, query, fragment, hsame⟩ := exists_withPath_eq_with server after
      rw [← Except.ok.inj h]
      dsimp only
      rw [hsame]
      exact hkept
  · exact absurd h (by simp)

end Url

end RegistryConsole
