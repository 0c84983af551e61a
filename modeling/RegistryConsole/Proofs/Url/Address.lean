import RegistryConsole.Gateway.Basic
import RegistryConsole.Proofs.Url.Authority

/-! # Addresses that are put together

The address of a path in the registry is the registry's own address, a slash and the path, read as
one text. Whatever the path is, the server is that of the registry's address. -/

namespace RegistryConsole.Url

/-! ## The parts of a text that count -/

/-- The characters that count of a text at the start of a longer one. -/
def keptStart (cs : List Char) : List Char :=
  (cs.dropWhile isTrimmed).filter (!isSkipped ·)

/-- The characters that count of a text at the end of a longer one. -/
def keptEnd (cs : List Char) : List Char :=
  ((cs.reverse.dropWhile isTrimmed).reverse).filter (!isSkipped ·)

/-- Only what follows a slash is looked at for blanks at the end. -/
theorem trimmedEnd_append_slash (start rest : List Char) :
    ((start ++ '/' :: rest).reverse.dropWhile isTrimmed).reverse =
      start ++ '/' :: (rest.reverse.dropWhile isTrimmed).reverse := by
  rw [List.reverse_append, List.reverse_cons, List.append_assoc, List.dropWhile_append]
  split
  · next hnil =>
    rw [List.isEmpty_iff] at hnil
    rw [hnil, List.singleton_append, List.dropWhile_cons_of_neg (by decide)]
    simp
  · simp

/-- What counts on both sides of a slash is told apart from each other. -/
theorem clean_append_slash (start rest : List Char) :
    clean (start ++ '/' :: rest) = keptStart start ++ '/' :: keptEnd rest := by
  have hstart : (start ++ '/' :: rest).dropWhile isTrimmed =
      start.dropWhile isTrimmed ++ '/' :: rest := by
    rw [List.dropWhile_append]
    split
    · next hnil =>
      rw [List.isEmpty_iff] at hnil
      rw [hnil]
      rfl
    · rfl
  rw [clean, hstart, trimmedEnd_append_slash, List.filter_append,
    List.filter_cons_of_pos (by decide)]
  rfl

/-- What is no blank is not skipped. -/
theorem isSkipped_of_lt {c : Char} (h : 0x20 < c.toNat) : isSkipped c = false := by
  cases hskipped : isSkipped c with
  | false => rfl
  | true =>
    simp only [isSkipped, Bool.or_eq_true, beq_iff_eq] at hskipped
    rcases hskipped with (rfl | rfl) | rfl <;> exact absurd h (by decide)

/-- What has no blanks at its end, or anywhere else, counts as a whole. -/
theorem keptEnd_eq_self {cs : List Char} (h : ∀ c ∈ cs, 0x20 < c.toNat) : keptEnd cs = cs := by
  have htrimmed : cs.reverse.dropWhile isTrimmed = cs.reverse := by
    cases hcs : cs.reverse with
    | nil => rfl
    | cons c rest =>
      have hc : c ∈ cs := List.mem_reverse.1 (hcs ▸ List.mem_cons_self)
      have hlarge := h c hc
      refine List.dropWhile_cons_of_neg ?_
      simp only [isTrimmed, decide_eq_true_eq]
      omega
  rw [keptEnd, htrimmed, List.reverse_reverse]
  apply List.filter_eq_self.2
  intro c hc
  rw [isSkipped_of_lt (h c hc)]
  rfl

/-- What has no blanks and stands before a slash counts as a whole, whatever follows. -/
theorem keptEnd_append_slash {lead : List Char} (h : ∀ c ∈ lead, 0x20 < c.toNat)
    (rest : List Char) : keptEnd (lead ++ '/' :: rest) = lead ++ '/' :: keptEnd rest := by
  have hlead : lead.filter (!isSkipped ·) = lead := by
    apply List.filter_eq_self.2
    intro c hc
    rw [isSkipped_of_lt (h c hc)]
    rfl
  rw [keptEnd, trimmedEnd_append_slash, List.filter_append, List.filter_cons_of_pos (by decide),
    hlead]
  rfl

/-- Slashes count. -/
theorem keptEnd_replicate_slash (n : Nat) :
    keptEnd (List.replicate n '/') = List.replicate n '/' :=
  keptEnd_eq_self fun c hc => by
    rw [List.eq_of_mem_replicate hc]
    decide

/-- What counts of a whole text is what counts of it at the start of a longer one, without the
blanks at its end. -/
theorem exists_keptStart_eq (cs : List Char) :
    ∃ blanks : List Char, keptStart cs = clean cs ++ blanks ∧ ∀ c ∈ blanks, c.toNat ≤ 0x20 := by
  refine ⟨((((cs.dropWhile isTrimmed).reverse.takeWhile isTrimmed).reverse).filter
    (!isSkipped ·)), ?_, ?_⟩
  · rw [clean, keptStart, ← List.filter_append, ← List.reverse_append,
      List.takeWhile_append_dropWhile, List.reverse_reverse]
  · intro c hc
    have hmem := List.mem_reverse.1 (List.mem_filter.1 hc).1
    have htrimmed := List.mem_takeWhile_imp hmem
    exact of_decide_eq_true htrimmed

/-! ## The scheme -/

variable {cs scheme rest : List Char}

/-- A scheme that is there is there before anything that follows. -/
theorem splitScheme?_append (h : splitScheme? cs = some (scheme, rest)) (more : List Char) :
    splitScheme? (cs ++ more) = some (scheme, rest ++ more) := by
  unfold splitScheme? at h ⊢
  split at h
  · next halpha =>
    dsimp only at h
    obtain ⟨name, after, rfl, hname, hafter⟩ := exists_span isSchemeChar cs
    rw [takeWhile_append_of_stop hname hafter, List.drop_left] at h
    split at h
    · next tail =>
      obtain ⟨rfl, rfl⟩ := Prod.mk.inj (Option.some.inj h)
      have hhead : (name ++ ':' :: tail ++ more).head? = (name ++ ':' :: tail).head? := by
        cases name <;> rfl
      have hstop : ∀ x ∈ (':' :: tail ++ more).head?, isSchemeChar x = false := hafter
      rw [hhead, if_pos halpha]
      dsimp only
      rw [List.append_assoc, takeWhile_append_of_stop hname hstop, List.drop_left]
      rfl
    · exact absurd h (by simp)
  · exact absurd h (by simp)

/-- A slash puts no scheme before itself. -/
theorem splitScheme?_append_slash (h : splitScheme? cs = none) (more : List Char) :
    splitScheme? (cs ++ '/' :: more) = none := by
  cases cs with
  | nil => rfl
  | cons c cs =>
    unfold splitScheme? at h ⊢
    rw [List.cons_append, List.head?_cons]
    rw [List.head?_cons] at h
    by_cases halpha : (some c).any Char.isAlpha = true
    · rw [if_pos halpha] at h ⊢
      dsimp only at h ⊢
      obtain ⟨name, after, hspan, hname, hafter⟩ := exists_span isSchemeChar (c :: cs)
      rw [← List.cons_append]
      rw [hspan] at h ⊢
      rw [takeWhile_append_of_stop hname hafter, List.drop_left] at h
      have hstop : ∀ x ∈ (after ++ '/' :: more).head?, isSchemeChar x = false := by
        cases after with
        | nil =>
          intro x hx
          obtain rfl := Option.some.inj hx
          rfl
        | cons x after => exact hafter
      rw [List.append_assoc, takeWhile_append_of_stop hname hstop, List.drop_left]
      cases after with
      | nil => rfl
      | cons x after =>
        split at h
        · exact absurd h (by simp)
        · next hcolon =>
          rw [List.cons_append]
          split
          · next tail heq =>
            obtain ⟨rfl, -⟩ := List.cons.inj heq
            exact absurd rfl (hcolon after)
          · rfl
    · rw [if_neg halpha]

/-! ## The server of an address -/

theorem withEnd_server (u : Url) (cs : List Char) :
    (u.withEnd cs).scheme = u.scheme ∧ (u.withEnd cs).host = u.host ∧
      (u.withEnd cs).port = u.port := by
  unfold withEnd
  split
  · dsimp only
    split <;> exact ⟨rfl, rfl, rfl⟩
  · exact ⟨rfl, rfl, rfl⟩
  · exact ⟨rfl, rfl, rfl⟩

/-- Path, query and fragment leave the server as it is. -/
theorem withPath_server (u : Url) (cs : List Char) :
    (u.withPath cs).scheme = u.scheme ∧ (u.withPath cs).host = u.host ∧
      (u.withPath cs).port = u.port := by
  unfold withPath
  dsimp only
  split
  · exact withEnd_server u cs
  · exact withEnd_server _ _

theorem withPath_scheme (u : Url) (cs : List Char) : (u.withPath cs).scheme = u.scheme :=
  (withPath_server u cs).1

/-- The scheme of a URL with a server is the one it was read with. -/
theorem readAuthority_scheme {u : Url} (h : readAuthority scheme cs = .ok u) :
    u.scheme = scheme := by
  unfold readAuthority at h
  dsimp only at h
  split at h
  · exact absurd h (by simp)
  · cases hparts : readHostAndPort (.of scheme)
        (((splitUser? (cs.takeWhile (!endsAuthority (SchemeKind.of scheme).isSpecial ·))).getD
          ([], cs.takeWhile (!endsAuthority (SchemeKind.of scheme).isSpecial ·))).2 ++
          cs.drop (cs.takeWhile (!endsAuthority (SchemeKind.of scheme).isSpecial ·)).length) with
    | error f =>
      rw [hparts] at h
      exact absurd h (by simp [bind, Except.bind])
    | ok parts =>
      rw [hparts] at h
      simp only [bind, Except.bind] at h
      split at h
      · exact absurd h (by simp)
      · obtain rfl := Except.ok.inj h
        exact withPath_scheme _ _

/-- Path, query and fragment have no say in where a connection goes to. -/
theorem withPath_origin (u : Url) (cs : List Char) : (u.withPath cs).origin = u.origin := by
  obtain ⟨hscheme, hhost, hport⟩ := withPath_server u cs
  rw [origin, origin, kind, kind, hscheme, hhost, hport]

/-! ## Addresses below an address -/

/-- What follows the slashes after a scheme is the part with the host and what ends it. -/
theorem exists_authority (rest : List Char) :
    ∃ authority after, rest.dropWhile isAnySlash = authority ++ after ∧
      (∀ x ∈ authority, endsAuthority true x = false) ∧
      ∀ x ∈ after.head?, endsAuthority true x = true := by
  obtain ⟨authority, after, hrest, hauthority, hafter⟩ :=
    exists_span (!endsAuthority true ·) (rest.dropWhile isAnySlash)
  exact ⟨authority, after, hrest, fun x hx => by simpa using hauthority x hx,
    fun x hx => by simpa using hafter x hx⟩

/-- Only a web address has the scheme of one. -/
theorem readScheme_isHttp {u : Url} (h : readScheme scheme cs = .ok u)
    (hhttp : u.isHttp = true) : ∃ port, SchemeKind.of scheme = .web port := by
  have hscheme : u.scheme = "http".toList ∨ u.scheme = "https".toList := by
    simpa [isHttp] using hhttp
  unfold readScheme at h
  cases hkind : SchemeKind.of scheme with
  | web port => exact ⟨port, rfl⟩
  | file =>
    rw [hkind] at h
    have hfile : u.scheme = "file".toList := by
      simp only [readFile] at h
      repeat' split at h
      all_goals first
        | obtain rfl := Except.ok.inj h
          exact (withEnd_server _ _).1
        | exact absurd h (by simp)
    rw [hfile] at hscheme
    exact absurd hscheme (by decide)
  | other =>
    rw [hkind] at h
    have hsame : u.scheme = scheme := by
      dsimp only at h
      split at h
      · exact readAuthority_scheme h
      · obtain rfl := Except.ok.inj h
        exact (withEnd_server _ _).1
      · obtain rfl := Except.ok.inj h
        exact (withEnd_server _ _).1
    rw [hsame] at hscheme
    rcases hscheme with rfl | rfl <;> exact absurd hkind (by decide)

/-- An address below another one: its server is read from that one, and the path after it. -/
theorem ofText_append_slash {start : String} {authority after : List Char} {port : Nat}
    (hscheme : splitScheme? (keptStart start.toList) = some (scheme, rest))
    (hkind : SchemeKind.of scheme = .web port)
    (hrest : rest.dropWhile isAnySlash = authority ++ after) (hne : authority ++ after ≠ [])
    (hauthority : ∀ x ∈ authority, endsAuthority true x = false)
    (hafter : ∀ x ∈ after.head?, endsAuthority true x = true) (path : String) :
    ofText (start ++ "/" ++ path) = (readServer scheme authority).map fun server =>
      server.withPath (after ++ '/' :: keptEnd path.toList) := by
  have htext : (start ++ "/" ++ path).toList = start.toList ++ '/' :: path.toList := by simp
  have hdrop : (rest ++ '/' :: keptEnd path.toList).dropWhile isAnySlash =
      authority ++ (after ++ '/' :: keptEnd path.toList) := by
    rw [List.dropWhile_append, hrest, if_neg (by simpa using hne), List.append_assoc]
  have hstop : ∀ x ∈ (after ++ '/' :: keptEnd path.toList).head?, endsAuthority true x = true := by
    cases after with
    | nil =>
      intro x hx
      obtain rfl := Option.some.inj hx
      rfl
    | cons x after => exact hafter
  rw [ofText, htext, clean_append_slash, splitScheme?_append hscheme]
  dsimp only
  rw [readScheme, hkind]
  dsimp only
  rw [hdrop, readAuthority_append hkind hauthority hstop]

/-- A server alone has neither query nor fragment. -/
theorem readServer_ok {authority : List Char} {server : Url}
    (h : readServer scheme authority = .ok server) :
    server.scheme = scheme ∧ server.query = none ∧ server.fragment = none := by
  unfold readServer at h
  dsimp only at h
  split at h
  · exact absurd h (by simp)
  · split at h
    · exact absurd h (by simp)
    · obtain rfl := Except.ok.inj h
      exact ⟨rfl, rfl, rfl⟩

/-- Whether all addresses below `start` have the server `server`, and a path that goes on from
`after`. -/
structure ServesBelow (start : String) (server : Url) (after : List Char) : Prop where
  special : server.kind.isSpecial = true
  query : server.query = none
  fragment : server.fragment = none
  /-- The server ends where the path starts. -/
  ends : ∀ x ∈ after.head?, endsAuthority true x = true
  read : ∀ path : String, ofText (start ++ "/" ++ path) =
    .ok (server.withPath (after ++ '/' :: keptEnd path.toList))

/-- A server that is read is that of all addresses below. -/
theorem servesBelow_of_readServer {start : String} {authority after : List Char} {port : Nat}
    {server : Url} (hscheme : splitScheme? (keptStart start.toList) = some (scheme, rest))
    (hkind : SchemeKind.of scheme = .web port)
    (hrest : rest.dropWhile isAnySlash = authority ++ after) (hne : authority ++ after ≠ [])
    (hauthority : ∀ x ∈ authority, endsAuthority true x = false)
    (hafter : ∀ x ∈ after.head?, endsAuthority true x = true)
    (hserver : readServer scheme authority = .ok server) : ServesBelow start server after where
  special := by
    rw [kind, (readServer_ok hserver).1, hkind]
    rfl
  query := (readServer_ok hserver).2.1
  fragment := (readServer_ok hserver).2.2
  ends := hafter
  read := by
    intro path
    rw [ofText_append_slash hscheme hkind hrest hne hauthority hafter, hserver]
    rfl

/-- Without a host there is no web address. -/
theorem readAuthority_nil {port : Nat} (hkind : SchemeKind.of scheme = .web port) :
    readAuthority scheme [] = .error .emptyHost := by
  rw [readAuthority, hkind]
  rfl

/-- If an address with nothing but slashes below it is that of the web, then all addresses below it
have its own server. -/
theorem servesBelow_of_ok {start : String} {n : Nat} {u : Url}
    (h : ofText (start ++ "/" ++ String.ofList (List.replicate n '/')) = .ok u)
    (hhttp : u.isHttp = true) :
    ∃ (server : Url) (after : List Char), ServesBelow start server after ∧
      u = server.withPath (after ++ '/' :: List.replicate n '/') := by
  have hread := h
  rw [ofText, show (start ++ "/" ++ String.ofList (List.replicate n '/')).toList =
      start.toList ++ '/' :: List.replicate n '/' by simp, clean_append_slash,
    keptEnd_replicate_slash] at hread
  cases hscheme : splitScheme? (keptStart start.toList) with
  | none =>
    rw [splitScheme?_append_slash hscheme] at hread
    exact absurd hread (by simp)
  | some parts =>
    obtain ⟨scheme, rest⟩ := parts
    rw [splitScheme?_append hscheme] at hread
    obtain ⟨port, hkind⟩ := readScheme_isHttp hread hhttp
    obtain ⟨authority, after, hrest, hauthority, hafter⟩ := exists_authority rest
    have hne : authority ++ after ≠ [] := by
      -- otherwise the slashes are all that follows the scheme, and there is no host
      intro hnil
      have hslashes : (rest ++ '/' :: List.replicate n '/').dropWhile isAnySlash = [] := by
        rw [List.dropWhile_append, hrest, hnil, List.isEmpty_nil, if_pos rfl]
        exact List.dropWhile_eq_nil_iff.2 fun x hx => by
          rcases List.mem_cons.1 hx with rfl | hx
          · rfl
          · rw [List.eq_of_mem_replicate hx]
            rfl
      dsimp only at hread
      rw [readScheme, hkind] at hread
      dsimp only at hread
      rw [hslashes, readAuthority_nil hkind] at hread
      exact absurd hread (by simp)
    rw [ofText_append_slash hscheme hkind hrest hne hauthority hafter] at h
    cases hserver : readServer scheme authority with
    | error f =>
      rw [hserver] at h
      exact absurd h (by simp [Except.map])
    | ok server =>
      rw [hserver] at h
      obtain rfl := Except.ok.inj h
      refine ⟨server, after,
        servesBelow_of_readServer hscheme hkind hrest hne hauthority hafter hserver, ?_⟩
      rw [String.toList_ofList, keptEnd_replicate_slash]

/-- An address of the web is read the same below it, whatever the path is: either there is no URL
for any path, or the server is always its own. -/
theorem servesBelow_self {address : String} {base : Url} (h : ofText address = .ok base)
    (hhttp : base.isHttp = true) :
    (∃ f, ∀ path : String, ofText (address ++ "/" ++ path) = .error f) ∨
    ∃ (server : Url) (own blanks : List Char), ServesBelow address server (own ++ blanks) ∧
      base = server.withPath own ∧ ∀ c ∈ blanks, c.toNat ≤ 0x20 := by
  obtain ⟨blanks, hkept, hblanks⟩ := exists_keptStart_eq address.toList
  rw [ofText] at h
  split at h
  · next scheme rest hscheme =>
    obtain ⟨port, hkind⟩ := readScheme_isHttp h hhttp
    rw [readScheme, hkind] at h
    dsimp only at h
    obtain ⟨authority, own, hrest, hauthority, hown⟩ := exists_authority rest
    rw [hrest] at h
    have hne : authority ++ own ≠ [] := by
      intro hnil
      rw [hnil, readAuthority_nil hkind] at h
      exact absurd h (by simp)
    have hlonger : splitScheme? (keptStart address.toList) = some (scheme, rest ++ blanks) := by
      rw [hkept, splitScheme?_append hscheme]
    have hdrop : (rest ++ blanks).dropWhile isAnySlash = authority ++ own ++ blanks := by
      rw [List.dropWhile_append, hrest, if_neg (by simpa using hne)]
    rw [readAuthority_append hkind hauthority hown] at h
    cases hserver : readServer scheme authority with
    | error f =>
      rw [hserver] at h
      exact absurd h (by simp [Except.map])
    | ok server =>
      rw [hserver] at h
      obtain rfl := Except.ok.inj h
      rw [List.append_assoc] at hdrop
      by_cases hblank : own = [] ∧ blanks ≠ []
      · -- the blanks that no longer stand at the end have become a part of the host
        obtain ⟨rfl, hsome⟩ := hblank
        rcases List.eq_nil_or_concat' blanks with rfl | ⟨front, c, rfl⟩
        · exact absurd rfl hsome
        · rw [List.nil_append, ← List.append_assoc authority] at hdrop
          have hlonger_authority : ∀ x ∈ authority ++ front ++ [c],
              endsAuthority true x = false := by
            intro x hx
            rw [List.append_assoc] at hx
            rcases List.mem_append.1 hx with hx | hx
            · exact hauthority x hx
            · exact endsAuthority_of_blank (hblanks x (by simpa using hx))
          obtain ⟨f, hf⟩ := readServer_concat_blank hkind (hblanks c (by simp))
            hlonger_authority
          refine Or.inl ⟨f, ?_⟩
          intro path
          rw [ofText_append_slash hlonger hkind (hdrop.trans (List.append_nil _).symm) (by simp)
            hlonger_authority (by simp), hf]
          rfl
      · refine Or.inr ⟨server, own, blanks, ?_, rfl, hblanks⟩
        have hstop : ∀ x ∈ (own ++ blanks).head?, endsAuthority true x = true := by
          cases own with
          | nil =>
            have hnil : blanks = [] := by
              by_cases hnil : blanks = []
              · exact hnil
              · exact absurd ⟨rfl, hnil⟩ hblank
            rw [hnil]
            exact fun x hx => absurd hx (by simp)
          | cons x own => exact hown
        exact servesBelow_of_readServer hlonger hkind hdrop
          (by rw [← List.append_assoc]; exact List.append_ne_nil_of_left_ne_nil hne blanks)
          hauthority hstop hserver
  · exact absurd h (by simp)

/-- A text is what is left of it without the slashes at its end, and these slashes. -/
theorem exists_trimSlashes_append (s : String) :
    ∃ n, s = RegistrySettings.trimSlashes s ++ String.ofList (List.replicate n '/') := by
  refine ⟨(s.toList.reverse.takeWhile (· == '/')).length, ?_⟩
  have hslashes : List.replicate (s.toList.reverse.takeWhile (· == '/')).length '/' =
      (s.toList.reverse.takeWhile (· == '/')).reverse := by
    symm
    rw [List.eq_replicate_iff]
    refine ⟨List.length_reverse, ?_⟩
    intro c hc
    have hslash := List.mem_takeWhile_imp (List.mem_reverse.1 hc)
    exact eq_of_beq hslash
  apply String.toList_inj.1
  rw [hslashes]
  simp [RegistrySettings.trimSlashes, ← List.reverse_append]

/-- An address of the web without the slashes at its end is read the same below it, whatever the
path is: either there is no URL for any path, or the server is always that of the address. What
comes before the path is then the address's own path, but for blanks and slashes at its end. -/
theorem exists_servesBelow {address : String} {base : Url} (h : ofText address = .ok base)
    (hhttp : base.isHttp = true) :
    (∃ f, ∀ path : String,
      ofText (RegistrySettings.trimSlashes address ++ "/" ++ path) = .error f) ∨
    ∃ (server : Url) (after own : List Char),
      ServesBelow (RegistrySettings.trimSlashes address) server after ∧
      base = server.withPath own ∧ (∀ c ∈ after, c ∈ own ∨ c.toNat ≤ 0x20) ∧
      ∀ c ∈ own, c ∈ after ∨ c = '/' := by
  obtain ⟨n, hslashes⟩ := exists_trimSlashes_append address
  cases n with
  | succ n =>
    -- the address is itself one below the trimmed one
    have hbelow : address = RegistrySettings.trimSlashes address ++ "/" ++
        String.ofList (List.replicate n '/') := by
      apply String.toList_inj.1
      have hlist := congrArg String.toList hslashes
      rw [List.replicate_succ] at hlist
      simpa using hlist
    rw [hbelow] at h
    obtain ⟨server, after, hserves, hbase⟩ := servesBelow_of_ok h hhttp
    refine Or.inr ⟨server, after, _, hserves, hbase,
      fun c hc => Or.inl (List.mem_append_left _ hc), ?_⟩
    intro c hc
    rw [← List.replicate_succ] at hc
    exact (List.mem_append.1 hc).imp_right List.eq_of_mem_replicate
  | zero =>
    have hsame : RegistrySettings.trimSlashes address = address := by
      rw [List.replicate_zero, String.ofList_nil, String.append_empty] at hslashes
      exact hslashes.symm
    rw [hsame]
    rcases servesBelow_self h hhttp with herror | ⟨server, own, blanks, hserves, hbase, hblanks⟩
    · exact Or.inl herror
    · refine Or.inr ⟨server, own ++ blanks, own, hserves, hbase, ?_,
        fun c hc => Or.inl (List.mem_append_left _ hc)⟩
      intro c hc
      exact (List.mem_append.1 hc).imp_right (hblanks c)

/-- In particular all that comes before the path is the address's own path, or blank. -/
theorem servesBelow_trimSlashes {address : String} {base : Url} (h : ofText address = .ok base)
    (hhttp : base.isHttp = true) :
    (∃ f, ∀ path : String,
      ofText (RegistrySettings.trimSlashes address ++ "/" ++ path) = .error f) ∨
    ∃ (server : Url) (after own : List Char),
      ServesBelow (RegistrySettings.trimSlashes address) server after ∧
      base = server.withPath own ∧ ∀ c ∈ after, c ∈ own ∨ c.toNat ≤ 0x20 := by
  refine (exists_servesBelow h hhttp).imp_right ?_
  rintro ⟨server, after, own, hserves, hbase, hafter, -⟩
  exact ⟨server, after, own, hserves, hbase, hafter⟩

end RegistryConsole.Url
