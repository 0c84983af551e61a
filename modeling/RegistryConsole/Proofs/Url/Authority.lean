import Mathlib.Data.List.Basic
import Mathlib.Data.List.Chain
import RegistryConsole.Proofs.Spans
import RegistryConsole.Url.Parse

/-! # The server that a URL names

The user, the host and the port of a web address are read from what stands between the scheme and
the first slash, backslash, question mark or number sign. Nothing after that mark has a say in
them. -/

namespace RegistryConsole

/-! ## The mapping of names -/

namespace Host

namespace Capitals

/-- Whether all of some capitals stand before all of some others. -/
def Before (r r' : Capitals) : Prop :=
  r.last < r'.first ∧ r'.first ≤ r'.last

instance (r r' : Capitals) : Decidable (r.Before r') :=
  inferInstanceAs (Decidable (r.last < r'.first ∧ r'.first ≤ r'.last))

instance : Trans Before Before Before :=
  ⟨fun hab hbc => ⟨Nat.lt_trans (Nat.lt_of_lt_of_le hab.1 hab.2) hbc.1, hbc.2⟩⟩

theorem le_of_has {r : Capitals} {n : Nat} (h : r.has n = true) : r.first ≤ n ∧ n ≤ r.last := by
  rw [has, Bool.and_eq_true, Bool.and_eq_true, decide_eq_true_eq, decide_eq_true_eq] at h
  exact h.1

theorem Before.not_has {r r' : Capitals} (h : r.Before r') (n : Nat) :
    ¬(r.has n = true ∧ r'.has n = true) := by
  rintro ⟨hn, hn'⟩
  have hlast := (le_of_has hn).2
  have hfirst := (le_of_has hn').1
  exact absurd h.1 (by omega)

end Capitals

theorem pairwise_capitals : capitals.Pairwise Capitals.Before :=
  List.isChain_iff_pairwise.1 (by decide +kernel)

/-- They leave out ASCII, the wide forms and the full stops. -/
theorem range_of_mem_capitals : ∀ r ∈ capitals, 0x80 ≤ r.first ∧
    (r.last < 0x3002 ∨ 0x3002 < r.first ∧ r.last < 0xFF01 ∨ 0xFF61 < r.first) := by
  decide +kernel

/-- Capitals that have a character are the only ones that have it. -/
theorem find?_capitals {r : Capitals} {n : Nat} (hr : r ∈ capitals) (hn : r.has n = true) :
    capitals.find? (·.has n) = some r := by
  obtain ⟨before, after, hsplit⟩ := List.append_of_mem hr
  have hapart := pairwise_capitals
  rw [hsplit, List.pairwise_append] at hapart
  have hhere : (r :: after).find? (·.has n) = some r := List.find?_cons_of_pos hn
  rw [hsplit, List.find?_append, List.find?_eq_none.2, Option.none_or, hhere]
  intro r' hr' hn'
  exact (hapart.2.2 r' hr' r List.mem_cons_self).not_has n ⟨hn', hn⟩

/-- The mapping of names is the one that is assumed. -/
theorem assumedMapping_lowerLetter (c : Char) : AssumedMapping c (lowerLetter c) := by
  have hwide : ∀ k, narrow? c.toNat = some k → ¬c.toNat < 0x80 := by
    intro k hk hascii
    rw [narrow?, if_neg (by omega), if_neg (by omega)] at hk
    exact absurd hk (by simp)
  have hcapital : ∀ r ∈ capitals, r.has c.toNat = true →
      ¬c.toNat < 0x80 ∧ narrow? c.toNat = none := by
    intro r hr hn
    have hrange := range_of_mem_capitals r hr
    have hle := Capitals.le_of_has hn
    refine ⟨by omega, ?_⟩
    rw [narrow?, if_neg (by omega), if_neg (by omega)]
  constructor
  case ascii => exact fun hascii => if_pos hascii
  case wide =>
    intro k hk
    simp only [lowerLetter, if_neg (hwide k hk), hk]
  case capital =>
    intro r hr hn
    obtain ⟨hascii, hnone⟩ := hcapital r hr hn
    simp only [lowerLetter, if_neg hascii, hnone, find?_capitals hr hn]
  case other =>
    intro hascii hnone hall
    have hfind : capitals.find? (·.has c.toNat) = none :=
      List.find?_eq_none.2 fun r hr => by simp [hall r hr]
    simp only [lowerLetter, if_neg (Nat.not_lt.2 hascii), hnone, hfind]

/-- What stands before the capitals of ASCII is no capital. -/
theorem toLower_of_lt {c : Char} (h : c.toNat < 0x41) : c.toLower = c := by
  unfold Char.toLower
  refine dif_neg fun hcapital => ?_
  have hfirst : 'A'.val.toNat ≤ c.toNat := UInt32.le_iff_toNat_le.1 hcapital.1
  exact absurd h (Nat.not_lt.2 hfirst)

end Host

/-! ## Hosts that end in a blank -/

namespace Escape

/-- An octet that is no percent sign stands for itself. -/
theorem decode_cons_of_ne {a : UInt8} (ha : a ≠ 0x25) (rest : Bytes) :
    decode (a :: rest) = a :: decode rest := by
  rw [decode]
  exact fun _ _ _ h => absurd h ha

/-- An octet at the end that is no digit of an escape stands for itself. -/
theorem decode_concat {b : UInt8} (hb : hexValue? b = none) (x : Bytes) :
    decode (x ++ [b]) = decode x ++ [b] := by
  fun_induction decode x with
  | case1 a c rest m n hm hn ih => simp only [List.cons_append, decode, hm, hn, ih]
  | case2 a c rest hnone ih =>
    simp only [List.cons_append, decode] at ih ⊢
    rw [ih]
  | case3 a rest hlong ih =>
    by_cases ha : a = 0x25
    · subst ha
      match rest, ih, hlong with
      | [], _, _ => simp [decode]
      | [c], ih, _ =>
        have hshort : decode (0x25 :: [c, b]) = 0x25 :: decode [c, b] := by
          rw [decode, hb]
          cases hexValue? c <;> rfl
        rw [List.cons_append, List.singleton_append, hshort]
        exact congrArg _ ih
      | c :: d :: more, _, hlong => exact absurd rfl (hlong c d more rfl)
    · rw [List.cons_append, decode_cons_of_ne ha, ih, List.cons_append]
  | case4 => rw [List.nil_append]; simp [decode]

end Escape

namespace Utf8

/-- The octets of a longer character lie above the ASCII ones. -/
theorem low_of_step {state : Option Pending} {b : UInt8} {p : Pending}
    (h : step state b = .start p) : 0x80 ≤ p.low := by
  cases state with
  | none =>
    simp only [step, opening] at h
    repeat' split at h
    all_goals first
      | cases h
        simp
      | contradiction
  | some q =>
    simp only [step, Pending.push] at h
    repeat' split at h
    all_goals first
      | cases h
        simp
      | contradiction

/-- An ASCII octet at the end is a character of its own. -/
theorem decodeFrom_concat {b : UInt8} (hb : b.toNat < 0x80) {state : Option Pending}
    (hstate : ∀ p ∈ state, 0x80 ≤ p.low) (y : Bytes) :
    decodeFrom state (y ++ [b]) =
      (decodeFrom state y).map fun cs => cs ++ [Char.ofNat b.toNat] := by
  induction y generalizing state with
  | nil =>
    cases state with
    | none => simp [decodeFrom, step, opening, hb]
    | some p =>
      have hlow := hstate p rfl
      have hpush : step (some p) b = .bad := by
        rw [step, Pending.push, if_neg (by omega)]
      simp [decodeFrom, hpush]
  | cons c y ih =>
    rw [List.cons_append, decodeFrom, decodeFrom]
    cases hstep : step state c with
    | whole d =>
      dsimp only
      rw [ih (by simp), Option.map_map, Option.map_map]
      rfl
    | start p =>
      dsimp only
      exact ih fun q hq => by
        obtain rfl := Option.some.inj hq
        exact low_of_step hstep
    | bad => rfl

end Utf8

namespace Host

/-- No name ends in a blank. -/
theorem name?_concat_blank {c : Char} (hc : c.toNat ≤ 0x20) (cs : List Char) :
    name? (cs ++ [c]) = none := by
  have hsoft : c ≠ '\u00ad' := by
    rintro rfl
    exact absurd hc (by decide)
  have hlower : lowerLetter c = c :=
    ((assumedMapping_lowerLetter c).ascii (by omega)).trans (toLower_of_lt (by omega))
  have hname : isNameChar c = false := by
    simp only [isNameChar]
    rw [if_pos (by omega), decide_eq_false (by omega)]
    rfl
  rw [name?]
  simp [List.filter_append, hsoft, hlower, hname]

/-- No host ends in a blank. -/
theorem ofText_concat_blank {c : Char} (hc : c.toNat ≤ 0x20) (cs : List Char) :
    ∃ f, ofText (cs ++ [c]) = .error f := by
  have hbracket : c ≠ ']' := by
    rintro rfl
    exact absurd hc (by decide)
  have hname : ∀ text : List Char, (Utf8.decode? (Escape.decode (Utf8.encode (text ++ [c])))).bind
      name? = none := by
    intro text
    have hoctet : Utf8.encode [c] = [UInt8.ofNat c.toNat] := by
      rw [Utf8.encode_cons, Utf8.encodeChar]
      simp [show c.toNat < 0x80 by omega]
    have htoNat : (UInt8.ofNat c.toNat).toNat = c.toNat := Utf8.toNat_octet (by omega)
    have hhex : Escape.hexValue? (UInt8.ofNat c.toNat) = none := by
      rw [Escape.hexValue?]
      simp only [htoNat]
      rw [if_neg (by omega), if_neg (by omega), if_neg (by omega)]
    rw [Utf8.encode_append, hoctet, Escape.decode_concat hhex, Utf8.decode?,
      Utf8.decodeFrom_concat (by omega) (by simp), htoNat, Char.ofNat_toNat]
    cases Utf8.decodeFrom none (Escape.decode (Utf8.encode text)) with
    | none => rfl
    | some ds => exact name?_concat_blank hc ds
  unfold ofText
  split
  · next rest hcs =>
    cases cs with
    | nil =>
      obtain ⟨rfl, -⟩ := List.cons.inj hcs
      exact absurd hc (by decide)
    | cons d cs =>
      obtain ⟨-, hrest⟩ := List.cons.inj hcs
      have hlast : rest.getLast? = some c := by
        rw [← hrest]
        exact List.getLast?_concat
      rw [hlast, if_neg fun h => hbracket (Option.some.inj h)]
      exact ⟨_, rfl⟩
  · rw [hname cs]
    exact ⟨_, rfl⟩

end Host

namespace Url

/-! ## Host and port

`text` holds no mark that ends the authority, and `after` is what such a mark starts. -/

section

variable {text after : List Char}

/-- The host and what follows it are the whole text. -/
theorem splitHost_join (special inBrackets : Bool) (text : List Char) :
    (splitHost special inBrackets text).1 ++ (splitHost special inBrackets text).2 = text := by
  fun_induction splitHost special inBrackets text with
  | case1 => rfl
  | case2 => rfl
  | case3 inBrackets c rest hc inside host more hsplit ih =>
    rw [hsplit] at ih
    exact congrArg (c :: ·) ih

/-- What follows the host starts with a colon, if anything does. -/
theorem splitHost_rest (inBrackets : Bool) (htext : ∀ x ∈ text, endsAuthority true x = false) :
    (splitHost true inBrackets text).2 = [] ∨
      ∃ digits, (splitHost true inBrackets text).2 = ':' :: digits := by
  fun_induction splitHost true inBrackets text with
  | case1 => exact Or.inl rfl
  | case2 inBrackets c rest hc =>
    rw [htext c List.mem_cons_self, Bool.false_or, Bool.and_eq_true, beq_iff_eq] at hc
    exact Or.inr ⟨rest, by rw [hc.1]⟩
  | case3 inBrackets c rest hc inside host more hsplit ih =>
    rw [hsplit] at ih
    exact ih fun x hx => htext x (List.mem_cons_of_mem c hx)

/-- What the mark starts is no part of the host. -/
theorem splitHost_append (inBrackets : Bool) (htext : ∀ x ∈ text, endsAuthority true x = false)
    (hafter : ∀ x ∈ after.head?, endsAuthority true x = true) :
    splitHost true inBrackets (text ++ after) =
      ((splitHost true inBrackets text).1, (splitHost true inBrackets text).2 ++ after) := by
  induction text generalizing inBrackets with
  | nil =>
    cases after with
    | nil => rfl
    | cons x after =>
      have hx : (endsAuthority true x || (x == ':' && !inBrackets)) = true := by
        rw [hafter x rfl, Bool.true_or]
      show splitHost true inBrackets (x :: after) = ([], x :: after)
      rw [splitHost, if_pos hx]
  | cons c text ih =>
    have ih := fun b => ih b fun x hx => htext x (List.mem_cons_of_mem c hx)
    rw [List.cons_append, splitHost, splitHost]
    split
    · rfl
    · dsimp only
      rw [ih]

/-- No digit ends the authority. -/
theorem endsAuthority_of_isDigit {c : Char} (hc : c.isDigit = true) :
    endsAuthority true c = false := by
  rw [Bool.eq_false_iff]
  intro h
  simp only [endsAuthority, Bool.true_and, Bool.or_eq_true, beq_iff_eq] at h
  rcases h with ((rfl | rfl) | rfl) | rfl <;> exact absurd hc (by decide)

/-- No blank ends the authority. -/
theorem endsAuthority_of_blank {c : Char} (hc : c.toNat ≤ 0x20) :
    endsAuthority true c = false := by
  rw [Bool.eq_false_iff]
  intro h
  simp only [endsAuthority, Bool.true_and, Bool.or_eq_true, beq_iff_eq] at h
  rcases h with ((rfl | rfl) | rfl) | rfl <;> exact absurd hc (by decide)

/-- The port is read from the digits before the mark. -/
theorem readPort_append (usual : Option Nat) (htext : ∀ x ∈ text, endsAuthority true x = false)
    (hafter : ∀ x ∈ after.head?, endsAuthority true x = true) :
    readPort usual (text ++ after) = (readPort usual text).map fun p => (p.1, after) := by
  obtain ⟨digits, rest, rfl, hdigits, hrest⟩ := exists_span Char.isDigit text
  have hstop : ∀ x ∈ (rest ++ after).head?, x.isDigit = false := by
    cases rest with
    | nil =>
      intro x hx
      rw [Bool.eq_false_iff]
      intro hd
      exact absurd (hafter x hx) (by rw [endsAuthority_of_isDigit hd]; simp)
    | cons x rest => exact hrest
  unfold readPort
  dsimp only
  rw [List.append_assoc, takeWhile_append_of_stop hdigits hstop,
    takeWhile_append_of_stop hdigits hrest, List.drop_left, List.drop_left]
  cases rest with
  | cons x rest =>
    -- something else than a digit stands before the mark
    have hx : endsAuthority true x = false := htext x (by simp)
    simp [hx, Except.map]
  | nil =>
    have hopen : (after.head?.any fun x => !endsAuthority true x) = false := by
      cases after with
      | nil => rfl
      | cons x after => simp [hafter x rfl]
    rw [List.nil_append, hopen]
    simp only [List.head?_nil, Option.any_none, Bool.false_eq_true, if_false]
    split
    · rfl
    · split <;> rfl

/-- No port ends in a blank. -/
theorem readPort_concat_blank (usual : Option Nat) {c : Char} (hc : c.toNat ≤ 0x20)
    (htext : ∀ x ∈ text ++ [c], endsAuthority true x = false) :
    readPort usual (text ++ [c]) = .error .badPort := by
  obtain ⟨digits, rest, hjoin, hdigits, hrest⟩ := exists_span Char.isDigit (text ++ [c])
  have hblank : c.isDigit = false := by
    rw [Bool.eq_false_iff]
    intro h
    simp only [Char.isDigit, Bool.and_eq_true, decide_eq_true_eq] at h
    exact absurd (UInt32.le_iff_toNat_le.1 h.1) (by
      show ¬ 48 ≤ c.toNat
      omega)
  unfold readPort
  dsimp only
  rw [hjoin] at htext ⊢
  rw [takeWhile_append_of_stop hdigits hrest, List.drop_left]
  cases rest with
  | nil =>
    rw [List.append_nil] at hjoin
    have hlast : c ∈ digits := hjoin ▸ List.mem_append_right text List.mem_cons_self
    exact absurd (hdigits c hlast) (by rw [hblank]; simp)
  | cons x rest =>
    have hx : endsAuthority true x = false := htext x (by simp)
    simp [hx]

/-- What a host is followed by: a port after a colon, or none. -/
def readAfterHost (kind : SchemeKind) (host : List Char) :
    List Char → Except UrlFault (List Char × Option Nat × List Char)
  | ':' :: digits =>
    if host = [] then .error .emptyHost
    else (readPort kind.port? digits).map fun p => (host, p.1, p.2)
  | rest => .ok (host, none, rest)

/-- How host and port are read once the host is told from what follows it. -/
theorem readHostAndPort_eq (kind : SchemeKind) {name rest : List Char}
    (hsplit : splitHost kind.isSpecial false text = (name, rest)) :
    readHostAndPort kind text =
      match readHost kind name with
      | .error f => .error f
      | .ok host => readAfterHost kind host rest := by
  unfold readHostAndPort readAfterHost
  rw [hsplit]
  dsimp only
  cases readHost kind name with
  | error f => rfl
  | ok host =>
    simp only [bind, Except.bind]
    cases rest with
    | nil => rfl
    | cons c digits =>
      by_cases hcolon : c = ':'
      · subst hcolon
        by_cases hhost : host = []
        · simp [hhost]
        · cases readPort kind.port? digits with
          | error f => simp [hhost, Except.map]
          | ok p => simp [hhost, Except.map]
      · simp [hcolon]

/-- Host and port are read from what stands before the mark. -/
theorem readHostAndPort_append {kind : SchemeKind} (hkind : kind.isSpecial = true)
    (htext : ∀ x ∈ text, endsAuthority true x = false)
    (hafter : ∀ x ∈ after.head?, endsAuthority true x = true) :
    readHostAndPort kind (text ++ after) =
      (readHostAndPort kind text).map fun p => (p.1, p.2.1, after) := by
  have hjoin := splitHost_join true false text
  have hrest := splitHost_rest false htext
  have happend := splitHost_append false htext hafter
  obtain ⟨name, rest, hsplit⟩ : ∃ name rest, splitHost true false text = (name, rest) :=
    ⟨_, _, rfl⟩
  -- the host is the same with the mark, and the port is read from what follows the host
  rw [hsplit] at hjoin hrest happend
  rw [← hkind] at hsplit happend
  rw [readHostAndPort_eq _ hsplit, readHostAndPort_eq _ happend]
  cases readHost kind name with
  | error f => rfl
  | ok host =>
    rcases hrest with hrest | ⟨digits, hrest⟩
    · dsimp only at hrest
      subst hrest
      cases after with
      | nil => rfl
      | cons x after =>
        have hcolon : x ≠ ':' := by
          rintro rfl
          exact absurd (hafter ':' rfl) (by decide)
        simp [readAfterHost, Except.map, hcolon]
    · dsimp only at hrest hjoin
      subst hrest
      have hin : ∀ x ∈ digits, endsAuthority true x = false := by
        intro x hx
        apply htext
        rw [← hjoin]
        exact List.mem_append_right _ (List.mem_cons_of_mem _ hx)
      simp only [List.cons_append, readAfterHost]
      by_cases hhost : host = []
      · rw [if_pos hhost, if_pos hhost]
        rfl
      · rw [if_neg hhost, if_neg hhost, readPort_append _ hin hafter]
        cases readPort kind.port? digits <;> rfl

/-- No host and port end in a blank. -/
theorem readHostAndPort_concat_blank (port : Nat) {c : Char} (hc : c.toNat ≤ 0x20)
    (htext : ∀ x ∈ text ++ [c], endsAuthority true x = false) :
    ∃ f, readHostAndPort (.web port) (text ++ [c]) = .error f := by
  have hjoin := splitHost_join true false (text ++ [c])
  have hrest := splitHost_rest false htext
  obtain ⟨name, rest, hsplit⟩ : ∃ name rest, splitHost true false (text ++ [c]) = (name, rest) :=
    ⟨_, _, rfl⟩
  rw [hsplit] at hjoin hrest
  rw [readHostAndPort_eq (.web port) hsplit]
  rcases hrest with hrest | ⟨digits, hrest⟩
  · -- the blank is the end of the host
    dsimp only at hrest hjoin
    rw [hrest, List.append_nil] at hjoin
    obtain ⟨f, hf⟩ := Host.ofText_concat_blank hc text
    have hread : readHost (.web port) name = .error f := by
      rw [hjoin]
      exact hf
    rw [hread]
    exact ⟨f, rfl⟩
  · -- the blank is the end of the port
    dsimp only at hrest hjoin
    subst hrest
    cases readHost (.web port) name with
    | error f => exact ⟨f, rfl⟩
    | ok host =>
      dsimp only
      rw [readAfterHost]
      by_cases hhost : host = []
      · rw [if_pos hhost]
        exact ⟨_, rfl⟩
      · obtain ⟨front, rfl⟩ : ∃ front, digits = front ++ [c] := by
          rcases List.eq_nil_or_concat' digits with rfl | ⟨front, d, rfl⟩
          · obtain ⟨-, hlast⟩ := List.append_inj' hjoin rfl
            obtain rfl := List.singleton_inj.1 hlast
            exact absurd hc (by decide)
          · rw [← List.cons_append, ← List.append_assoc] at hjoin
            obtain ⟨-, hlast⟩ := List.append_inj' hjoin rfl
            exact ⟨front, by rw [hlast]⟩
        have hin : ∀ x ∈ front ++ [c], endsAuthority true x = false := by
          intro x hx
          apply htext
          rw [← hjoin]
          exact List.mem_append_right _ (List.mem_cons_of_mem _ hx)
        rw [if_neg hhost, readPort_concat_blank _ hc hin]
        exact ⟨_, rfl⟩

/-! ## The server -/

/-- The URL of a server as far as it is known before the path. -/
def readServer (scheme authority : List Char) : Except UrlFault Url :=
  let (user, hostAndPort) := (splitUser? authority).getD ([], authority)
  let (name, password) := readUser user
  match readHostAndPort (.of scheme) hostAndPort with
  | .error f => .error f
  | .ok (host, port, _) =>
    if host = [] ∧ (name ≠ [] ∨ password.isSome) then .error .emptyHost
    else .ok ⟨scheme, name, password, some host, port, .segments [], none, none⟩

/-- What stands after the user is a part of the text, at its end. -/
theorem splitUser?_suffix (text : List Char) :
    ((splitUser? text).getD ([], text)).2 <:+ text := by
  unfold splitUser?
  dsimp only
  split
  · show (text.reverse.takeWhile (· != '@')).reverse <:+ text
    rw [← List.reverse_prefix, List.reverse_reverse]
    exact List.takeWhile_prefix _
  · exact List.suffix_refl text

/-- A character at the end that is no at sign belongs to the host and port. -/
theorem splitUser?_concat {c : Char} (hc : c ≠ '@') (text : List Char) :
    ∃ user hostAndPort, (splitUser? (text ++ [c])).getD ([], text ++ [c]) =
      (user, hostAndPort ++ [c]) ∧ hostAndPort ++ [c] <:+ text ++ [c] := by
  have hsuffix := splitUser?_suffix (text ++ [c])
  have htake : ((text ++ [c]).reverse.takeWhile (· != '@')).reverse =
      (text.reverse.takeWhile (· != '@')).reverse ++ [c] := by
    simp [hc]
  unfold splitUser? at hsuffix ⊢
  rw [htake] at hsuffix ⊢
  dsimp only at hsuffix ⊢
  split
  · exact ⟨_, _, rfl, by rwa [if_pos (by assumption)] at hsuffix⟩
  · exact ⟨_, _, rfl, List.suffix_refl _⟩

/-- The URL of a web address is that of its server, with a path, query and fragment. -/
theorem readAuthority_append {scheme : List Char} {port : Nat}
    (hkind : SchemeKind.of scheme = .web port)
    (htext : ∀ x ∈ text, endsAuthority true x = false)
    (hafter : ∀ x ∈ after.head?, endsAuthority true x = true) :
    readAuthority scheme (text ++ after) =
      (readServer scheme text).map fun server => server.withPath after := by
  have hspecial : (SchemeKind.of scheme).isSpecial = true := by rw [hkind]; rfl
  have htake : (text ++ after).takeWhile (!endsAuthority true ·) = text :=
    takeWhile_append_of_stop (fun x hx => by rw [htext x hx]; rfl)
      (fun x hx => by rw [hafter x hx]; rfl)
  have hsuffix := splitUser?_suffix text
  unfold readAuthority readServer
  dsimp only
  rw [hspecial, htake, List.drop_left]
  obtain ⟨user, hostAndPort, huser⟩ :
      ∃ user hostAndPort, (splitUser? text).getD ([], text) = (user, hostAndPort) := ⟨_, _, rfl⟩
  rw [huser] at hsuffix ⊢
  dsimp only at hsuffix ⊢
  have hin : ∀ x ∈ hostAndPort, endsAuthority true x = false :=
    fun x hx => htext x (hsuffix.subset hx)
  rw [readHostAndPort_append hspecial hin hafter]
  split
  · next hempty =>
    -- without a host and port there is no server either
    rw [hempty.2.2.1, hkind]
    rfl
  · cases readHostAndPort (.of scheme) hostAndPort with
    | error f => rfl
    | ok parts =>
      obtain ⟨host, port, rest⟩ := parts
      simp only [bind, Except.bind, Except.map]
      split <;> rfl

/-- No server ends in a blank. -/
theorem readServer_concat_blank {scheme : List Char} {port : Nat}
    (hkind : SchemeKind.of scheme = .web port) {c : Char} (hc : c.toNat ≤ 0x20)
    (htext : ∀ x ∈ text ++ [c], endsAuthority true x = false) :
    ∃ f, readServer scheme (text ++ [c]) = .error f := by
  have hat : c ≠ '@' := by
    rintro rfl
    exact absurd hc (by decide)
  obtain ⟨user, hostAndPort, huser, hsuffix⟩ := splitUser?_concat hat text
  obtain ⟨f, hf⟩ := readHostAndPort_concat_blank port hc
    (fun x hx => htext x (hsuffix.subset hx))
  unfold readServer
  rw [huser, hkind]
  dsimp only
  rw [hf]
  exact ⟨f, rfl⟩

end

end Url

end RegistryConsole
