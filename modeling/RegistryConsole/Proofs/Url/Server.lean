import RegistryConsole.Proofs.Objects
import RegistryConsole.Proofs.Target
import RegistryConsole.Proofs.Url.Host

/-! # Plain paths on a server

A server that can be called at all can be called with any plain path and query, up to the greatest
length of a target. Its address with such a path behind it is read as a URL, the URL's text as a
target, and the target again as path and query, and all the time they stay as they are. -/

namespace RegistryConsole

/-! ## What stays as it is, octet by octet -/

/-- A test that the octets of all characters of an ASCII text pass. -/
theorem Utf8.all_encode {f : UInt8 → Bool} {cs : List Char}
    (h : ∀ c ∈ cs, c.toNat < 0x80 ∧ f (UInt8.ofNat c.toNat) = true) :
    (encode cs).all f = true := by
  apply List.all_eq_true.2
  intro b hb
  obtain ⟨c, hc, hb⟩ := List.mem_flatMap.1 hb
  obtain ⟨hascii, hf⟩ := h c hc
  rw [encodeChar_ascii hascii, List.mem_singleton] at hb
  rwa [hb]

theorem Escape.toNat_lt_of_inQuery {c : Char} (h : inQuery c = false) : c.toNat < 0x7F := by
  simp only [inQuery, isOutside, Bool.or_eq_false_iff, decide_eq_false_iff_not] at h
  omega

namespace RequestTarget

theorem isPathOctet_of_isPlainChar {c : Char} (h : Url.IsPlainChar c) :
    c.toNat < 0x80 ∧ isPathOctet (UInt8.ofNat c.toNat) = true := by
  have hall : ∀ n < 0x7F, Url.IsPlainChar (Char.ofNat n) → isPathOctet (UInt8.ofNat n) = true := by
    decide
  have hquery : Escape.inQuery c = false := by
    have hpath := h.1
    simp only [Escape.inPath, Bool.or_eq_false_iff] at hpath
    exact hpath.1.1.1.1
  have hlow := Escape.toNat_lt_of_inQuery hquery
  refine ⟨by omega, hall c.toNat hlow ?_⟩
  rwa [Char.ofNat_toNat]

theorem isQueryOctet_of_inWebQuery {c : Char} (h : Escape.inWebQuery c = false) :
    c.toNat < 0x80 ∧ isQueryOctet (UInt8.ofNat c.toNat) = true := by
  have hall : ∀ n < 0x7F, Escape.inWebQuery (Char.ofNat n) = false →
      isQueryOctet (UInt8.ofNat n) = true := by decide
  have hlow := Escape.toNat_lt_of_inQuery (Bool.or_eq_false_iff.1 h).1
  refine ⟨by omega, hall c.toNat hlow ?_⟩
  rwa [Char.ofNat_toNat]

/-! ## Path and query of a target -/

section

variable {u : Url} (hpath : ∀ c ∈ u.path.text, Url.IsPlainChar c)
  (hquery : ∀ q ∈ u.query, Url.IsPlainQuery q)

include hpath hquery

/-- A plain target has no fragment. -/
theorem mark_not_mem_target : '#' ∉ u.target := by
  intro hmem
  rcases List.mem_append.1 hmem with h | h
  · exact absurd (hpath '#' h).1 (by decide)
  · unfold Url.queryText at h
    split at h
    · next q hq =>
      rcases List.mem_cons.1 h with h | h
      · exact absurd h (by decide)
      · exact absurd (hquery q hq '#' h) (by decide)
    · exact absurd h List.not_mem_nil

/-- The octets of a plain target are all before a fragment, and those of the path are all before the
query. -/
theorem span_encode_target :
    (Utf8.encode u.target).takeWhile (· != 0x23) = Utf8.encode u.target ∧
    (Utf8.encode u.target).takeWhile (· != 0x3F) = Utf8.encode u.path.text ∧
    (Utf8.encode u.target).drop (Utf8.encode u.path.text).length = Utf8.encode u.queryText := by
  have hjoin : Utf8.encode u.target = Utf8.encode u.path.text ++ Utf8.encode u.queryText :=
    Utf8.encode_append _ _
  have hstart : ∀ b ∈ Utf8.encode u.path.text, (b != 0x3F) = true := by
    intro b hb
    rw [bne_iff_ne]
    rintro rfl
    exact absurd (hpath '?' (Utf8.mem_of_mem_encode (by decide) hb)).1 (by decide)
  have hstop : ∀ b ∈ (Utf8.encode u.queryText).head?, (b != 0x3F) = false := by
    intro b hb
    unfold Url.queryText at hb
    split at hb
    · rw [← Option.some.inj hb]
      rfl
    · exact absurd hb (by simp)
  refine ⟨List.takeWhile_eq_self_iff.2 fun b hb => ?_, ?_, ?_⟩
  · rw [bne_iff_ne]
    rintro rfl
    exact mark_not_mem_target hpath hquery (Utf8.mem_of_mem_encode (by decide) hb)
  · rw [hjoin]
    exact takeWhile_append_of_stop hstart hstop
  · rw [hjoin, List.drop_left]

/-- A plain path and a plain query are told apart and read as they are. -/
theorem readPath_target :
    readPath (Utf8.encode u.target) =
      .ok (String.ofList u.path.text, u.query.map String.ofList) := by
  obtain ⟨hwhole, htake, hdrop⟩ := span_encode_target hpath hquery
  have hpathOctets : (Utf8.encode u.path.text).all isPathOctet = true :=
    Utf8.all_encode fun c hc => isPathOctet_of_isPlainChar (hpath c hc)
  unfold readPath
  dsimp only
  rw [hwhole, htake, hdrop, hpathOctets, Utf8.toString?, Utf8.decode?_encode]
  cases hq : u.query with
  | none =>
    rw [Url.queryText, hq]
    rfl
  | some q =>
    have hqueryOctets : (Utf8.encode q).all isQueryOctet = true :=
      Utf8.all_encode fun c hc => isQueryOctet_of_inWebQuery (hquery q hq c hc)
    have htext : Utf8.encode u.queryText = 0x3F :: Utf8.encode q := by
      rw [Url.queryText, hq]
      rfl
    rw [htext, List.drop_one, List.tail_cons, hqueryOctets, Utf8.toString?, Utf8.decode?_encode]
    rfl

/-- A target that starts with a slash names no host. -/
theorem ofBytes?_target {path : List Char} (hslash : u.path.text = '/' :: path)
    (hlength : (Utf8.encode u.target).length ≤ maxLength) :
    ofBytes? (Utf8.encode u.target) =
      .ok ⟨"", String.ofList u.path.text, u.query.map String.ofList⟩ := by
  have hread := readPath_target hpath hquery
  have htext : Utf8.encode u.target = 0x2F :: Utf8.encode (path ++ u.queryText) := by
    rw [Url.target, hslash]
    rfl
  unfold ofBytes?
  rw [if_neg (Nat.not_lt.2 hlength)]
  rw [htext] at hread ⊢
  show (readPath (0x2F :: Utf8.encode (path ++ u.queryText)) >>= _) = _
  rw [hread]
  rfl

end

/-! ## Targets that name a host -/

/-- What is read of the part with the host, if it is well-formed, is that part. -/
theorem eq_of_readAuthority {text part : Bytes} (h : readAuthority text = .ok part) :
    part = authorityOf text := by
  unfold readAuthority at h
  obtain ⟨a, -, h⟩ := exists_of_bind_eq_ok h
  split at h
  · exact absurd h (by simp)
  · exact (Except.ok.inj h).symm

variable {host rest : Bytes}

/-- The part with the host ends with it. -/
theorem authorityOf_append (hhost : ∀ b ∈ host, b ≠ 0x2F ∧ b ≠ 0x3F ∧ b ≠ 0x23)
    (hrest : ∀ b ∈ rest.head?, b = 0x2F) : authorityOf (host ++ rest) = host := by
  refine takeWhile_append_of_stop (fun b hb => ?_) fun b hb => ?_
  · simp [hhost b hb]
  · simp [hrest b hb]

theorem authorityOf_eq_self (hhost : ∀ b ∈ host, b ≠ 0x2F ∧ b ≠ 0x3F ∧ b ≠ 0x23) :
    authorityOf host = host := by
  have hnone : ∀ b ∈ ([] : Bytes).head?, b = 0x2F := by simp
  have halone := authorityOf_append hhost hnone
  rwa [List.append_nil] at halone

theorem readAuthority_append (hhost : ∀ b ∈ host, b ≠ 0x2F ∧ b ≠ 0x3F ∧ b ≠ 0x23) :
    readAuthority (host ++ 0x2F :: rest) = readAuthority host := by
  have hsame : authorityOf (host ++ 0x2F :: rest) = authorityOf host := by
    rw [authorityOf_eq_self hhost, authorityOf_append hhost (by simp)]
  rw [readAuthority, readAuthority, hsame]

/-- A web address with a path is a target exactly if it is not too long and both its host and its
path can be read. -/
theorem exists_ofBytes?_web_iff {scheme : List Char}
    (hscheme : scheme = "http".toList ∨ scheme = "https".toList) {text : Bytes}
    (htext : text = Utf8.encode scheme ++ Utf8.ofString "://" ++ host ++ 0x2F :: rest)
    (hhost : ∀ b ∈ host, b ≠ 0x2F ∧ b ≠ 0x3F ∧ b ≠ 0x23) :
    (∃ t, ofBytes? text = .ok t) ↔
      text.length ≤ maxLength ∧ (host ≠ [] ∧ ∃ part, readAuthority host = .ok part) ∧
        ∃ read, readPath (0x2F :: rest) = .ok read := by
  have hfull : ofBytes? text =
      if maxLength < text.length then .error .tooLong else readFull text := by
    rw [htext]
    rcases hscheme with rfl | rfl <;> rfl
  have hname : schemeOf? text = some (Utf8.encode scheme) := by
    rw [htext]
    rcases hscheme with rfl | rfl <;> rfl
  have hshort : ¬maxScheme < (Utf8.encode scheme).length := by
    rcases hscheme with rfl | rfl <;> decide
  have hdrop : text.drop ((Utf8.encode scheme).length + 3) = host ++ 0x2F :: rest := by
    rw [htext]
    rcases hscheme with rfl | rfl <;> rfl
  rw [hfull]
  by_cases hlong : maxLength < text.length
  · simp [hlong, Nat.not_le.2 hlong]
  · rw [if_neg hlong, readFull, hname]
    dsimp only
    rw [if_neg hshort, hdrop, readAuthority_append hhost]
    cases hread : readAuthority host with
    | error f => simp [bind, Except.bind]
    | ok part =>
      have hpart : part = host := (eq_of_readAuthority hread).trans (authorityOf_eq_self hhost)
      have hbehind : (host ++ 0x2F :: rest).drop host.length = 0x2F :: rest := List.drop_left
      simp only [bind, Except.bind, hpart, hbehind]
      by_cases hnil : host = []
      · simp [hnil]
      · cases readPath (0x2F :: rest) with
        | error f => simp [hnil]
        | ok read => simp [hnil, Nat.not_lt.1 hlong]

end RequestTarget

/-! ## Other paths -/

namespace Url

/-- The octets of an address with a host: its scheme, its server, and its target. -/
theorem ofString_text {u : Url} (hhost : u.hasHost = true) (hfragment : u.fragment = none) :
    Utf8.ofString u.text =
      Utf8.encode u.scheme ++ Utf8.ofString "://" ++ Utf8.encode (u.userText ++ u.hostText) ++
        Utf8.encode u.target := by
  have hauthority : u.authorityText = '/' :: '/' :: u.userText ++ u.hostText := by
    unfold authorityText
    cases hsome : u.host with
    | none =>
      rw [hasHost, hsome] at hhost
      exact absurd hhost (by simp)
    | some host => rfl
  have htext : u.textBeforeFragment ++ u.fragmentText =
      u.scheme ++ "://".toList ++ (u.userText ++ u.hostText) ++ u.target := by
    rw [textBeforeFragment, fragmentText, hfragment, hauthority, target]
    simp
  rw [text, Utf8.ofString, String.toList_ofList, htext, Utf8.encode_append, Utf8.encode_append,
    Utf8.encode_append]
  rfl

/-- The URL with another path and another query. -/
def withTarget (u : Url) (path : UrlPath) (query : Option (List Char)) : Url :=
  { u with path, query }

/-- What is sent of a user has nothing to do with path and query. -/
theorem sentUrl_withTarget (u : Url) (path : UrlPath) (query : Option (List Char)) :
    Call.sentUrl (u.withTarget path query) = (Call.sentUrl u).withTarget path query := by
  have hsame : Call.credentials? (u.withTarget path query) = Call.credentials? u := rfl
  unfold Call.sentUrl
  rw [hsame]
  split <;> rfl

/-- Whether a URL is not too long to be sent. -/
def Fits (u : Url) : Prop :=
  (Utf8.ofString (Call.sentUrl u).text).length ≤ RequestTarget.maxLength

instance (u : Url) : Decidable u.Fits :=
  inferInstanceAs (Decidable (_ ≤ _))

section

variable {root : Url} (hcallable : root.IsCallable) (hfragment : root.fragment = none)
  {path : UrlPath} {query : Option (List Char)}

include hcallable hfragment

/-- The octets of a URL as it is sent: scheme and server are those of any other path. -/
theorem ofString_text_withTarget :
    Utf8.ofString (Call.sentUrl (root.withTarget path query)).text =
      Utf8.encode root.scheme ++ Utf8.ofString "://" ++
        Utf8.encode ((Call.sentUrl root).userText ++ (Call.sentUrl root).hostText) ++
          Utf8.encode (root.withTarget path query).target := by
  have hkept : (Call.sentUrl root).scheme = root.scheme ∧
      (Call.sentUrl root).fragment = none ∧ (Call.sentUrl root).hasHost = true := by
    obtain ⟨user, password, hsent⟩ := Call.exists_sentUrl_eq root
    rw [hsent]
    exact ⟨rfl, hfragment, hcallable.host⟩
  rw [sentUrl_withTarget, ofString_text (u := (Call.sentUrl root).withTarget path query) hkept.2.2
    hkept.2.1, ← hkept.1]
  rfl

/-- What is asked for is no longer than the whole URL. -/
theorem length_target_le (hfits : (root.withTarget path query).Fits) :
    (Utf8.encode (root.withTarget path query).target).length ≤ RequestTarget.maxLength := by
  rw [Fits, ofString_text_withTarget hcallable hfragment, List.length_append] at hfits
  omega

/-- Where one path can be called, any plain path can be called, with a plain query, unless the URL
gets too long. -/
theorem isCallable_withTarget
    (hstays : StaysInAuthority ((Call.sentUrl root).userText ++ (Call.sentUrl root).hostText))
    {own cs : List Char} (hroot : root.path.text = '/' :: own) (hpath : path.text = '/' :: cs)
    (hplain : ∀ c ∈ path.text, IsPlainChar c) (hquery : ∀ q ∈ query, IsPlainQuery q)
    (hfits : (root.withTarget path query).Fits) : (root.withTarget path query).IsCallable := by
  have hhost : ∀ b ∈ Utf8.encode ((Call.sentUrl root).userText ++ (Call.sentUrl root).hostText),
      b ≠ 0x2F ∧ b ≠ 0x3F ∧ b ≠ 0x23 := by
    intro b hb
    have hnot : ∀ c : Char, c.toNat < 0x80 → endsAuthority true c = true →
        b ≠ UInt8.ofNat c.toNat := by
      rintro c hascii hends rfl
      have hkept := hstays c (Utf8.mem_of_mem_encode hascii hb)
      exact absurd hends (by rw [hkept]; simp)
    exact ⟨hnot '/' (by decide) (by decide), hnot '?' (by decide) (by decide),
      hnot '#' (by decide) (by decide)⟩
  have hscheme : root.scheme = "http".toList ∨ root.scheme = "https".toList := by
    simpa [isHttp] using hcallable.http
  have htext : ∀ {path : UrlPath} {cs : List Char} (query : Option (List Char)),
      path.text = '/' :: cs →
      Utf8.ofString (Call.sentUrl (root.withTarget path query)).text =
        Utf8.encode root.scheme ++ Utf8.ofString "://" ++
          Utf8.encode ((Call.sentUrl root).userText ++ (Call.sentUrl root).hostText) ++
            0x2F :: Utf8.encode (cs ++ (root.withTarget path query).queryText) := by
    intro path cs query hslash
    rw [ofString_text_withTarget hcallable hfragment, target]
    show _ ++ Utf8.encode (path.text ++ _) = _
    rw [hslash]
    rfl
  -- one path can be called, so all that is left to be read is path and query
  have hread := hcallable.text
  rw [show root = root.withTarget root.path root.query from rfl,
    RequestTarget.exists_ofBytes?_web_iff hscheme (htext root.query hroot) hhost] at hread
  have htarget := RequestTarget.readPath_target (u := root.withTarget path query) hplain hquery
  have hjoin : (root.withTarget path query).target =
      '/' :: (cs ++ (root.withTarget path query).queryText) := by
    show path.text ++ _ = _
    rw [hpath]
    rfl
  rw [hjoin] at htarget
  exact ⟨hcallable.host, hcallable.http,
    (RequestTarget.exists_ofBytes?_web_iff hscheme (htext query hpath) hhost).2
      ⟨hfits, hread.2.1, _, htarget⟩⟩

end

end Url

/-! ## Servers -/

namespace Url

/-- The URL of a path and a query on a server. -/
def resource (server : Url) (path : List Char) (query : Option (List Char)) : Url :=
  { server with path := .segments (path.splitOn '/'), query }

@[simp] theorem text_path_resource (server : Url) (path : List Char)
    (query : Option (List Char)) : (server.resource path query).path.text = '/' :: path :=
  pathText_splitOn path

theorem isPlainChar_of_mem_resource {path : List Char} (hpath : ∀ c ∈ path, IsPlainChar c)
    (server : Url) (query : Option (List Char)) :
    ∀ c ∈ (server.resource path query).path.text, IsPlainChar c := by
  rw [text_path_resource]
  exact List.forall_mem_cons.2 ⟨by decide, hpath⟩

/-- A plain query is kept as it is. -/
theorem withEnd_query {u : Url} (hspecial : u.kind.isSpecial = true) {query : List Char}
    (hquery : IsPlainQuery query) : u.withEnd ('?' :: query) = { u with query := some query } := by
  have htake : query.takeWhile (· != '#') = query :=
    List.takeWhile_eq_self_iff.2 fun c hc => by
      rw [bne_iff_ne]
      rintro rfl
      exact absurd (hquery '#' hc) (by decide)
  have hkept : Escape.text (queryEscapes u.kind.isSpecial) query = query := by
    rw [hspecial]
    exact Escape.text_eq_self hquery
  simp only [withEnd, htake, hkept, List.drop_length]

/-- What adds a query to a URL is no part of its path. -/
theorem isInPath_of_mem_head?_queryText {u : Url} {c : Char} (hc : c ∈ u.queryText.head?) :
    isInPath c = false := by
  unfold queryText at hc
  split at hc
  · obtain rfl := Option.some.inj hc
    rfl
  · exact absurd hc (by simp)

/-- A plain query after a path is that of its URL. -/
theorem withEnd_queryText {server : Url} (hspecial : server.kind.isSpecial = true)
    (hnone : server.query = none) (path : UrlPath) {query : Option (List Char)}
    (hquery : ∀ q ∈ query, IsPlainQuery q) :
    { server with path }.withEnd (server.withTarget path query).queryText =
      server.withTarget path query := by
  cases query with
  | none =>
    show { server with path } = { server with path, query := none }
    rw [← hnone]
  | some q => exact withEnd_query (u := { server with path }) hspecial (hquery q rfl)

/-- A plain path and a plain query after a server are those of its URL. -/
theorem withPath_eq_resource {server : Url} (hspecial : server.kind.isSpecial = true)
    (hnone : server.query = none) {path : List Char} (hpath : IsPlainPath path)
    {query : Option (List Char)} (hquery : ∀ q ∈ query, IsPlainQuery q) :
    server.withPath ('/' :: (path ++ (server.resource path query).queryText)) =
      server.resource path query := by
  have hsegments : pushSegments [] (readSegments path) = path.splitOn '/' := by
    rw [readSegments_eq_splitOn hpath.1, pushSegments_eq_append hpath.2, List.nil_append]
  rw [withPath_of_special hspecial, dropSlash, if_pos (by decide),
    readPath_append [] (fun c hc => (lt_of_isPlainChar (hpath.1 c hc)).2)
      (fun c hc => isInPath_of_mem_head?_queryText hc), hsegments]
  exact withEnd_queryText hspecial hnone _ hquery

/-- A plain query has no blanks. -/
theorem lt_of_mem_queryText {u : Url} (hquery : ∀ q ∈ u.query, IsPlainQuery q) {c : Char}
    (hc : c ∈ u.queryText) : 0x20 < c.toNat := by
  unfold queryText at hc
  split at hc
  · next q hq =>
    rcases List.mem_cons.1 hc with rfl | hc
    · decide
    · have hkept := hquery q hq c hc
      simp only [Escape.inWebQuery, Escape.inQuery, Escape.isOutside, Bool.or_eq_false_iff,
        decide_eq_false_iff_not, beq_eq_false_iff_ne] at hkept
      have hne : c.toNat ≠ 0x20 := fun heq => hkept.1.1.1.1.1.2 (Char.toNat_inj.1 heq)
      omega
  · exact absurd hc List.not_mem_nil

/-- What has no blanks counts as a whole, be it at the start of a text or all of it. -/
theorem clean_eq_self {cs : List Char} (h : ∀ c ∈ cs, 0x20 < c.toNat) :
    keptStart cs = cs ∧ clean cs = cs := by
  have htrimmed : cs.dropWhile isTrimmed = cs := by
    cases cs with
    | nil => rfl
    | cons c rest =>
      have hlarge := h c List.mem_cons_self
      refine List.dropWhile_cons_of_neg ?_
      simp only [isTrimmed, decide_eq_true_eq]
      omega
  rw [keptStart, clean, htrimmed]
  refine ⟨List.filter_eq_self.2 fun c hc => ?_, keptEnd_eq_self h⟩
  rw [isSkipped_of_lt (h c hc)]
  rfl

/-- Whether a text is an authority as a whole: it is not ended within, and has no blanks. -/
def IsAuthority (cs : List Char) : Prop :=
  ∀ c ∈ cs, 0x20 < c.toNat ∧ endsAuthority true c = false

instance (cs : List Char) : Decidable (IsAuthority cs) :=
  List.decidableBAll (fun c : Char => 0x20 < c.toNat ∧ endsAuthority true c = false) cs

/-- Whether `http://` and an authority are the address of a server that can be called, and `root`
its URL. -/
structure IsServer (authority : String) (root : Url) : Prop where
  whole : IsAuthority authority.toList
  read : ofText ("http://" ++ authority) = .ok root
  callable : root.IsCallable

namespace IsServer

variable {authority : String} {root : Url} {path : List Char} {query : Option (List Char)}

/-- The address of a server is read as its scheme and its authority. -/
theorem splitScheme?_address (h : IsServer authority root) :
    keptStart ("http://" ++ authority).toList = ("http://" ++ authority).toList ∧
    clean ("http://" ++ authority).toList = ("http://" ++ authority).toList ∧
    splitScheme? ("http://" ++ authority).toList =
      some ("http".toList, '/' :: '/' :: authority.toList) := by
  have hlarge : ∀ c ∈ ("http://" ++ authority).toList, 0x20 < c.toNat := by
    rw [String.toList_append]
    exact List.forall_mem_append.2 ⟨by simp, fun c hc => (h.whole c hc).1⟩
  have htext : ("http://" ++ authority).toList =
      "http:".toList ++ '/' :: '/' :: authority.toList := by
    rw [String.toList_append]
    rfl
  have hscheme : splitScheme? "http:".toList = some ("http".toList, []) := by decide
  refine ⟨(clean_eq_self hlarge).1, (clean_eq_self hlarge).2, ?_⟩
  rw [htext]
  exact splitScheme?_append hscheme _

/-- The authority does not start with a slash, so only the two slashes before it are dropped. -/
theorem dropWhile_isAnySlash (h : IsServer authority root) :
    ('/' :: '/' :: authority.toList).dropWhile isAnySlash = authority.toList := by
  show authority.toList.dropWhile isAnySlash = authority.toList
  cases hlist : authority.toList with
  | nil => rfl
  | cons c rest =>
    have hc := (h.whole c (hlist ▸ List.mem_cons_self)).2
    refine List.dropWhile_cons_of_neg ?_
    intro hslash
    simp only [isAnySlash, isSlash, Bool.true_and, Bool.or_eq_true, beq_iff_eq] at hslash
    rcases hslash with rfl | rfl <;> exact absurd hc (by decide)

/-- The URL of a server is read from its authority alone. -/
theorem exists_readServer (h : IsServer authority root) :
    authority.toList ≠ [] ∧
      ∃ server, readServer "http".toList authority.toList = .ok server ∧
        root = server.withPath [] := by
  have hkind : SchemeKind.of "http".toList = .web 80 := by decide
  obtain ⟨-, hclean, hscheme⟩ := h.splitScheme?_address
  have hread := h.read
  rw [ofText, hclean, hscheme] at hread
  dsimp only at hread
  rw [readScheme, hkind] at hread
  dsimp only at hread
  rw [h.dropWhile_isAnySlash] at hread
  refine ⟨fun hnil => ?_, ?_⟩
  · rw [hnil, readAuthority_nil hkind] at hread
    exact absurd hread (by simp)
  · rw [← List.append_nil authority.toList,
      readAuthority_append hkind (fun c hc => (h.whole c hc).2) (by simp)] at hread
    cases hserver : readServer "http".toList authority.toList with
    | error f =>
      rw [hserver] at hread
      exact absurd hread (by simp [Except.map])
    | ok server =>
      rw [hserver] at hread
      exact ⟨server, rfl, (Except.ok.inj hread).symm⟩

/-- All addresses below that of a server have this server. -/
theorem exists_servesBelow (h : IsServer authority root) :
    ∃ server, readServer "http".toList authority.toList = .ok server ∧
      ServesBelow ("http://" ++ authority) server [] ∧ root = server.resource [] none := by
  have hkind : SchemeKind.of "http".toList = .web 80 := by decide
  obtain ⟨hkept, -, hscheme⟩ := h.splitScheme?_address
  obtain ⟨hne, server, hserver, hroot⟩ := h.exists_readServer
  have hserves := servesBelow_of_readServer (by rw [hkept, hscheme]) hkind
    (h.dropWhile_isAnySlash.trans (List.append_nil _).symm) (by simpa using hne)
    (fun c hc => (h.whole c hc).2) (by simp) hserver
  refine ⟨server, hserver, hserves, ?_⟩
  rw [hroot, withPath_of_special hserves.special, resource, ← hserves.query]
  rfl

/-- The address of a plain path and a plain query on a server is read as them. -/
theorem ofText_resource (h : IsServer authority root) (hpath : IsPlainPath path)
    (hquery : ∀ q ∈ query, IsPlainQuery q) :
    ofText ("http://" ++ authority ++ "/" ++
      String.ofList (path ++ (root.resource path query).queryText)) =
        .ok (root.resource path query) := by
  obtain ⟨server, -, hserves, rfl⟩ := h.exists_servesBelow
  have hlarge : ∀ c ∈ path ++ (server.resource path query).queryText, 0x20 < c.toNat := by
    intro c hc
    rcases List.mem_append.1 hc with hc | hc
    · exact (lt_of_isPlainChar (hpath.1 c hc)).1
    · exact lt_of_mem_queryText hquery hc
  show ofText ("http://" ++ authority ++ "/" ++
    String.ofList (path ++ (server.resource path query).queryText)) =
      .ok (server.resource path query)
  rw [hserves.read, String.toList_ofList, keptEnd_eq_self hlarge, List.nil_append,
    withPath_eq_resource hserves.special hserves.query hpath hquery]

/-- The URL of a server is one of the web, with nothing but the server in it. -/
theorem scheme_eq (h : IsServer authority root) :
    root.scheme = "http".toList ∧ root.fragment = none ∧ root.resource [] none = root := by
  obtain ⟨server, hserver, -, rfl⟩ := h.exists_servesBelow
  obtain ⟨hscheme, -, hfragment⟩ := readServer_ok hserver
  exact ⟨hscheme, hfragment, rfl⟩

/-- What is sent of the server in a URL is told from the path behind it. -/
theorem staysInAuthority (h : IsServer authority root) :
    StaysInAuthority ((Call.sentUrl root).userText ++ (Call.sentUrl root).hostText) := by
  obtain ⟨server, hserver, -, rfl⟩ := h.exists_servesBelow
  have hkind : SchemeKind.of "http".toList = .web 80 := by decide
  obtain ⟨huser, hhost⟩ := staysInAuthority_of_readServer hkind hserver
  rcases Call.sentUrl_cases (server.resource [] none) with hsent | hsent
  · rw [hsent]
    exact huser.append hhost
  · rw [hsent]
    exact staysInAuthority_nil.append hhost

/-- What is asked for on a server is no longer than the whole URL. -/
theorem length_target_le (h : IsServer authority root) (hfits : (root.resource path query).Fits) :
    (Utf8.encode (root.resource path query).target).length ≤ RequestTarget.maxLength :=
  Url.length_target_le h.callable h.scheme_eq.2.1 hfits

/-- A plain path on a server can be called, with a plain query, unless the URL gets too long. -/
theorem isCallable_resource (h : IsServer authority root)
    (hpath : ∀ c ∈ path, IsPlainChar c) (hquery : ∀ q ∈ query, IsPlainQuery q)
    (hfits : (root.resource path query).Fits) : (root.resource path query).IsCallable := by
  have hroot : root.path.text = '/' :: [] := by
    rw [← h.scheme_eq.2.2]
    exact text_path_resource root [] none
  exact isCallable_withTarget h.callable h.scheme_eq.2.1 h.staysInAuthority hroot
    (text_path_resource root path query) (isPlainChar_of_mem_resource hpath root query) hquery hfits

end IsServer

end Url

end RegistryConsole
