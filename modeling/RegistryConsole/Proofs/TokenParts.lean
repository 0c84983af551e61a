import RegistryConsole.Proofs.Records
import RegistryConsole.Proofs.Signing
import RegistryConsole.Proofs.Token

/-! # What the parts of a token say

An issued token is three parts in Base64 for URLs, joined by dots. The first says that it is a token
signed with RSA and SHA-256 and names the key, whatever text that name is; the second is the claims
of the time at which it was issued; the third is the signature of the other two and the dot between
them. So no token is issued for two names of keys, or at two times. -/

namespace RegistryConsole.Token

/-! ## Three parts -/

/-- Whether a character may stand in a part of a token: a letter, a digit, a hyphen or a low
line. -/
def IsSymbol (c : Char) : Prop :=
  c.isAlphanum = true ∨ c = '-' ∨ c = '_'

instance (c : Char) : Decidable (IsSymbol c) :=
  inferInstanceAs (Decidable (_ ∨ _))

theorem IsSymbol.ne_dot {c : Char} (h : IsSymbol c) : (c == '.') = false := by
  rw [beq_eq_false_iff_ne]
  rintro rfl
  exact absurd h (by decide)

/-- What is written for URLs consists of such characters. -/
theorem isSymbol_of_mem_encodeForUrls {bs : Bytes} :
    ∀ c ∈ Bytes.toLatin (Base64.encodeForUrls bs), IsSymbol c := by
  intro c hc
  obtain ⟨b, hb, rfl⟩ := List.mem_map.1 hc
  have hsymbols : ∀ n < 64, IsSymbol (Char.ofNat (Base64.forUrls n).toNat) := by decide
  have hall := Base64.forall_mem_encodeForUrls (p := fun b => IsSymbol (Char.ofNat b.toNat))
    hsymbols bs
  exact hall b hb

/-- The parts of a token. -/
structure Parts where
  header : List Char
  claims : List Char
  signature : List Char

namespace Parts

/-- What is signed: the first two parts, with the dot between them. -/
def signed (p : Parts) : List Char :=
  p.header ++ '.' :: p.claims

/-- The text of the token. -/
def text (p : Parts) : List Char :=
  p.signed ++ '.' :: p.signature

/-- The octets that a part stands for. -/
def octets? (part : List Char) : Option Bytes :=
  Base64.decodeForUrls? (Utf8.encode part)

/-- What the parts of a token say that was issued at the time `now` with the key `rsa` of the name
`keyId`. -/
structure Say (p : Parts) (keyId : String) (now : Int64) (rsa : Rsa.PrivateKey) : Prop where
  symbols : ∀ c ∈ p.header ++ p.claims ++ p.signature, IsSymbol c
  header : ∃ octets, octets? p.header = some octets ∧
    Json.ofBytes? octets = .ok (.object
      [("alg", .string "RS256"), ("kid", .string keyId), ("typ", .string "JWT")])
  /-- The claims end 900 seconds later, if there is a time 900 seconds later. -/
  claims : ∃ octets expires, octets? p.claims = some octets ∧
    (now.toInt + 900 < 0x8000000000000000 → expires.toInt = now.toInt + 900) ∧
    Claims.layout.codec.ofBytes? octets =
      .ok ⟨now, expires, "object-registry", "object-registry-ui", "object-registry"⟩ ∧
    Json.ofBytes? octets = .ok (.object
      [("aud", .string "object-registry"), ("exp", Json.Codec.int64.write expires),
        ("iat", Json.Codec.int64.write now), ("iss", .string "object-registry-ui"),
        ("sub", .string "object-registry")])
  /-- With a genuine key no other octets are a signature of them. -/
  signature : ∃ octets, octets? p.signature = some octets ∧
    rsa.IsSignature (Utf8.encode p.signed) octets ∧
    (rsa.IsGenuine → ∀ other, rsa.IsSignature (Utf8.encode p.signed) other → other = octets)

/-- The parts are found again at the dots. -/
theorem splitOnP_text {p : Parts}
    (h : ∀ c ∈ p.header ++ p.claims ++ p.signature, IsSymbol c) :
    p.text.splitOnP (· == '.') = [p.header, p.claims, p.signature] := by
  refine splitOnP_dots (fun c hc => ?_) (fun c hc => ?_) fun c hc => ?_
  · exact (h c (List.mem_append_left _ (List.mem_append_left _ hc))).ne_dot
  · exact (h c (List.mem_append_left _ (List.mem_append_right _ hc))).ne_dot
  · exact (h c (List.mem_append_right _ hc)).ne_dot

/-- A text says one thing only of its key and of its time. -/
theorem Say.unique {p q : Parts} {keyId keyId' : String} {now now' : Int64}
    {rsa rsa' : Rsa.PrivateKey} (hp : p.Say keyId now rsa) (hq : q.Say keyId' now' rsa')
    (htext : p.text = q.text) : keyId' = keyId ∧ now' = now := by
  have hsplit := splitOnP_text hp.symbols
  rw [htext, splitOnP_text hq.symbols] at hsplit
  obtain ⟨hheader, hclaims⟩ : q.header = p.header ∧ q.claims = p.claims :=
    ⟨(List.cons.inj hsplit).1, (List.cons.inj (List.cons.inj hsplit).2).1⟩
  constructor
  · obtain ⟨octets, hoctets, hread⟩ := hp.header
    obtain ⟨octets', hoctets', hread'⟩ := hq.header
    rw [hheader, hoctets] at hoctets'
    rw [← Option.some.inj hoctets', hread] at hread'
    simp only [Except.ok.injEq, Json.object.injEq, List.cons.injEq, Prod.mk.injEq,
      Json.string.injEq, true_and, and_true] at hread'
    exact hread'.symm
  · obtain ⟨octets, expires, hoctets, -, hread, -⟩ := hp.claims
    obtain ⟨octets', expires', hoctets', -, hread', -⟩ := hq.claims
    rw [hclaims, hoctets] at hoctets'
    rw [← Option.some.inj hoctets', hread] at hread'
    exact (congrArg Claims.issuedAt (Except.ok.inj hread')).symm

end Parts

/-! ## The parts of an issued token -/

/-- The octets of a part are those that were written for URLs. -/
theorem octets?_toLatin (bs : Bytes) :
    Parts.octets? (Bytes.toLatin (Base64.encodeForUrls bs)) = some bs := by
  rw [Parts.octets?, Base64.encode_toLatin_encodeForUrls, Base64.decodeForUrls?_encodeForUrls]

/-- What is signed is the text of the first two parts. -/
theorem encode_signed (keyId : String) (now : Int64) (signature : List Char) :
    Utf8.encode (Parts.signed ⟨Bytes.toLatin (part (header keyId)),
      Bytes.toLatin (part (Claims.layout.codec.write (.issuedAtTime now))), signature⟩) =
      signedPart keyId now := by
  rw [Parts.signed, Utf8.encode_append, Utf8.encode_cons, part, part,
    Base64.encode_toLatin_encodeForUrls, Base64.encode_toLatin_encodeForUrls]
  rfl

/-- The claims of a time end 900 seconds later, if that is a time. -/
theorem toInt_expires {now : Int64} (h : now.toInt + 900 < 0x8000000000000000) :
    (Claims.issuedAtTime now).expires.toInt = now.toInt + 900 := by
  have hlower := Int64.le_toInt now
  have hlifetime : Claims.lifetime.toInt = 900 := rfl
  show (now + Claims.lifetime).toInt = _
  rw [Int64.toInt_add, hlifetime]
  exact Int.bmod_eq_of_le_mul_two (by omega) (by omega)

/-- A token's header with its members in the order of their names. -/
theorem sorted_header (keyId : String) :
    (header keyId).sorted =
      .object [("alg", .string "RS256"), ("kid", .string keyId), ("typ", .string "JWT")] := by
  simp only [header, Json.sorted, Json.sortedMembers, Json.sortMembers, List.foldl_cons,
    List.foldl_nil, Json.insertMember, String.reduceEq, String.reduceLT, if_true, if_false]

/-- The claims of a time with their members in the order of their names. -/
theorem sorted_claims (now : Int64) :
    (Claims.layout.codec.write (.issuedAtTime now)).sorted =
      .object [("aud", .string "object-registry"),
        ("exp", Json.Codec.int64.write (Claims.issuedAtTime now).expires),
        ("iat", Json.Codec.int64.write now), ("iss", .string "object-registry-ui"),
        ("sub", .string "object-registry")] := by
  have hwrite : Claims.layout.codec.write (.issuedAtTime now) =
      .object [("iat", Json.Codec.int64.write now),
        ("exp", Json.Codec.int64.write (Claims.issuedAtTime now).expires),
        ("aud", .string "object-registry"), ("iss", .string "object-registry-ui"),
        ("sub", .string "object-registry")] := rfl
  rw [hwrite]
  simp only [Json.Codec.int64, Json.sorted, Json.sortedMembers, Json.sortMembers, List.foldl_cons,
    List.foldl_nil, Json.insertMember, String.reduceEq, String.reduceLT, if_true, if_false]

/-- What an issued token says, for the key that its issuer signs with. -/
theorem exists_say_of_issue {issuer : Issuer} {now : Int64} {token : String}
    (h : issuer.issue now = .ok token) :
    ∃ signer rsa parts, issuer.signer = .ok signer ∧
      Rsa.PrivateKey.ofBytes? signer.key = .ok rsa ∧ token = String.ofList (Parts.text parts) ∧
      parts.Say signer.keyId now rsa := by
  obtain ⟨signer, rsa, signature, hsigner, hkey, hsign, rfl⟩ := exists_signer_of_issue h
  have hchecked := Rsa.PrivateKey.isChecked_of_ofBytes? hkey
  have hsignature := hchecked.isSignature_of_sign? hsign
  let parts : Parts := ⟨Bytes.toLatin (part (header signer.keyId)),
    Bytes.toLatin (part (Claims.layout.codec.write (.issuedAtTime now))),
    Bytes.toLatin (Base64.encodeForUrls signature)⟩
  have hsigned : Utf8.encode parts.signed = signedPart signer.keyId now := encode_signed ..
  refine ⟨signer, rsa, parts, hsigner, hkey, ?_, ?_, ?_, ?_, ?_⟩
  · rw [assemble, signedPart, Bytes.toLatin_dot, Bytes.toLatin_dot]
    rfl
  · intro c hc
    rcases List.mem_append.1 hc with hc | hc
    · rcases List.mem_append.1 hc with hc | hc
      · exact isSymbol_of_mem_encodeForUrls c hc
      · exact isSymbol_of_mem_encodeForUrls c hc
    · exact isSymbol_of_mem_encodeForUrls c hc
  · have hfits : Json.Fits Json.maxLevels (header signer.keyId) := by
      intro m hm
      simp only [List.mem_cons, List.not_mem_nil, or_false] at hm
      rcases hm with rfl | rfl | rfl <;> trivial
    refine ⟨_, octets?_toLatin _, ?_⟩
    rw [Json.ofBytes?_bytes hfits, sorted_header]
  · refine ⟨_, (Claims.issuedAtTime now).expires, octets?_toLatin _, toInt_expires, ?_, ?_⟩
    · exact Json.Codec.ofBytes?_bytes (Claims.readsBack _ (.issuedAtTime now))
    · rw [Json.ofBytes?_bytes (fits_claims now), sorted_claims]
  · refine ⟨signature, octets?_toLatin signature, ?_⟩
    rw [hsigned]
    exact ⟨hsignature, fun hgenuine other hother =>
      hchecked.eq_of_isSignature hgenuine hother hsignature⟩

/-- What an issued token says, for the key that is configured. -/
theorem exists_say_of_configured {key : SigningKey} {now : Int64} {token : String}
    (h : (Issuer.ofKey (some key)).issue now = .ok token) :
    ∃ octets rsa parts, key.Holds octets ∧ Rsa.PrivateKey.ofBytes? octets = .ok rsa ∧
      token = String.ofList (Parts.text parts) ∧ parts.Say key.keyId now rsa := by
  obtain ⟨signer, rsa, parts, hsigner, hkey, htext, hsay⟩ := exists_say_of_issue h
  rcases Issuer.ofKey_cases (some key) with ⟨k, octets, hk, hholds, hissuer⟩ | ⟨⟨f, hissuer⟩, -⟩
  · obtain rfl := Option.some.inj hk
    rw [hissuer] at hsigner
    obtain rfl := Except.ok.inj hsigner
    exact ⟨octets, rsa, parts, hholds, hkey, htext, hsay⟩
  · rw [hissuer] at hsigner
    exact absurd hsigner (by simp)

/-- Every token that is issued with a configured key says that it is signed with that key, and what
the console claims at that time; its third part is the signature of the other two. No key of
another name and no other time has the same token. -/
theorem says_of_issue {key : SigningKey} {now : Int64} {token : String}
    (h : (Issuer.ofKey (some key)).issue now = .ok token) :
    (∃ octets rsa parts, key.Holds octets ∧ Rsa.PrivateKey.ofBytes? octets = .ok rsa ∧
      token = String.ofList (Parts.text parts) ∧ parts.Say key.keyId now rsa) ∧
    ∀ (key' : SigningKey) (now' : Int64), (Issuer.ofKey (some key')).issue now' = .ok token →
      key'.keyId = key.keyId ∧ now' = now := by
  refine ⟨exists_say_of_configured h, fun key' now' h' => ?_⟩
  obtain ⟨-, rsa, parts, -, -, htext, hsay⟩ := exists_say_of_configured h
  obtain ⟨-, rsa', parts', -, -, htext', hsay'⟩ := exists_say_of_configured h'
  exact hsay.unique hsay' (String.ofList_injective (htext.symm.trans htext'))

/-- A key whose name has quotes, a backslash, a line break and a letter beyond ASCII in it. -/
theorem says_of_issue_genuine :
    let key : SigningKey := ⟨"\\ \"key\"\n é", String.ofList genuineText⟩
    ∃ token parts rsa, (Issuer.ofKey (some key)).issue 1700000000 = .ok token ∧
      token = String.ofList (Parts.text parts) ∧ parts.Say key.keyId 1700000000 rsa := by
  intro key
  have hholds : key.Holds genuineKey := holds_genuineKey (by decide)
  obtain ⟨rsa, hread, hgenuine⟩ := exists_isGenuine_genuineKey
  obtain ⟨token, htoken⟩ := Issuer.exists_token_of_isGenuine key.keyId hread hgenuine 1700000000
  have hissued : (Issuer.ofKey (some key)).issue 1700000000 = .ok token := by
    rw [Issuer.ofKey_of_holds hholds]
    exact htoken
  obtain ⟨-, rsa', parts, -, -, htext, hsay⟩ := (says_of_issue hissued).1
  exact ⟨token, parts, rsa', hissued, htext, hsay⟩

end RegistryConsole.Token
