import RegistryConsole.Proofs.Json.RoundTrip
import RegistryConsole.Token

/-! # What a token says

A registry reads a token by its parts: the text between the two dots, as Base64 for URLs, is a JSON
value. A token that was issued has the claims of the time at which it was issued there. -/

namespace RegistryConsole

/-! ## Base64 for URLs, read back -/

namespace Base64

/-- The number of a symbol of the form for URLs. -/
def urlValue? (b : UInt8) : Option Nat :=
  let n := b.toNat
  if 0x41 ≤ n ∧ n ≤ 0x5A then some (n - 0x41)
  else if 0x61 ≤ n ∧ n ≤ 0x7A then some (n - 0x61 + 26)
  else if 0x30 ≤ n ∧ n ≤ 0x39 then some (n - 0x30 + 52)
  else if n = 0x2D then some 62
  else if n = 0x5F then some 63
  else none

/-- The octets of a form for URLs. -/
def decodeForUrls? : Bytes → Option Bytes
  | a :: b :: c :: d :: rest => do
    let w ← urlValue? a
    let x ← urlValue? b
    let y ← urlValue? c
    let z ← urlValue? d
    let more ← decodeForUrls? rest
    return UInt8.ofNat (w * 4 + x / 16) :: UInt8.ofNat (x % 16 * 16 + y / 4) ::
      UInt8.ofNat (y % 4 * 64 + z) :: more
  | [a, b, c] => do
    let w ← urlValue? a
    let x ← urlValue? b
    let y ← urlValue? c
    return [UInt8.ofNat (w * 4 + x / 16), UInt8.ofNat (x % 16 * 16 + y / 4)]
  | [a, b] => do
    let w ← urlValue? a
    let x ← urlValue? b
    return [UInt8.ofNat (w * 4 + x / 16)]
  | [_] => none
  | [] => some []

/-- A symbol has the number that it was written for. -/
theorem urlValue?_forUrls {n : Nat} (hn : n < 64) : urlValue? (forUrls n) = some n := by
  have hall : ∀ n < 64, urlValue? (forUrls n) = some n := by decide
  exact hall n hn

/-- Whether an octet is a visible ASCII character, and no dot. -/
def IsInPart (b : UInt8) : Prop :=
  0x20 < b.toNat ∧ b.toNat < 0x7F ∧ b ≠ 0x2E

instance (b : UInt8) : Decidable (IsInPart b) :=
  inferInstanceAs (Decidable (_ ∧ _))

/-- What was written for URLs is read back. -/
theorem decodeForUrls?_encodeForUrls (bs : Bytes) :
    decodeForUrls? (encodeForUrls bs) = some bs := by
  unfold encodeForUrls
  fun_induction encodeWith forUrls (fun _ => []) bs with
  | case1 a b c rest n ih =>
    have ha := a.toNat_lt
    have hb := b.toNat_lt
    have hc := c.toNat_lt
    rw [decodeForUrls?, urlValue?_forUrls (by omega), urlValue?_forUrls (by omega),
      urlValue?_forUrls (by omega), urlValue?_forUrls (by omega), ih]
    have h1 := ofNat_eq_of_toNat (b := a)
      (n := n / 262144 * 4 + n / 4096 % 64 / 16) (by omega)
    have h2 := ofNat_eq_of_toNat (b := b)
      (n := n / 4096 % 64 % 16 * 16 + n / 64 % 64 / 4) (by omega)
    have h3 := ofNat_eq_of_toNat (b := c)
      (n := n / 64 % 64 % 4 * 64 + n % 64) (by omega)
    simp only [bind, Option.bind, pure, h1, h2, h3]
  | case2 a b n =>
    have ha := a.toNat_lt
    have hb := b.toNat_lt
    rw [decodeForUrls?, urlValue?_forUrls (by omega), urlValue?_forUrls (by omega),
      urlValue?_forUrls (by omega)]
    have h1 := ofNat_eq_of_toNat (b := a)
      (n := n / 4096 * 4 + n / 64 % 64 / 16) (by omega)
    have h2 := ofNat_eq_of_toNat (b := b)
      (n := n / 64 % 64 % 16 * 16 + n % 64 / 4) (by omega)
    simp only [bind, Option.bind, pure, h1, h2]
  | case3 a n =>
    have ha := a.toNat_lt
    rw [decodeForUrls?, urlValue?_forUrls (by omega), urlValue?_forUrls (by omega)]
    have h1 := ofNat_eq_of_toNat (b := a) (n := n / 64 * 4 + n % 64 / 16) (by omega)
    simp only [bind, Option.bind, pure, h1]
  | case4 => rfl

/-- What the 64 symbols have, all octets of a form for URLs have. -/
theorem forall_mem_encodeForUrls {p : UInt8 → Prop} (h : ∀ n < 64, p (forUrls n)) (bs : Bytes) :
    ∀ b ∈ encodeForUrls bs, p b := by
  have hall : ∀ n, p (forUrls n) := by
    intro n
    by_cases hn : n < 64
    · exact h n hn
    · rw [forUrls, symbol, if_neg (by omega), if_neg (by omega), if_neg (by omega),
        if_neg (by omega)]
      exact h 63 (by decide)
  unfold encodeForUrls
  fun_induction encodeWith forUrls (fun _ => []) bs with
  | case1 a b c rest n ih =>
    intro x hx
    simp only [List.mem_cons] at hx
    rcases hx with rfl | rfl | rfl | rfl | hx
    · exact hall _
    · exact hall _
    · exact hall _
    · exact hall _
    · exact ih x hx
  | case2 a b n =>
    intro x hx
    simp only [List.mem_cons, List.not_mem_nil, or_false] at hx
    rcases hx with rfl | rfl | rfl <;> exact hall _
  | case3 a n =>
    intro x hx
    simp only [List.mem_cons, List.not_mem_nil, or_false] at hx
    rcases hx with rfl | rfl <;> exact hall _
  | case4 => exact fun x hx => absurd hx (by simp)

/-- All octets of a form for URLs are visible ASCII characters, and none is a dot. -/
theorem isInPart_of_mem_encodeForUrls (bs : Bytes) : ∀ b ∈ encodeForUrls bs, IsInPart b :=
  forall_mem_encodeForUrls (by decide) bs

/-- To read a form for URLs as a text and write the text again changes nothing, as it is ASCII. -/
theorem encode_toLatin_encodeForUrls (bs : Bytes) :
    Utf8.encode (Bytes.toLatin (encodeForUrls bs)) = encodeForUrls bs :=
  Utf8.encode_toLatin fun b hb =>
    Nat.lt_succ_of_lt (isInPart_of_mem_encodeForUrls bs b hb).2.1

end Base64

/-- A character of another octet is no dot. -/
theorem Bytes.ne_dot_of_mem_toLatin {bs : Bytes} (hbs : ∀ b ∈ bs, b ≠ 0x2E) {c : Char}
    (hc : c ∈ Bytes.toLatin bs) : (c == '.') = false := by
  obtain ⟨b, hb, rfl⟩ := List.mem_map.1 hc
  rw [beq_eq_false_iff_ne]
  intro hdot
  have hcode := congrArg Char.toNat hdot
  rw [Utf8.toNat_ofNat_octet] at hcode
  exact hbs b hb (UInt8.toNat_inj.1 hcode)

/-- Two texts stay joined by the dot between them. -/
theorem Bytes.toLatin_dot (a b : Bytes) :
    Bytes.toLatin (a ++ 0x2E :: b) = Bytes.toLatin a ++ '.' :: Bytes.toLatin b := by
  rw [toLatin, List.map_append, List.map_cons]
  rfl

/-! ## The parts of a token -/

namespace Token

/-- What a token asserts: the value of its middle part. -/
def payload? (token : String) : Option Json :=
  match token.toList.splitOnP (· == '.') with
  | [_, payload, _] =>
    (Base64.decodeForUrls? (Utf8.encode payload)).bind fun b => (Json.ofBytes? b).toOption
  | _ => none

/-- The time at which a token says that it was issued. -/
def issuedAt? (token : String) : Option Int :=
  match (payload? token).bind (Json.member? "iat") with
  | some (.number (.integer n _)) => some n
  | _ => none

/-- Three texts without dots are found again at the dots between them. -/
theorem splitOnP_dots {a b c : List Char} (ha : ∀ x ∈ a, (x == '.') = false)
    (hb : ∀ x ∈ b, (x == '.') = false) (hc : ∀ x ∈ c, (x == '.') = false) :
    (a ++ '.' :: b ++ '.' :: c).splitOnP (· == '.') = [a, b, c] := by
  rw [List.append_assoc, List.cons_append, List.splitOnP_append_cons_of_forall_mem ha '.' rfl,
    List.splitOnP_append_cons_of_forall_mem hb '.' rfl, List.splitOnP_eq_singleton hc]

/-- The text of a token falls into its three parts. -/
theorem splitOnP_assemble (header claims signature : Bytes) :
    (Bytes.toLatin (Base64.encodeForUrls header ++ 0x2E :: Base64.encodeForUrls claims ++
      0x2E :: Base64.encodeForUrls signature)).splitOnP (· == '.') =
      [Bytes.toLatin (Base64.encodeForUrls header), Bytes.toLatin (Base64.encodeForUrls claims),
        Bytes.toLatin (Base64.encodeForUrls signature)] := by
  have hdots : ∀ bs : Bytes, ∀ c ∈ Bytes.toLatin (Base64.encodeForUrls bs),
      (c == '.') = false :=
    fun bs _ hc => Bytes.ne_dot_of_mem_toLatin
      (fun b hb => (Base64.isInPart_of_mem_encodeForUrls bs b hb).2.2) hc
  rw [Bytes.toLatin_dot, Bytes.toLatin_dot,
    splitOnP_dots (hdots header) (hdots claims) (hdots signature)]

/-- The text of an issued token: what the key signed, and the signature of it. -/
theorem exists_signer_of_issue {issuer : Issuer} {now : Int64} {token : String}
    (h : issuer.issue now = .ok token) :
    ∃ signer rsa signature, issuer.signer = .ok signer ∧
      Rsa.PrivateKey.ofBytes? signer.key = .ok rsa ∧
      rsa.sign? (signedPart signer.keyId now) = some signature ∧
      token = String.ofList (Bytes.toLatin (assemble (signedPart signer.keyId now) signature)) := by
  unfold Issuer.issue at h
  split at h
  · exact absurd h (by simp)
  · next s hsigner =>
    split at h
    · exact absurd h (by simp)
    · next rsa hkey =>
      dsimp only at h
      split at h
      · exact absurd h (by simp)
      · next signature hsignature =>
        exact ⟨s, rsa, signature, hsigner, hkey, hsignature, (Except.ok.inj h).symm⟩

/-- The octets of an issued token are visible ASCII characters. -/
theorem isVisible_of_issue {issuer : Issuer} {now : Int64} {token : String}
    (h : issuer.issue now = .ok token) :
    ∀ b ∈ Utf8.ofString token, 0x20 < b.toNat ∧ b.toNat < 0x7F := by
  obtain ⟨signer, -, signature, -, -, -, rfl⟩ := exists_signer_of_issue h
  have hvisible : ∀ b ∈ assemble (signedPart signer.keyId now) signature,
      0x20 < b.toNat ∧ b.toNat < 0x7F := by
    have hpart : ∀ bs : Bytes, ∀ b ∈ Base64.encodeForUrls bs, 0x20 < b.toNat ∧ b.toNat < 0x7F :=
      fun bs b hb =>
        have h := Base64.isInPart_of_mem_encodeForUrls bs b hb
        ⟨h.1, h.2.1⟩
    have hdot : 0x20 < (0x2E : UInt8).toNat ∧ (0x2E : UInt8).toNat < 0x7F := by decide
    intro b hb
    simp only [assemble, signedPart, part, List.mem_append, List.mem_cons] at hb
    rcases hb with (hb | rfl | hb) | rfl | hb
    · exact hpart _ b hb
    · exact hdot
    · exact hpart _ b hb
    · exact hdot
    · exact hpart _ b hb
  rw [Utf8.ofString, String.toList_ofList,
    Utf8.encode_toLatin fun b hb => Nat.lt_succ_of_lt (hvisible b hb).2]
  exact hvisible

theorem fits_claims (now : Int64) :
    Json.Fits Json.maxLevels (Claims.layout.codec.write (.issuedAtTime now)) := by
  intro m hm
  simp only [Claims.layout, Json.Values.write, Json.Member.required, Bool.false_eq_true,
    if_false, List.mem_cons, List.not_mem_nil, or_false] at hm
  rcases hm with rfl | rfl | rfl | rfl | rfl <;> trivial

/-- What an issued token asserts are the claims of the time at which it was issued. -/
theorem payload?_of_issue {issuer : Issuer} {now : Int64} {token : String}
    (h : issuer.issue now = .ok token) :
    payload? token = some (Claims.layout.codec.write (.issuedAtTime now)).sorted := by
  obtain ⟨signer, -, signature, -, -, -, rfl⟩ := exists_signer_of_issue h
  rw [payload?, String.toList_ofList, assemble, signedPart, part, part, splitOnP_assemble]
  dsimp only
  rw [Base64.encode_toLatin_encodeForUrls, Base64.decodeForUrls?_encodeForUrls, Option.bind_some,
    Json.ofBytes?_bytes (fits_claims now)]
  rfl

/-- A token says that it was issued when it was. -/
theorem issuedAt?_of_issue {issuer : Issuer} {now : Int64} {token : String}
    (h : issuer.issue now = .ok token) : issuedAt? token = some now.toInt := by
  have hiat : ((Claims.layout.codec.write (.issuedAtTime now)).sorted).member? "iat" =
      some (Json.Codec.int64.write now) := by
    show ((Json.sortMembers _).find? fun m => m.1 == "iat").map (·.2) = _
    rw [Json.find?_sortMembers]
    rfl
  rw [issuedAt?, payload?_of_issue h, Option.bind_some, hiat]
  rfl

end Token

/-! ## A token that is issued -/

/-- A private key of 2048 bits. -/
def exampleKey : Bytes :=
  List.flatMap (Bytes.ofNat 43)
    [0x308204A50201000282010100EB8C3FC8127BC57FBB4B5212752CD8AA0EF9F904802975642B910362DA91F9,
      0x22A33031733F15EEB5A7ED10365C46E1F9ADB84EC332CB15A6E5D088BA8C1852F71EE8CAA3F2E84AB05162,
      0xAFF8990BAA5D53877DAD582408C7D818F43F2C7574A616C00308396E69E41E4BED43864304CC588CD51230,
      0x91CEBD68BE9A4B2DBE4701CA237AD49D514B2957ECE29B9E2AD1C3EA4E0D1D3B7A6E17706C42FF8B3DC498,
      0x58E31505A726E9370B0E2557D4B5D167C72171C01A9AABEEA756078F7E5BFEC72862205A7978D2293CA54D,
      0xD39C2B1D485F03A6BF3C57C167E69509E5D64463FE857E22F76458B7AC68B1642A058D561F46CD365DAE83,
      0xC2A02B6EF2AF90305439020301000102820100061C43675049A8932A79E366284A74506D0DEC23EDDC173F,
      0x2DA7ED463A3832F98B9C328DFB5BF94BA4DEC8ECFE4EB634E47AAE4BF0EA9A3985D1CCF4E3B144830B1373,
      0x20F6C6C0FF7B0D0156849D6C14170A4CA6E2A62119F61344173C5692CD8ADEA72E5F537A0C6B3B73009119,
      0x2F4F75517F4A68BB08799AF53B4A54A474002B797C925FAD3F41AFC02C82370CD4BBC280F159857B494DBB,
      0x095D9F7BF9ED4EB316E28C58C5C6C53DF203372F11192FF58D366C8E4B85A3A9E4DC0FB002DE4AE20DB45B,
      0xE792105BDB742BCE6604B93419D449DDEAA9EDDB34C50FEA0631E5A5A7CF63ACCAF3152301AFB6B514741B,
      0xD110E36BA4CFE41D526FE0F5B2A0569A5102818100FA705EDBBC7BB905C0503CA6BE7DAF659F3BB846C875,
      0x8CB04777DE74788C300FEE8D58F4585D48660A2822421AA5509F3D0231B5843BADC5C195BA1218F570492A,
      0xA7D8C67B3B5D500BC64E0085A576EA20A65B5F86FD330A552D061C1F2CA12ADB2D23C579D718B62596CA8D,
      0x33C7EEEDB50F78302D11281CA3CD99470CE1980502818100F0C73AC7333DB28E8D4F5884754701FD19DC4B,
      0xBBABF7760E043B845AC7ED99FE422D220ED55E919F38B988A29352C4FC9866B1E59217CBBCFC7E4E4F97B5,
      0xE1E65B551881841BE7A26CE173FC3D2F84E1ED876290C46B0652993F057B43A0B5F60FEAA5CA799BA873A3,
      0x0C3815E910CD5C208442489CE5BF49FA875CEACA9045A502818100BB769BFAFDD6DB03CC1603A0895D098B,
      0x172B9BE01833ADB1527E0EDDBE52A9B3734D08F636A2F50BB4B4A0183D5BDBC2A6E75A90564059EE7ADEFA,
      0x1E8BE2453FEF971EB44C107EE3E93C72ACFF5D816AF62FB09C0C2EC2230CE91BF6B6FB305525255FEE752A,
      0xA68BCA0D5AE761885A78431D264961A2C314D5249484D3C69685028181008FAE13C1332EAA12AEF89E55CC,
      0xB626D5A64CF35476762118942600013C34E923F4D181F5601622C7E4CDB25F71927EC24D1F5B212760D3CF,
      0x5ECCF066469DDEC3DBD497DF11BAA52B23D615A47BCE93794E88EFA47BD171E0705A4F2713601FB54A2237,
      0xF4EF4497ED096B0D3CE5EB84E068F703A6D919B060B1037DCB0E3DB19102818100D757C47E65E88FFBDD1A,
      0x19D43D676B44BF773F85CC77CA4C1C5D566F3C808D25A0E9DF2CF58FEC5A871E58BFE93D28E1B880BEBEF1,
      0x0B84B702E5C74FBC88A40C3A13FAA2D407F13F87D32960C62C4EDFAD2584BCCE22167AD0F1CCB6143D8974] ++
    Bytes.ofNat 32 0x5D1CC5F17A1C5542386AA6BBAF46E54EC43A244187714CEB0802A16ABC0030F0

/-- An issuer with a key of that size. -/
def exampleIssuer : Issuer :=
  ⟨.ok ⟨"key-1", exampleKey⟩⟩

/-- The key passes all checks, and what is signed with it verifies. -/
theorem exists_token_of_exampleIssuer : ∃ token, exampleIssuer.issue 0 = .ok token := by
  have hissued : (exampleIssuer.issue 0).isOk = true := by decide +kernel
  cases htoken : exampleIssuer.issue 0 with
  | error f =>
    rw [htoken] at hissued
    exact absurd hissued (by simp [Except.isOk, Except.toBool])
  | ok token => exact ⟨token, rfl⟩

end RegistryConsole
