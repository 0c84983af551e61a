import RegistryConsole.Http.Wire
import RegistryConsole.Proofs.Url.Host
import RegistryConsole.Proofs.Utf8

/-! # Answers of HTTP

An answer of HTTP has a code of three digits, and fields whose names are tokens in lower case and
whose values have no controls. Whatever is read off a connection as an answer is one. -/

namespace RegistryConsole

/-- Whether a field may stand in a header: its name is a token in lower case, and its value has no
controls. -/
structure HeaderField.IsHttp (f : HeaderField) : Prop where
  name : HeaderField.nameOf? (Utf8.ofString f.name) = some f.name
  value : HeaderField.isValue f.value = true

instance (f : HeaderField) : Decidable f.IsHttp :=
  decidable_of_iff (HeaderField.nameOf? (Utf8.ofString f.name) = some f.name ∧
    HeaderField.isValue f.value = true) ⟨fun h => ⟨h.1, h.2⟩, fun h => ⟨h.1, h.2⟩⟩

/-- Whether an answer is one of HTTP: its code has three digits, and its header has nothing but
fields that may stand in one. -/
structure Response.IsHttp (r : Response) : Prop where
  least : 100 ≤ r.status.code
  greatest : r.status.code < 1000
  fields : ∀ f ∈ r.headers, f.IsHttp

instance (r : Response) : Decidable r.IsHttp :=
  decidable_of_iff (100 ≤ r.status.code ∧ r.status.code < 1000 ∧ ∀ f ∈ r.headers, f.IsHttp)
    ⟨fun h => ⟨h.1, h.2.1, h.2.2⟩, fun h => ⟨h.1, h.2, h.3⟩⟩

/-- Whether every answer on a network is one of HTTP. -/
def Network.SpeaksHttp {σ : Type} (net : Network σ) : Prop :=
  ∀ w s r t, net.deliver w s = (some r, t) → r.IsHttp

/-- A header from which fields are left out is still one of HTTP. -/
theorem Response.IsHttp.of_fields {r r' : Response} (h : r.IsHttp) (hstatus : r'.status = r.status)
    (hfields : ∀ f ∈ r'.headers, f ∈ r.headers) : r'.IsHttp where
  least := hstatus ▸ h.least
  greatest := hstatus ▸ h.greatest
  fields := fun f hf => h.fields f (hfields f hf)

theorem Headers.mem_of_mem_without {h : Headers} {names : List String} {f : HeaderField}
    (hf : f ∈ h.without names) : f ∈ h :=
  (List.mem_filter.1 hf).1

/-! ## Off a connection -/

namespace HeaderField

theorem toNat_lt_of_isTokenOctet {b : UInt8} (h : isTokenOctet b = true) : b.toNat < 0x7F := by
  simp only [isTokenOctet, Bool.or_eq_true, Bool.and_eq_true, decide_eq_true_eq,
    beq_iff_eq] at h
  omega

theorem toNat_lowerOctet (b : UInt8) :
    (lowerOctet b).toNat =
      if 0x41 ≤ b.toNat ∧ b.toNat ≤ 0x5A then b.toNat + 0x20 else b.toNat := by
  unfold lowerOctet
  split
  · next hupper =>
    have hstep : (0x20 : UInt8).toNat = 0x20 := rfl
    rw [UInt8.toNat_add, hstep]
    exact Nat.mod_eq_of_lt (by omega)
  · rfl

theorem isTokenOctet_lowerOctet {b : UInt8} (h : isTokenOctet b = true) :
    isTokenOctet (lowerOctet b) = true := by
  have hlower := toNat_lowerOctet b
  split at hlower
  · next hupper =>
    simp only [isTokenOctet, hlower, Bool.or_eq_true, Bool.and_eq_true, decide_eq_true_eq,
      beq_iff_eq]
    omega
  · rwa [UInt8.toNat_inj.1 hlower]

theorem lowerOctet_lowerOctet (b : UInt8) : lowerOctet (lowerOctet b) = lowerOctet b := by
  apply UInt8.toNat_inj.1
  have hlower := toNat_lowerOctet b
  rw [toNat_lowerOctet, if_neg]
  split at hlower <;> omega

/-- A name that was read is the name that it spells. -/
theorem nameOf?_of_nameOf? {b : Bytes} {name : String} (h : nameOf? b = some name) :
    nameOf? (Utf8.ofString name) = some name := by
  unfold nameOf? at h
  split at h
  · next hb =>
    obtain ⟨hne, htoken, hlength⟩ := hb
    obtain rfl := Option.some.inj h
    have hall := List.all_eq_true.1 htoken
    have hoctets : Utf8.ofString (String.ofList (Bytes.toLatin (b.map lowerOctet))) =
        b.map lowerOctet := by
      rw [Utf8.ofString, String.toList_ofList, Utf8.encode_toLatin]
      intro x hx
      obtain ⟨y, hy, rfl⟩ := List.mem_map.1 hx
      have := toNat_lt_of_isTokenOctet (isTokenOctet_lowerOctet (hall y hy))
      omega
    have hlower : (b.map lowerOctet).map lowerOctet = b.map lowerOctet := by
      rw [List.map_map]
      exact List.map_congr_left fun x _ => lowerOctet_lowerOctet x
    rw [hoctets, nameOf?, if_pos, hlower]
    refine ⟨fun hnil => hne (List.map_eq_nil_iff.1 hnil), ?_, ?_⟩
    · rw [List.all_map, List.all_eq_true]
      exact fun x hx => isTokenOctet_lowerOctet (hall x hx)
    · rwa [List.length_map]
  · exact absurd h (by simp)

end HeaderField

namespace Wire

/-- A field that is read may stand in a header. -/
theorem isHttp_of_field? {line : Bytes} {f : HeaderField} (h : field? line = some f) :
    f.IsHttp := by
  unfold field? at h
  dsimp only at h
  split at h
  · exact absurd h (by simp)
  · split at h
    · exact absurd h (by simp)
    · next hname =>
      split at h
      · next hvalue =>
        obtain rfl := Option.some.inj h
        exact ⟨HeaderField.nameOf?_of_nameOf? hname, hvalue⟩
      · exact absurd h (by simp)

/-- A status that is read has a code of three digits. -/
theorem code_of_statusLine? {line : Bytes} {status : Status} (h : statusLine? line = some status) :
    100 ≤ status.code ∧ status.code < 1000 := by
  unfold statusLine? at h
  split at h
  · next version code _ _ =>
    split at h
    · next hcode =>
      obtain ⟨-, hlength, hfirst⟩ := hcode
      obtain ⟨a, b, c, rfl⟩ := List.length_eq_three.1 hlength
      unfold length? at h
      split at h
      · next hdigits =>
        obtain rfl := Option.some.inj h
        have hall := List.all_eq_true.1 hdigits.2
        simp only [List.mem_cons, List.not_mem_nil, or_false, forall_eq_or_imp, forall_eq,
          Bool.and_eq_true, decide_eq_true_eq] at hall
        have hne : a.toNat ≠ (0x30 : UInt8).toNat := fun hzero =>
          hfirst (congrArg some (UInt8.toNat_inj.1 hzero))
        have hcode : (0x30 : UInt8).toNat = 0x30 := rfl
        simp only [List.foldl_cons, List.foldl_nil]
        omega
      · exact absurd h (by simp)
    · exact absurd h (by simp)
  · exact absurd h (by simp)

/-- Whatever is read as an answer is one of HTTP. -/
theorem isHttp_of_readResponse {method : Method} {ended : Bool} {b rest : Bytes} {r : Response}
    (h : readResponse method ended b = .done r rest) : r.IsHttp := by
  unfold readResponse at h
  split at h
  · split at h <;> exact absurd h (by simp)
  · exact absurd h (by simp)
  · next first lines after hhead =>
    have hlength := length_of_splitHead? hhead
    split at h
    · next status headers hstatus hheaders =>
      -- the body makes no difference
      have hdone : ∀ (body : Bytes) (complete : Bool) (after : Bytes),
          Reading.done ⟨status, headers, .streamed body complete⟩ after = .done r rest →
            r.IsHttp := by
        intro body complete after hr
        obtain ⟨rfl, -⟩ := Reading.done.inj hr
        obtain ⟨hleast, hgreatest⟩ := code_of_statusLine? hstatus
        refine ⟨hleast, hgreatest, fun f hf => ?_⟩
        obtain ⟨line, -, hline⟩ := Host.exists_of_mem_mapM hheaders hf
        exact isHttp_of_field? hline
      split at h
      · exact isHttp_of_readResponse h
      dsimp only at h
      split at h
      · exact hdone _ _ _ h
      split at h
      · exact absurd h (by simp)
      split at h
      · exact hdone _ _ _ h
      · exact hdone _ _ _ h
      split at h
      · exact hdone _ _ _ h
      · exact absurd h (by simp)
    · exact absurd h (by simp)
termination_by b.length

end Wire

/-- A network whose answers are read off connections speaks HTTP. -/
theorem Network.speaksHttp_of_read {σ : Type} {net : Network σ}
    (hread : ∀ w s r t, net.deliver w s = (some r, t) →
      ∃ ended b rest, Wire.readResponse w.method ended b = .done r rest) : net.SpeaksHttp := by
  intro w s r t hsent
  obtain ⟨ended, b, rest, hr⟩ := hread w s r t hsent
  exact Wire.isHttp_of_readResponse hr

end RegistryConsole
