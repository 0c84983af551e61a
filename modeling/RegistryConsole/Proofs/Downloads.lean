import RegistryConsole.Client.Download
import RegistryConsole.Proofs.Base64
import RegistryConsole.Proofs.Json.Pretty
import RegistryConsole.Proofs.Json.Reads

/-! # What an envelope holds

The file of an envelope is given by the envelope and the key alone. A payload in Base64 stands for
the octets that it is the standard form of, every other payload for itself, and the file is called
what comes after the last slash of the key. -/

namespace RegistryConsole

/-- The payload of an envelope that was read has its members in order, and leaves room for a level
of nesting. -/
theorem ObjectEnvelope.isOrdered_payload {text : Bytes} {e : ObjectEnvelope}
    (h : layout.codec.ofBytes? text = .ok e) : ∃ below, Json.maxLevels = below + 1 ∧
      Json.IsOrdered below e.payload := by
  obtain ⟨below, hlevels, values, rfl, -, -, hpayload, -⟩ :=
    (layout.gives_read Json.maxLevels).of_readWhole h
  refine ⟨below, hlevels, ?_⟩
  rcases hpayload with ⟨c, after, hread⟩ | habsent
  · exact Json.gives_readValue below _ _ _ hread
  · exact absurd habsent (by simp [Json.Member.required])

namespace Download

/-! ## Names -/

/-- Whether a file for a key has a name: what stands in the key after the last slash, or another one
if nothing does. -/
structure IsName (key name : String) : Prop where
  nonempty : name ≠ ""
  noSlash : '/' ∉ name.toList
  last : ∃ front last, key.toList = front ++ last ∧
    (front = [] ∨ ∃ before, front = before ++ ['/']) ∧
    '/' ∉ last ∧ (last = [] ∧ name = "download" ∨ last ≠ [] ∧ name = String.ofList last)

/-- What comes after the last slash has none, and a slash before it unless it is everything. -/
theorem exists_afterLastSlash (cs : List Char) :
    '/' ∉ afterLastSlash cs ∧
      ∃ front, cs = front ++ afterLastSlash cs ∧
        (front = [] ∨ ∃ before, front = before ++ ['/']) := by
  have hsplit : cs = (cs.reverse.dropWhile fun c => c != '/').reverse ++ afterLastSlash cs := by
    rw [afterLastSlash, ← List.reverse_append, List.takeWhile_append_dropWhile,
      List.reverse_reverse]
  constructor
  · intro hslash
    have hkept := List.all_takeWhile (p := fun c => c != '/') (l := cs.reverse)
    have hne := List.all_eq_true.1 hkept '/' (List.mem_reverse.1 hslash)
    exact absurd hne (by decide)
  · refine ⟨_, hsplit, ?_⟩
    cases hrest : cs.reverse.dropWhile fun c => c != '/' with
    | nil => exact Or.inl rfl
    | cons c rest =>
      have hc := List.head?_dropWhile_not (fun c => c != '/') cs.reverse
      rw [hrest] at hc
      obtain rfl : c = '/' := by simpa using hc
      exact Or.inr ⟨rest.reverse, List.reverse_cons⟩

theorem isName_filenameOf (key : String) : IsName key (filenameOf key) := by
  obtain ⟨hslash, front, hsplit, hfront⟩ := exists_afterLastSlash key.toList
  unfold filenameOf
  split
  · next hnil =>
    exact ⟨by decide, by decide, front, _, hsplit, hfront, hslash, Or.inl ⟨hnil, rfl⟩⟩
  · next hsome =>
    refine ⟨fun h => ?_, ?_, front, _, hsplit, hfront, hslash, Or.inr ⟨hsome, rfl⟩⟩
    · exact hsome (by simpa using h)
    · rwa [String.toList_ofList]

/-! ## Payloads -/

/-- Whether a payload is told in the pretty form. -/
def IsStructured (payload : Json) : Prop :=
  payload = .null ∨ (∃ items, payload = .array items) ∨ ∃ members, payload = .object members

/-- Whether a file shows a payload that is not in Base64, where `mediaType` is the type that comes
with it. -/
structure Shows (payload : Json) (mediaType : String) (file : Download) : Prop where
  /-- A list, an object or null is written in the pretty form, which is read as the same value. -/
  structured : IsStructured payload → file.bytes = Utf8.encode payload.pretty ∧
    file.contentType = "application/json" ∧
      (payload.IsIntegral → Json.ofBytes? file.bytes = .ok payload)
  text : ∀ s, payload = .string s →
    file.bytes = Utf8.ofString s ∧ file.contentType = mediaType
  bool : ∀ b, payload = .bool b →
    file.bytes = Utf8.ofString (if b then "true" else "false") ∧ file.contentType = mediaType
  integer : ∀ n fits, payload = .number (.integer n fits) →
    file.bytes = Utf8.ofString (toString n) ∧ file.contentType = mediaType

/-- Without Base64 the file shows the payload. -/
theorem shows_ofPayload {payload : Json} {below : Nat} (hlevels : Json.maxLevels = below + 1)
    (hpayload : Json.IsOrdered below payload) (mediaType filename : String) :
    Shows payload mediaType
      ⟨(ofPayload payload mediaType).1, (ofPayload payload mediaType).2, filename⟩ := by
  have hread : payload.IsIntegral → Json.ofBytes? (Utf8.encode payload.pretty) = .ok payload := by
    intro hintegral
    have hnests := hpayload.nests.mono (by omega : below ≤ Json.maxLevels)
    rw [Json.ofBytes?_pretty (Json.fits_of_nests hnests hintegral), hpayload.sorted]
  cases payload with
  | null => exact ⟨fun _ => ⟨rfl, rfl, hread⟩, by simp, by simp, by simp⟩
  | array items => exact ⟨fun _ => ⟨rfl, rfl, hread⟩, by simp, by simp, by simp⟩
  | object members => exact ⟨fun _ => ⟨rfl, rfl, hread⟩, by simp, by simp, by simp⟩
  | string s =>
    refine ⟨by simp [IsStructured], fun t ht => ?_, by simp, by simp⟩
    obtain rfl := Json.string.inj ht
    exact ⟨rfl, rfl⟩
  | bool b =>
    refine ⟨by simp [IsStructured], by simp, fun c hc => ?_, by simp⟩
    obtain rfl := Json.bool.inj hc
    cases b <;> exact ⟨rfl, rfl⟩
  | number x =>
    refine ⟨by simp [IsStructured], by simp, by simp, fun n fits hx => ?_⟩
    obtain rfl := Json.number.inj hx
    exact ⟨congrArg Utf8.encode (Json.integerText_eq n), rfl⟩

/-! ## Envelopes -/

/-- Whether `result` is what an envelope holds, under a key. -/
structure IsHeldBy (e : ObjectEnvelope) (key : String) (result : Except EnvelopeFault Download) :
    Prop where
  /-- In Base64 it holds the octets that its payload is the standard form of. -/
  decoded : e.isBase64 = true → ∀ bytes, (∃ file, result = .ok file ∧ file.bytes = bytes) ↔
    ∃ s, e.payload = .string s ∧ Utf8.ofString s = Base64.encode bytes
  notText : e.isBase64 = true → (∀ s, e.payload ≠ .string s) → result = .error .payloadNotText
  notBase64 : e.isBase64 = true → ∀ s, e.payload = .string s →
    (∀ bytes, Utf8.ofString s ≠ Base64.encode bytes) → ∃ fault, result = .error (.base64 fault)
  /-- Without Base64 it always holds a file. -/
  shown : e.isBase64 = false →
    ∃ file, result = .ok file ∧ Shows e.payload e.metadata.contentType file
  named : ∀ file, result = .ok file → IsName key file.filename

/-- What an envelope in Base64 holds, by its payload. -/
theorem ofEnvelope_of_base64 {e : ObjectEnvelope} (h : e.isBase64 = true) (key : String) :
    (∃ s bytes, e.payload = .string s ∧ Utf8.ofString s = Base64.encode bytes ∧
      ofEnvelope e key = .ok ⟨bytes, e.metadata.contentType, filenameOf key⟩) ∨
    (∃ s fault, e.payload = .string s ∧ (∀ bytes, Utf8.ofString s ≠ Base64.encode bytes) ∧
      ofEnvelope e key = .error (.base64 fault)) ∨
    ((∀ s, e.payload ≠ .string s) ∧ ofEnvelope e key = .error .payloadNotText) := by
  unfold ofEnvelope
  dsimp only
  rw [if_pos h]
  cases e.payload with
  | string s =>
    dsimp only
    cases hread : Base64.decode (Utf8.ofString s) with
    | ok bytes => exact Or.inl ⟨s, bytes, rfl, Base64.decode_eq_ok_iff.1 hread, rfl⟩
    | error fault =>
      refine Or.inr (Or.inl ⟨s, fault, rfl, fun bytes hbytes => ?_, rfl⟩)
      rw [Base64.decode_eq_ok_iff.2 hbytes] at hread
      exact absurd hread (by simp)
  | null | bool | number | array | object => exact Or.inr (Or.inr ⟨by simp, rfl⟩)

/-- In Base64 it is told from the payload whether an envelope holds a file, and which one. -/
theorem isHeldBy_of_base64 {e : ObjectEnvelope} (h : e.isBase64 = true) (key : String) :
    IsHeldBy e key (ofEnvelope e key) := by
  have hname := isName_filenameOf key
  have hplain : e.isBase64 ≠ false := by rw [h]; decide
  rcases ofEnvelope_of_base64 h key with
    ⟨s, bytes, hs, hbytes, heq⟩ | ⟨s, fault, hs, hnone, heq⟩ | ⟨hnone, heq⟩
  · rw [heq]
    refine ⟨fun _ other => ⟨?_, ?_⟩, fun _ h => absurd hs (h s), fun _ t ht h => ?_,
      fun h => absurd h hplain, fun file hfile => ?_⟩
    · rintro ⟨file, hfile, rfl⟩
      obtain rfl := Except.ok.inj hfile
      exact ⟨s, hs, hbytes⟩
    · rintro ⟨t, ht, hother⟩
      obtain rfl := Json.string.inj (hs.symm.trans ht)
      exact ⟨_, rfl, Base64.encode_inj (hbytes.symm.trans hother)⟩
    · obtain rfl := Json.string.inj (hs.symm.trans ht)
      exact absurd hbytes (h bytes)
    · obtain rfl := Except.ok.inj hfile
      exact hname
  · rw [heq]
    refine ⟨fun _ bytes => ⟨fun ⟨_, hfile, _⟩ => absurd hfile (by simp), ?_⟩,
      fun _ h => absurd hs (h s), fun _ _ _ _ => ⟨fault, rfl⟩, fun h => absurd h hplain,
      fun _ hfile => absurd hfile (by simp)⟩
    rintro ⟨t, ht, hbytes⟩
    obtain rfl := Json.string.inj (hs.symm.trans ht)
    exact absurd hbytes (hnone bytes)
  · rw [heq]
    exact ⟨fun _ bytes => ⟨fun ⟨_, hfile, _⟩ => absurd hfile (by simp),
        fun ⟨t, ht, _⟩ => absurd ht (hnone t)⟩,
      fun _ _ => rfl, fun _ t ht => absurd ht (hnone t), fun h => absurd h hplain,
      fun _ hfile => absurd hfile (by simp)⟩

/-- Without Base64 an envelope always holds a file, which shows the payload. -/
theorem isHeldBy_of_plain {e : ObjectEnvelope} (h : e.isBase64 = false) {below : Nat}
    (hlevels : Json.maxLevels = below + 1) (hpayload : Json.IsOrdered below e.payload)
    (key : String) : IsHeldBy e key (ofEnvelope e key) := by
  have hplain : e.isBase64 ≠ true := by rw [h]; decide
  have heq : ofEnvelope e key = .ok ⟨(ofPayload e.payload e.metadata.contentType).1,
      (ofPayload e.payload e.metadata.contentType).2, filenameOf key⟩ := by
    unfold ofEnvelope
    dsimp only
    rw [if_neg hplain]
  rw [heq]
  refine ⟨fun h => absurd h hplain, fun h => absurd h hplain, fun h => absurd h hplain,
    fun _ => ⟨_, rfl, shows_ofPayload hlevels hpayload _ _⟩, fun file hfile => ?_⟩
  obtain rfl := Except.ok.inj hfile
  exact isName_filenameOf key

/-- An envelope that was read from a JSON text holds exactly what its payload says. -/
theorem isHeldBy_ofEnvelope {text : Bytes} {e : ObjectEnvelope}
    (he : ObjectEnvelope.layout.codec.ofBytes? text = .ok e) (key : String) :
    IsHeldBy e key (ofEnvelope e key) := by
  cases hbase64 : e.isBase64 with
  | true => exact isHeldBy_of_base64 hbase64 key
  | false =>
    obtain ⟨below, hlevels, hpayload⟩ := ObjectEnvelope.isOrdered_payload he
    exact isHeldBy_of_plain hbase64 hlevels hpayload key

/-- An envelope in the form of a list, whose payload is the standard form of two octets. -/
theorem isHeldBy_ofEnvelope_report :
    ∃ e file, ObjectEnvelope.layout.codec.ofBytes? (Utf8.ofString
        "[\"dir/report\",true,\"aGk=\",[\"ns\",\"sum\",2,\"text/plain\",\"me\",\"now\"]]") = .ok e ∧
      ofEnvelope e "dir/report" = .ok file ∧ file.bytes = Utf8.ofString "hi" ∧
      IsName "dir/report" file.filename := by
  have hread : ObjectEnvelope.layout.codec.ofBytes? (Utf8.ofString
      "[\"dir/report\",true,\"aGk=\",[\"ns\",\"sum\",2,\"text/plain\",\"me\",\"now\"]]") =
      .ok ⟨"dir/report", true, .string "aGk=",
        ⟨"ns", "sum", 2, "text/plain", "me", "now", none, .empty⟩⟩ := by rfl
  have hheld := isHeldBy_ofEnvelope hread "dir/report"
  obtain ⟨file, hfile, hbytes⟩ :=
    (hheld.decoded rfl (Utf8.ofString "hi")).2 ⟨"aGk=", rfl, by decide⟩
  exact ⟨_, file, hread, hfile, hbytes, hheld.named file hfile⟩

end Download

end RegistryConsole
