import RegistryConsole.Proofs.Json.Variants
import RegistryConsole.Registry.Claims
import RegistryConsole.Registry.Event
import RegistryConsole.Registry.Object
import RegistryConsole.Registry.Page
import RegistryConsole.Settings.Server

/-! # The records on the wire

Every record that is sent, received or kept in a file is read back from what is written for it,
whatever its texts, numbers and tables are. The order of members does not matter to any of them, and
neither do members that they do not know, at any place where there is a record. -/

namespace RegistryConsole

open Json

/-! ## Claims -/

def Claims.shape : Shape :=
  layout.shape []

theorem Claims.readsVariants (levels : Nat) (c : Claims) :
    layout.codec.ReadsVariants (levels + 1) shape c :=
  Layout.readsVariants (by decide) rfl
    ⟨.required_int64 "iat" _ _ c.issuedAt, .required_int64 "exp" _ _ c.expires,
      .required_string "aud" _ _ c.audience, .required_string "iss" _ _ c.issuer,
      .required_string "sub" _ _ c.subject, trivial⟩

theorem Claims.readsBack (levels : Nat) (c : Claims) :
    Claims.layout.codec.ReadsBack (levels + 1) c :=
  (readsVariants levels c).readsBack

/-! ## Objects -/

def ObjectMetadata.shape : Shape :=
  layout.shape []

/-- Metadata is read from its texts, with the table of its labels one level deeper. -/
theorem ObjectMetadata.readsVariants (levels : Nat) (m : ObjectMetadata) :
    layout.codec.ReadsVariants (levels + 2) shape m :=
  Layout.readsVariants (by decide) rfl
    ⟨.required_string "namespace" _ _ m.ns, .required_string "checksum" _ _ m.checksum,
      .required "size" ((Codec.nat64_readsBack "u64" _ m.size).readsVariants _ trivial),
      .required_string "content_type" _ _ m.contentType,
      .required_string "created_by" _ _ m.createdBy, .required_string "created_at" _ _ m.createdAt,
      .omitted_string "version" _ _ m.version,
      .defaulted "labels" _ (Codec.table_readsVariants levels m.labels), trivial⟩

def ObjectSummary.shape : Shape :=
  layout.shape [("metadata", ObjectMetadata.shape)]

theorem ObjectSummary.readsVariants (levels : Nat) (s : ObjectSummary) :
    layout.codec.ReadsVariants (levels + 3) shape s :=
  Layout.readsVariants (by decide) rfl
    ⟨.required_string "key" _ _ s.key,
      .required "metadata" (ObjectMetadata.readsVariants levels s.metadata), trivial⟩

def ObjectListing.shape : Shape :=
  layout.shape [("objects", .list ObjectSummary.shape)]

theorem ObjectListing.readsVariants (levels : Nat) (l : ObjectListing) :
    layout.codec.ReadsVariants (levels + 5) shape l :=
  Layout.readsVariants (by decide) rfl
    ⟨.required "objects" (Codec.list_readsVariants
      fun s _ => ObjectSummary.readsVariants levels s), trivial⟩

def ObjectEnvelope.shape : Shape :=
  layout.shape [("metadata", ObjectMetadata.shape)]

/-- Whether the payload of an envelope is a value that can be read back: it is one without
fractions, has its members in order as all values do, and does not nest so deep that the envelope
cannot be read. -/
structure ObjectEnvelope.IsReadable (e : ObjectEnvelope) : Prop where
  integral : IsIntegral e.payload
  sorted : e.payload.sorted = e.payload
  nests : Nests maxLevels (layout.codec.write e)

/-- Metadata nests no deeper than its labels do. -/
theorem ObjectMetadata.nests_write (levels : Nat) (m : ObjectMetadata) :
    Nests (levels + 2) (layout.codec.write m) := by
  have hlabels : Nests (levels + 1) (Codec.table.write m.labels) := by
    intro e he
    obtain ⟨label, -, rfl⟩ := List.mem_map.1 he
    cases levels <;> trivial
  obtain ⟨ns, checksum, size, contentType, createdBy, createdAt, version, labels⟩ := m
  have hrest : ∀ e ∈ Values.write [.omitted "version" .string, .defaulted "labels" .table .empty]
      (version, labels, PUnit.unit), Nests (levels + 1) e.2 := by
    cases version with
    | none => exact List.forall_mem_singleton.2 hlabels
    | some s => exact List.forall_mem_cons.2 ⟨trivial, List.forall_mem_singleton.2 hlabels⟩
  intro e he
  rcases he with _ | ⟨_, _ | ⟨_, _ | ⟨_, _ | ⟨_, _ | ⟨_, _ | ⟨_, he⟩⟩⟩⟩⟩⟩
  iterate 6 trivial
  exact hrest e he

/-- An envelope nests too deep only where its payload does. -/
theorem ObjectEnvelope.nests_write_iff {e : ObjectEnvelope} :
    Nests maxLevels (layout.codec.write e) ↔ Nests (maxLevels - 1) e.payload := by
  constructor
  · intro h
    have hmembers : ∀ m ∈ Values.write layout.members (layout.parts e),
        Nests (maxLevels - 1) m.2 := h
    exact hmembers ("payload", e.payload) (.tail _ (.tail _ (.head _)))
  · intro h
    exact List.forall_mem_cons.2 ⟨trivial, List.forall_mem_cons.2 ⟨trivial,
      List.forall_mem_cons.2 ⟨h, List.forall_mem_singleton.2
        (ObjectMetadata.nests_write 124 e.metadata)⟩⟩⟩

theorem ObjectEnvelope.readsVariants {e : ObjectEnvelope} (h : e.IsReadable) :
    layout.codec.ReadsVariants maxLevels shape e :=
  Layout.readsVariants (by decide) rfl
    ⟨.required_string "key" _ _ e.key,
      .defaulted "is_base64_encoded" _
        ((Codec.bool_readsBack _ e.isBase64).readsVariants _ trivial),
      .required "payload" (Codec.any_readsVariants
        (fits_of_nests (nests_write_iff.1 h.nests) h.integral) h.sorted),
      .required "metadata" (ObjectMetadata.readsVariants 124 e.metadata), trivial⟩

/-! ## Events -/

def Notification.shape : Shape :=
  layout.shape []

theorem Notification.readsVariants (levels : Nat) (n : Notification) :
    layout.codec.ReadsVariants (levels + 2) shape n :=
  Layout.readsVariants (by decide) rfl
    ⟨.required_string "type" _ _ n.kind, .required_string "method" _ _ n.method,
      .required "urls" (Codec.strings_readsVariants levels _ n.urls), trivial⟩

def Event.shape : Shape :=
  layout.shape [("notify", Notification.shape)]

theorem Event.readsVariants (levels : Nat) (e : Event) :
    layout.codec.ReadsVariants (levels + 3) shape e :=
  Layout.readsVariants (by decide) rfl
    ⟨.required_string "namespace" _ _ e.ns, .required_string "id" _ _ e.id,
      .required "keys" (Codec.strings_readsVariants _ _ e.keys),
      .required "notify" (Notification.readsVariants levels e.notify),
      .omitted_string "audience" _ _ e.audience, .required_string "created_at" _ _ e.createdAt,
      trivial⟩

def EventRequest.shape : Shape :=
  layout.shape [("notify", Notification.shape)]

theorem EventRequest.readsVariants (levels : Nat) (r : EventRequest) :
    layout.codec.ReadsVariants (levels + 3) shape r :=
  Layout.readsVariants (by decide) rfl
    ⟨.required "keys" (Codec.strings_readsVariants _ _ r.keys),
      .required "notify" (Notification.readsVariants levels r.notify),
      .required_string "audience" _ _ r.audience, trivial⟩

def CreatedEvent.shape : Shape :=
  layout.shape []

theorem CreatedEvent.readsVariants (levels : Nat) (e : CreatedEvent) :
    layout.codec.ReadsVariants (levels + 1) shape e :=
  Layout.readsVariants (by decide) rfl ⟨.required_string "id" _ _ e.id, trivial⟩

/-! ## The audit log and pages -/

def AuditRecord.shape : Shape :=
  layout.shape []

/-- An audit record is read from its texts, with the table of its details one level deeper. -/
theorem AuditRecord.readsVariants (levels : Nat) (r : AuditRecord) :
    layout.codec.ReadsVariants (levels + 2) shape r :=
  Layout.readsVariants (by decide) rfl
    ⟨.required_string "id" _ _ r.id, .required_int64 "timestamp" _ _ r.timestamp,
      .required_int64 "ttl" _ _ r.ttl, .required_string "action" _ _ r.action,
      .required_string "subject" _ _ r.subject, .omitted_string "namespace" _ _ r.ns,
      .omitted_string "object_key" _ _ r.objectKey,
      .defaulted "details" _ (Codec.table_readsVariants levels r.details), trivial⟩

def HomePage.shape : Shape :=
  layout.shape []

theorem HomePage.readsVariants (levels : Nat) (p : HomePage) :
    layout.codec.ReadsVariants (levels + 2) shape p :=
  Layout.readsVariants (by decide) rfl
    ⟨.required "namespaces" (Codec.strings_readsVariants levels _ p.namespaces), trivial⟩

theorem HomePage.readsBack (levels : Nat) (p : HomePage) :
    HomePage.layout.codec.ReadsBack (levels + 2) p :=
  (readsVariants levels p).readsBack

def AuditPage.shape : Shape :=
  layout.shape [("audit_logs", .list AuditRecord.shape)]

theorem AuditPage.readsVariants (levels : Nat) (p : AuditPage) :
    layout.codec.ReadsVariants (levels + 4) shape p :=
  Layout.readsVariants (by decide) rfl
    ⟨.required "audit_logs" (Codec.list_readsVariants
      fun r _ => AuditRecord.readsVariants levels r), trivial⟩

theorem AuditPage.readsBack (levels : Nat) (p : AuditPage) :
    AuditPage.layout.codec.ReadsBack (levels + 4) p :=
  (readsVariants levels p).readsBack

/-! ## Settings -/

def ServerSettings.shape (siteDir : String) : Shape :=
  (layout siteDir).shape []

theorem ServerSettings.nodup_names (siteDir : String) :
    ((layout siteDir).members.map Member.name).Nodup := by
  show ["port", "allow_lan_access", "bind_address", "max_body_bytes", "static_dir"].Nodup
  decide

/-- Settings are read from their texts, whatever the directory for those without one is. -/
theorem ServerSettings.readsVariants (siteDir : String) (levels : Nat) (s : ServerSettings) :
    (layout siteDir).codec.ReadsVariants (levels + 1) (shape siteDir) s :=
  Layout.readsVariants (nodup_names siteDir) rfl
    ⟨.defaulted "port" _ ((Codec.nat16_readsBack _ s.port).readsVariants _ trivial),
      .defaulted "allow_lan_access" _
        ((Codec.bool_readsBack _ s.allowLan).readsVariants _ trivial),
      .defaulted "bind_address" _ (Codec.optional_string_readsVariants _ _ s.bindAddress),
      .defaulted "max_body_bytes" _
        ((Codec.nat64_readsBack "usize" _ s.maxBody).readsVariants _ trivial),
      .defaulted "static_dir" _ ((Codec.path_readsBack _ s.siteDir).readsVariants _ trivial),
      trivial⟩

/-! ## All of them -/

/-- A type of records. Settings come with the directory to use where they name none. -/
inductive RecordType where
  | metadata
  | summary
  | listing
  | envelope
  | notification
  | event
  | eventRequest
  | createdEvent
  | auditRecord
  | settings (siteDir : String)
  | claims
  | homePage
  | auditPage

namespace RecordType

/-- The records of a type. -/
def Carrier : RecordType → Type
  | .metadata => ObjectMetadata
  | .summary => ObjectSummary
  | .listing => ObjectListing
  | .envelope => ObjectEnvelope
  | .notification => Notification
  | .event => Event
  | .eventRequest => EventRequest
  | .createdEvent => CreatedEvent
  | .auditRecord => AuditRecord
  | .settings _ => ServerSettings
  | .claims => Claims
  | .homePage => HomePage
  | .auditPage => AuditPage

/-- How they are read and written. -/
def codec : (t : RecordType) → Codec t.Carrier
  | .metadata => ObjectMetadata.layout.codec
  | .summary => ObjectSummary.layout.codec
  | .listing => ObjectListing.layout.codec
  | .envelope => ObjectEnvelope.layout.codec
  | .notification => Notification.layout.codec
  | .event => Event.layout.codec
  | .eventRequest => EventRequest.layout.codec
  | .createdEvent => CreatedEvent.layout.codec
  | .auditRecord => AuditRecord.layout.codec
  | .settings siteDir => (ServerSettings.layout siteDir).codec
  | .claims => Claims.layout.codec
  | .homePage => HomePage.layout.codec
  | .auditPage => AuditPage.layout.codec

/-- Where in their texts the records are. -/
def shape : RecordType → Shape
  | .metadata => ObjectMetadata.shape
  | .summary => ObjectSummary.shape
  | .listing => ObjectListing.shape
  | .envelope => ObjectEnvelope.shape
  | .notification => Notification.shape
  | .event => Event.shape
  | .eventRequest => EventRequest.shape
  | .createdEvent => CreatedEvent.shape
  | .auditRecord => AuditRecord.shape
  | .settings siteDir => ServerSettings.shape siteDir
  | .claims => Claims.shape
  | .homePage => HomePage.shape
  | .auditPage => AuditPage.shape

/-- Whether a record can be read back. Only the payload of an envelope may stand in the way. -/
def IsReadable : (t : RecordType) → t.Carrier → Prop
  | .envelope, e => ObjectEnvelope.IsReadable e
  | _, _ => True

theorem readsVariants : (t : RecordType) → (x : t.Carrier) → t.IsReadable x →
    t.codec.ReadsVariants maxLevels t.shape x
  | .metadata, m, _ => ObjectMetadata.readsVariants 125 m
  | .summary, s, _ => ObjectSummary.readsVariants 124 s
  | .listing, l, _ => ObjectListing.readsVariants 122 l
  | .envelope, _, h => ObjectEnvelope.readsVariants h
  | .notification, n, _ => Notification.readsVariants 125 n
  | .event, e, _ => Event.readsVariants 124 e
  | .eventRequest, r, _ => EventRequest.readsVariants 124 r
  | .createdEvent, e, _ => CreatedEvent.readsVariants 126 e
  | .auditRecord, r, _ => AuditRecord.readsVariants 125 r
  | .settings siteDir, s, _ => ServerSettings.readsVariants siteDir 126 s
  | .claims, c, _ => Claims.readsVariants 126 c
  | .homePage, p, _ => HomePage.readsVariants 125 p
  | .auditPage, p, _ => AuditPage.readsVariants 123 p

/-- Every record is read back from its octets. It is read as well from any text that differs from
them in the order of the members of objects and in members that records do not know, whatever the
values of those are. -/
theorem roundTrips (t : RecordType) (x : t.Carrier) (hx : t.IsReadable x) :
    t.codec.ofBytes? (t.codec.bytes x) = .ok x ∧
      ∀ text, Varies t.shape (t.codec.write x) text → t.codec.ofBytes? text = .ok x :=
  have hread := t.readsVariants x hx
  ⟨Codec.ofBytes?_bytes hread.readsBack, fun _ htext => hread.ofBytes? htext⟩

/-- An envelope is read whose payload has its members in another order and whose metadata has a
member that no record knows, with a number that no other member could have. -/
theorem roundTrips_envelope :
    let metadata : ObjectMetadata :=
      ⟨"n\\s", "", 0xFFFFFFFFFFFFFFFF, "text/plain", "ui", "\u00FC", none,
        .ofList [("b", "\n"), ("a", "")]⟩
    let payload : Json := .object [("x", .array [.null, .object []]), ("y", .string "\"")]
    let envelope : ObjectEnvelope := ⟨"k", false, payload, metadata⟩
    let written (j : Json) : Bytes := j.bytes
    let known : List (String × Bytes) :=
      (Values.write ObjectMetadata.layout.members (ObjectMetadata.layout.parts metadata)).map
        fun m => (m.1, written m.2)
    let text : Bytes := objectText
      [("metadata", objectText (("seen", [0x31, 0x65, 0x39, 0x39, 0x39]) :: known)),
        ("is_base64_encoded", written (.bool false)),
        ("payload", objectText [("y", written (.string "\"")),
          ("x", written (.array [.null, .object []]))]),
        ("key", written (.string "k"))]
    envelope.IsReadable ∧
      ObjectEnvelope.layout.codec.ofBytes? (ObjectEnvelope.layout.codec.bytes envelope) =
        .ok envelope ∧
      ObjectEnvelope.layout.codec.ofBytes? text = .ok envelope := by
  intro metadata payload envelope written known text
  have hintegral : IsIntegral payload :=
    .object (List.forall_mem_cons.2 ⟨.array (List.forall_mem_cons.2 ⟨.null,
      List.forall_mem_singleton.2 (.object (List.forall_mem_nil _))⟩),
      List.forall_mem_singleton.2 (.string _)⟩)
  have hnests : Nests (maxLevels - 1) payload :=
    List.forall_mem_cons.2 ⟨List.forall_mem_cons.2 ⟨trivial,
      List.forall_mem_singleton.2 (List.forall_mem_nil _)⟩, List.forall_mem_singleton.2 trivial⟩
  have hreadable : envelope.IsReadable :=
    ⟨hintegral, by rfl, ObjectEnvelope.nests_write_iff.2 hnests⟩
  have hpayload : Varies .plain payload (objectText [("y", written (.string "\"")),
      ("x", written (.array [.null, .object []]))]) :=
    .permuted (.cons (.refl _ _) (.cons (.scalar trivial) .nil)) (List.Perm.swap _ _ _)
  have hwhole : AreDigits [0x31] :=
    ⟨List.cons_ne_nil _ _, List.forall_mem_singleton.2 (by decide)⟩
  have hexponent : AreDigits [0x39, 0x39, 0x39] :=
    ⟨List.cons_ne_nil _ _, List.forall_mem_cons.2 ⟨by decide, List.forall_mem_cons.2 ⟨by decide,
      List.forall_mem_singleton.2 (by decide)⟩⟩⟩
  have hnumber : IsText [0x31, 0x65, 0x39, 0x39, 0x39] :=
    .positive (@IsMagnitude.intro [0x31] [] [0x65, 0x39, 0x39, 0x39] hwhole (by decide) .missing
      (@IsExponent.digits 0x65 [] [0x39, 0x39, 0x39] (Or.inl rfl) (Or.inl rfl) hexponent))
  have hmetadata : Varies ObjectMetadata.shape (ObjectMetadata.layout.codec.write metadata)
      (objectText (("seen", [0x31, 0x65, 0x39, 0x39, 0x39]) :: known)) :=
    .object (MembersVary.refl _ _) (List.forall_mem_singleton.2 ⟨by rfl, hnumber⟩)
      (List.perm_append_singleton _ _).symm
  have htext : Varies ObjectEnvelope.shape (ObjectEnvelope.layout.codec.write envelope) text :=
    .permuted (.cons (.scalar trivial) (.cons (.scalar trivial)
      (.cons hpayload (.cons hmetadata .nil)))) (by decide +kernel)
  obtain ⟨hback, hvariants⟩ := roundTrips .envelope envelope hreadable
  exact ⟨hreadable, hback, hvariants text htext⟩

end RecordType

end RegistryConsole
