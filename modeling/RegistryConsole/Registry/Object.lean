import RegistryConsole.Json.Record
import RegistryConsole.Json.Table

/-! # Objects

What the registry says about a stored object, and the envelope that a download comes in. -/

namespace RegistryConsole

open Json

/-- What the registry keeps about an object. -/
structure ObjectMetadata where
  ns : String
  checksum : String
  size : UInt64
  contentType : String
  createdBy : String
  createdAt : String
  version : Option String
  labels : Table
  deriving DecidableEq

namespace ObjectMetadata

/-- The wire form of object metadata. -/
def layout : Layout ObjectMetadata where
  title := "ObjectMetadata"
  members :=
    [.required "namespace" .string, .required "checksum" .string,
      .required "size" (.nat64 "u64"), .required "content_type" .string,
      .required "created_by" .string, .required "created_at" .string,
      .omitted "version" .string, .defaulted "labels" .table .empty]
  build v :=
    let (ns, checksum, size, contentType, createdBy, createdAt, version, labels, _) := v
    ⟨ns, checksum, size, contentType, createdBy, createdAt, version, labels⟩
  parts m :=
    (m.ns, m.checksum, m.size, m.contentType, m.createdBy, m.createdAt, m.version, m.labels,
      PUnit.unit)

end ObjectMetadata

/-- An object in a listing. -/
structure ObjectSummary where
  key : String
  metadata : ObjectMetadata
  deriving DecidableEq

/-- The wire form of an object in a listing. -/
def ObjectSummary.layout : Layout ObjectSummary where
  title := "ObjectSummary"
  members := [.required "key" .string, .required "metadata" ObjectMetadata.layout.codec]
  build v := ⟨v.1, v.2.1⟩
  parts s := (s.key, s.metadata, PUnit.unit)

/-- The objects of a namespace. -/
structure ObjectListing where
  objects : List ObjectSummary
  deriving DecidableEq

/-- The wire form of a listing. -/
def ObjectListing.layout : Layout ObjectListing where
  title := "ListObjectsResponse"
  members := [.required "objects" (.list ObjectSummary.layout.codec)]
  build v := ⟨v.1⟩
  parts l := (l.objects, PUnit.unit)

/-- An object as it is downloaded. The payload is a JSON value, a text, or the base64 text of
octets when `isBase64` is set. -/
structure ObjectEnvelope where
  key : String
  isBase64 : Bool
  payload : Json
  metadata : ObjectMetadata

/-- The wire form of an envelope. -/
def ObjectEnvelope.layout : Layout ObjectEnvelope where
  title := "ObjectEnvelope"
  members :=
    [.required "key" .string, .defaulted "is_base64_encoded" .bool false,
      .required "payload" .any, .required "metadata" ObjectMetadata.layout.codec]
  build v := ⟨v.1, v.2.1, v.2.2.1, v.2.2.2.1⟩
  parts e := (e.key, e.isBase64, e.payload, e.metadata, PUnit.unit)

end RegistryConsole
