import RegistryConsole.Json.Record
import RegistryConsole.Json.Table

/-! # The audit log

The records of what was done to the registry, and queries for them. -/

namespace RegistryConsole

open Json

/-- An action that the registry recorded. -/
structure AuditRecord where
  id : String
  timestamp : Int64
  ttl : Int64
  action : String
  subject : String
  ns : Option String
  objectKey : Option String
  details : Table
  deriving DecidableEq

namespace AuditRecord

/-- The wire form of an audit record. -/
def layout : Layout AuditRecord where
  title := "AuditRecord"
  members :=
    [.required "id" .string, .required "timestamp" .int64, .required "ttl" .int64,
      .required "action" .string, .required "subject" .string, .omitted "namespace" .string,
      .omitted "object_key" .string, .defaulted "details" .table .empty]
  build v :=
    let (id, timestamp, ttl, action, subject, ns, objectKey, details, _) := v
    ⟨id, timestamp, ttl, action, subject, ns, objectKey, details⟩
  parts r :=
    (r.id, r.timestamp, r.ttl, r.action, r.subject, r.ns, r.objectKey, r.details, PUnit.unit)

end AuditRecord

/-- Which audit records are wanted: at most `limit`, and where a kind of filter has values, only
those that match one of them. -/
structure AuditQuery where
  limit : UInt32 := 100
  actions : List String := []
  subjects : List String := []
  namespaces : List String := []
  deriving DecidableEq

/-- A step in building a query. -/
inductive AuditFilter where
  | limit (n : UInt32)
  | action (s : String)
  | subject (s : String)
  | ns (s : String)
  deriving DecidableEq

namespace AuditQuery

/-- How many records a page shows. -/
def pageLimit : UInt32 := 100

/-- The query with one more filter, or another limit. -/
def add (q : AuditQuery) : AuditFilter → AuditQuery
  | .limit n => { q with limit := n }
  | .action s => { q with actions := q.actions ++ [s] }
  | .subject s => { q with subjects := q.subjects ++ [s] }
  | .ns s => { q with namespaces := q.namespaces ++ [s] }

/-- The query of a list of filters. -/
def ofFilters (filters : List AuditFilter) : AuditQuery :=
  filters.foldl add {}

/-- The names and values of the query, in the order in which they are sent. -/
def pairs (q : AuditQuery) : List (String × String) :=
  ("limit", toString q.limit.toNat) ::
    (q.actions.map ("action", ·) ++ q.subjects.map ("subject", ·) ++
      q.namespaces.map ("namespace", ·))

end AuditQuery

end RegistryConsole
