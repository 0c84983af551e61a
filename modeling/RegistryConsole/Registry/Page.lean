import RegistryConsole.Registry.Audit

/-! # Page data

What the pages of the console show first. -/

namespace RegistryConsole

open Json

/-- What the home page shows: the namespaces. -/
structure HomePage where
  namespaces : List String
  deriving DecidableEq

/-- The wire form of the home page's data. -/
def HomePage.layout : Layout HomePage where
  title := "HomePageData"
  members := [.required "namespaces" (.list .string)]
  build v := ⟨v.1⟩
  parts p := (p.namespaces, PUnit.unit)

/-- The home page when the registry names no namespaces. -/
def HomePage.fallback : HomePage := ⟨["default"]⟩

/-- What the audit page shows: the latest audit records. -/
structure AuditPage where
  records : List AuditRecord
  deriving DecidableEq

/-- The wire form of the audit page's data. -/
def AuditPage.layout : Layout AuditPage where
  title := "AuditPageData"
  members := [.required "audit_logs" (.list AuditRecord.layout.codec)]
  build v := ⟨v.1⟩
  parts p := (p.records, PUnit.unit)

/-- The audit page when the registry gives no records. -/
def AuditPage.fallback : AuditPage := ⟨[]⟩

end RegistryConsole
