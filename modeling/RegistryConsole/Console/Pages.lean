import RegistryConsole.Gateway.Forward
import RegistryConsole.Registry.Page

/-! # Loading the pages

The data that a page shows first comes from the registry. When it cannot be had, the page shows a
safe default, and the log says why. -/

namespace RegistryConsole

/-- Why the data of a page cannot be had. -/
inductive PageFault where
  | gateway (fault : GatewayFault)
  | status (status : Status)
  | unreadable
  | invalid (text : Bytes) (fault : Json.Fault)

/-- The text of a fault. -/
def PageFault.message : PageFault → String
  | .gateway f => f.message
  | .status s => s.title
  | .unreadable => "failed to read body: " ++ CallFault.unreadable.message
  | .invalid text f => "failed to parse body: " ++ f.message text

namespace Page

/-- The value that a successful answer holds. -/
def readValue {α : Type} (codec : Json.Codec α) (r : Response) : Except PageFault α :=
  if r.status.isSuccess then
    match r.body.whole? with
    | none => .error .unreadable
    | some text =>
      match codec.ofBytes? text with
      | .error f => .error (.invalid text f)
      | .ok x => .ok x
  else .error (.status r.status)

/-- Reads a value from the registry. -/
def fetch {α σ : Type} (codec : Json.Codec α) (g : Gateway) (net : Network σ) (now : Int64)
    (call : ForwardCall) (s : σ) : Except PageFault α × σ :=
  match g.forward net now call s with
  | (.error f, s) => (.error (.gateway f), s)
  | (.ok r, s) => (readValue codec r, s)

/-- The event that tells why something could not be fetched. -/
def event (what : String) (f : PageFault) : LogEvent :=
  ⟨.error, "object_registry_ui::proxy::handlers::pages",
    "Failed to fetch " ++ what ++ ": " ++ f.message, []⟩

/-- What a page shows of what was fetched. -/
def shown {α β : Type} (what : String) (fallback : β) (build : α → β) :
    Except PageFault α → β × List LogEvent
  | .ok x => (build x, [])
  | .error f => (fallback, [event what f])

end Page

namespace Gateway

/-- The data of the home page: the namespaces. -/
def loadHome {σ : Type} (g : Gateway) (net : Network σ) (now : Int64) (s : σ) :
    (HomePage × List LogEvent) × σ :=
  let (result, s) := Page.fetch (.list .string) g net now (.reading "namespaces" none) s
  (Page.shown "namespaces" .fallback HomePage.mk result, s)

/-- The data of the audit page: the latest audit records. -/
def loadAudit {σ : Type} (g : Gateway) (net : Network σ) (now : Int64) (s : σ) :
    (AuditPage × List LogEvent) × σ :=
  let query := "limit=" ++ toString AuditQuery.pageLimit.toNat
  let (result, s) :=
    Page.fetch (.list AuditRecord.layout.codec) g net now (.reading "audit" (some query)) s
  (Page.shown "audit logs" .fallback AuditPage.mk result, s)

end Gateway

end RegistryConsole
