import RegistryConsole.Client.Fault
import RegistryConsole.Console.Basic
import RegistryConsole.Registry.Event
import RegistryConsole.Registry.Object
import RegistryConsole.Registry.Page

/-! # The client

Calls to the registry through a console: one for each thing that can be done with namespaces,
objects, events and the audit log. -/

namespace RegistryConsole

/-- A client of the console at an address. -/
structure Client where
  /-- The address that calls start with. -/
  base : String

namespace Client

/-- The client for the console at an address. Slashes at its end do not count. -/
def of (address : String) : Client :=
  ⟨RegistrySettings.trimSlashes address ++ Route.registryLead⟩

/-- The agent of a client. -/
def agent : Agent := ⟨none, true⟩

/-- A text without the slashes before it. -/
def trimLead (s : String) : String :=
  String.ofList (s.toList.dropWhile (· == '/'))

/-- The URL for a path of the registry. -/
def url (c : Client) (path : String) : Except UrlFault Url :=
  Url.ofText (c.base ++ "/" ++ trimLead path)

/-- The URL for a path of the registry, with fields in its query. -/
def urlWith (c : Client) (path : String) (fields : List (String × String)) :
    Except UrlFault Url :=
  match c.url path with
  | .error f => .error f
  | .ok u => .ok (fields.foldl Url.addField u)

/-- The field for the version of an object. -/
def versionField : Option String → List (String × String)
  | some v => [("version", v)]
  | none => []

/-- A call that the client makes, and what it is called in messages. -/
structure Task where
  method : Method
  path : String
  action : String
  fields : List (String × String) := []
  /-- The media type and the content that are sent. -/
  content : Option (String × Bytes) := none

/-- The call of a task to a URL. A media type that is no field value cannot be sent, and neither
can anything to a URL without a host. -/
def callFor (task : Task) (u : Url) : Except ClientFault Call :=
  if !u.hasHost then .error (.call (.badUrl u))
  else match task.content with
    | none => .ok ⟨task.method, u, [], none⟩
    | some (mediaType, body) =>
      let value := Utf8.ofString mediaType
      if HeaderField.isValue value then
        .ok ⟨task.method, u, [⟨"content-type", value, false⟩], some body⟩
      else .error (.call .malformed)

/-- Carries out a task. -/
def perform {σ : Type} (c : Client) (net : Network σ) (task : Task) (s : σ) :
    Except ClientFault Response × σ :=
  match c.urlWith task.path task.fields with
  | .error f => (.error (.url f), s)
  | .ok u =>
    match callFor task u with
    | .error f => (.error f, s)
    | .ok call =>
      match agent.send net call s with
      | (.error f, s) => (.error (.call f), s)
      | (.ok r, s) =>
        if r.status.isSuccess then (.ok r, s)
        else (.error (.refused r.status (Refusal.message task.action r)), s)

/-- The value in an answer. -/
def valueOf {α : Type} (codec : Json.Codec α) (r : Response) : Except ClientFault α :=
  match r.body.whole? with
  | none => .error (.call .unreadable)
  | some body =>
    match codec.ofBytes? body with
    | .error _ => .error (.call .unreadable)
    | .ok x => .ok x

/-- Carries out a task whose answer holds a value. -/
def ask {α σ : Type} (c : Client) (net : Network σ) (codec : Json.Codec α) (task : Task) (s : σ) :
    Except ClientFault α × σ :=
  match c.perform net task s with
  | (.error f, s) => (.error f, s)
  | (.ok r, s) => (valueOf codec r, s)

/-- Carries out a task whose answer does not matter. -/
def tell {σ : Type} (c : Client) (net : Network σ) (task : Task) (s : σ) :
    Except ClientFault Unit × σ :=
  match c.perform net task s with
  | (.error f, s) => (.error f, s)
  | (.ok _, s) => (.ok (), s)

/-! ## Tasks -/

/-- Where an object is in the registry. -/
def objectPath (ns key : String) : String := ns ++ "/" ++ key

/-- Where the events of a namespace are. -/
def eventsPath (ns : String) : String := "events/" ++ ns

/-- Where an event is. -/
def eventPath (ns id : String) : String := eventsPath ns ++ "/" ++ id

/-- The media type of an upload: the one given, unless it is empty. -/
def uploadType (given : Option String) : String :=
  match given with
  | none | some "" => "application/octet-stream"
  | some mediaType => mediaType

namespace Task

/-- Lists the namespaces. -/
def namespaces : Task := ⟨.get, "namespaces", "list namespaces", [], none⟩

/-- Lists the objects of a namespace. -/
def objects (ns : String) : Task := ⟨.get, ns, "list objects", [], none⟩

/-- Gets an object. -/
def object (ns key : String) (version : Option String) : Task :=
  ⟨.get, objectPath ns key, "download object", versionField version, none⟩

/-- Stores an object. -/
def upload (ns key : String) (version : Option String) (body : Bytes)
    (mediaType : Option String) : Task :=
  ⟨.put, objectPath ns key, "upload object", versionField version,
    some (uploadType mediaType, body)⟩

/-- Deletes an object. -/
def delete (ns key : String) : Task := ⟨.delete, objectPath ns key, "delete object", [], none⟩

/-- Lists the events of a namespace. -/
def events (ns : String) : Task := ⟨.get, eventsPath ns, "list events", [], none⟩

/-- What is sent to make or change an event. -/
def eventContent (request : EventRequest) : String × Bytes :=
  ("application/json", EventRequest.layout.codec.bytes request)

/-- Makes an event. -/
def createEvent (ns : String) (request : EventRequest) : Task :=
  ⟨.post, eventsPath ns, "create event", [], some (eventContent request)⟩

/-- Changes an event. -/
def updateEvent (ns id : String) (request : EventRequest) : Task :=
  ⟨.put, eventPath ns id, "update event", [], some (eventContent request)⟩

/-- Deletes an event. -/
def deleteEvent (ns id : String) : Task := ⟨.delete, eventPath ns id, "delete event", [], none⟩

/-- Lists audit records. -/
def auditLog (query : AuditQuery) : Task := ⟨.get, "audit", "list audit logs", query.pairs, none⟩

end Task

/-! ## Operations -/

variable {σ : Type}

/-- The namespaces. -/
def listNamespaces (c : Client) (net : Network σ) (s : σ) :
    Except ClientFault (List String) × σ :=
  c.ask net (.list .string) .namespaces s

/-- The objects of a namespace. -/
def listObjects (c : Client) (net : Network σ) (ns : String) (s : σ) :
    Except ClientFault (List ObjectSummary) × σ :=
  match c.ask net ObjectListing.layout.codec (.objects ns) s with
  | (.error f, s) => (.error f, s)
  | (.ok listing, s) => (.ok listing.objects, s)

/-- The envelope of an object. -/
def getObject (c : Client) (net : Network σ) (ns key : String) (version : Option String)
    (s : σ) : Except ClientFault ObjectEnvelope × σ :=
  c.ask net ObjectEnvelope.layout.codec (.object ns key version) s

/-- The file that an object is. -/
def downloadObject (c : Client) (net : Network σ) (ns key : String) (version : Option String)
    (s : σ) : Except ClientFault Download × σ :=
  match c.getObject net ns key version s with
  | (.error f, s) => (.error f, s)
  | (.ok envelope, s) =>
    match Download.ofEnvelope envelope key with
    | .error f => (.error (.envelope f), s)
    | .ok file => (.ok file, s)

/-- Stores an object. -/
def uploadObject (c : Client) (net : Network σ) (ns key : String) (version : Option String)
    (body : Bytes) (mediaType : Option String) (s : σ) : Except ClientFault Unit × σ :=
  c.tell net (.upload ns key version body mediaType) s

/-- Deletes an object. -/
def deleteObject (c : Client) (net : Network σ) (ns key : String) (s : σ) :
    Except ClientFault Unit × σ :=
  c.tell net (.delete ns key) s

/-- The events of a namespace. -/
def listEvents (c : Client) (net : Network σ) (ns : String) (s : σ) :
    Except ClientFault (List Event) × σ :=
  c.ask net (.list Event.layout.codec) (.events ns) s

/-- Makes an event. -/
def createEvent (c : Client) (net : Network σ) (ns : String) (request : EventRequest) (s : σ) :
    Except ClientFault CreatedEvent × σ :=
  c.ask net CreatedEvent.layout.codec (.createEvent ns request) s

/-- Changes an event. -/
def updateEvent (c : Client) (net : Network σ) (ns id : String) (request : EventRequest)
    (s : σ) : Except ClientFault CreatedEvent × σ :=
  c.ask net CreatedEvent.layout.codec (.updateEvent ns id request) s

/-- Deletes an event. -/
def deleteEvent (c : Client) (net : Network σ) (ns id : String) (s : σ) :
    Except ClientFault Unit × σ :=
  c.tell net (.deleteEvent ns id) s

/-- The audit records of a query. -/
def listAuditLogs (c : Client) (net : Network σ) (query : AuditQuery) (s : σ) :
    Except ClientFault (List AuditRecord) × σ :=
  c.ask net (.list AuditRecord.layout.codec) (.auditLog query) s

end Client

end RegistryConsole
