import RegistryConsole.Json.Record

/-! # Events

Subscriptions that notify someone when objects of a namespace change. -/

namespace RegistryConsole

open Json

/-- Who is notified, and how. -/
structure Notification where
  kind : String
  method : String
  urls : List String
  deriving DecidableEq

/-- The wire form of a notification. -/
def Notification.layout : Layout Notification where
  title := "NotifyConfig"
  members :=
    [.required "type" .string, .required "method" .string, .required "urls" (.list .string)]
  build v := ⟨v.1, v.2.1, v.2.2.1⟩
  parts n := (n.kind, n.method, n.urls, PUnit.unit)

/-- A subscription. -/
structure Event where
  ns : String
  id : String
  keys : List String
  notify : Notification
  audience : Option String
  createdAt : String
  deriving DecidableEq

/-- The wire form of a subscription. -/
def Event.layout : Layout Event where
  title := "EventRecord"
  members :=
    [.required "namespace" .string, .required "id" .string, .required "keys" (.list .string),
      .required "notify" Notification.layout.codec, .omitted "audience" .string,
      .required "created_at" .string]
  build v := ⟨v.1, v.2.1, v.2.2.1, v.2.2.2.1, v.2.2.2.2.1, v.2.2.2.2.2.1⟩
  parts e := (e.ns, e.id, e.keys, e.notify, e.audience, e.createdAt, PUnit.unit)

/-- What is sent to make or change a subscription. -/
structure EventRequest where
  keys : List String
  notify : Notification
  audience : String
  deriving DecidableEq

/-- The wire form of a request for a subscription. -/
def EventRequest.layout : Layout EventRequest where
  title := "EventRequest"
  members :=
    [.required "keys" (.list .string), .required "notify" Notification.layout.codec,
      .required "audience" .string]
  build v := ⟨v.1, v.2.1, v.2.2.1⟩
  parts e := (e.keys, e.notify, e.audience, PUnit.unit)

/-- The answer to a request for a subscription. -/
structure CreatedEvent where
  id : String
  deriving DecidableEq

/-- The wire form of the answer to a request for a subscription. -/
def CreatedEvent.layout : Layout CreatedEvent where
  title := "CreatedResponse"
  members := [.required "id" .string]
  build v := ⟨v.1⟩
  parts e := (e.id, PUnit.unit)

end RegistryConsole
