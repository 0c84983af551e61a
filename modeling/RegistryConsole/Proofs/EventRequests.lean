import RegistryConsole.Proofs.Json.Sorted
import RegistryConsole.Proofs.Relays

/-! # Requests for subscriptions

A request to make or change a subscription is written as JSON, read as any JSON by the console,
written again with its members in order, and read by the registry. What the registry reads is the
request that was made, whatever texts it has. -/

namespace RegistryConsole

open Json

variable {σ : Type}

/-! ## The way of its members -/

/-- Whom to notify is read back from its ordered form. -/
theorem Notification.readsSorted (levels : Nat) (n : Notification) :
    Notification.layout.codec.ReadsSorted (levels + 2) n :=
  Layout.readsSorted (by decide) rfl
    ⟨⟨fun _ => Codec.string_readsSorted _ n.kind, nofun⟩,
      ⟨fun _ => Codec.string_readsSorted _ n.method, nofun⟩,
      ⟨fun _ => Codec.list_readsSorted fun s _ => Codec.string_readsSorted levels s, nofun⟩,
      trivial⟩

/-- So is a request for a subscription. -/
theorem EventRequest.readsSorted (levels : Nat) (r : EventRequest) :
    EventRequest.layout.codec.ReadsSorted (levels + 3) r :=
  Layout.readsSorted (by decide) rfl
    ⟨⟨fun _ => Codec.list_readsSorted fun s _ => Codec.string_readsSorted _ s, nofun⟩,
      ⟨fun _ => Notification.readsSorted levels r.notify, nofun⟩,
      ⟨fun _ => Codec.string_readsSorted _ r.audience, nofun⟩, trivial⟩

/-- A list of texts fits wherever a list does. -/
theorem Json.fits_write_strings (levels : Nat) (texts : List String) :
    Fits (levels + 1) ((Codec.list .string).write texts) := by
  intro item hitem
  obtain ⟨s, -, rfl⟩ := List.mem_map.1 hitem
  cases levels <;> trivial

/-- What is written for a request has no numbers, and does not nest deep. -/
theorem EventRequest.fits_write (levels : Nat) (r : EventRequest) :
    Fits (levels + 3) (EventRequest.layout.codec.write r) := by
  have hnotify : Fits (levels + 2) (Notification.layout.codec.write r.notify) :=
    List.forall_mem_cons.2 ⟨trivial, List.forall_mem_cons.2 ⟨trivial,
      List.forall_mem_singleton.2 (fits_write_strings levels r.notify.urls)⟩⟩
  exact List.forall_mem_cons.2 ⟨fits_write_strings (levels + 1) r.keys,
    List.forall_mem_cons.2 ⟨hnotify, List.forall_mem_singleton.2 trivial⟩⟩

/-- Once the console has read and written it, it is read as the request that it was. -/
theorem EventRequest.exists_relayed (r : EventRequest) :
    ∃ value, Json.ofBytes? (EventRequest.layout.codec.bytes r) = .ok value ∧
      EventRequest.layout.codec.ofBytes? value.bytes = .ok r :=
  ⟨_, Json.ofBytes?_bytes (EventRequest.fits_write 124 r),
    Codec.ofBytes?_bytes_sorted (EventRequest.readsSorted 124 r)⟩

/-! ## What arrives -/

/-- Whether a request asks a registry to make or change a subscription: it names the path below that
of the registry's address, and its body is JSON that is read as the request for a subscription. -/
structure EventRequest.Arrives (request : EventRequest) (method : Method) (path : String)
    (registry : Url) (w : WireRequest) : Prop where
  origin : w.origin = registry.origin
  isSecure : w.isSecure = decide (registry.scheme = "https".toList)
  method : w.method = method
  target : w.target = registry.basePath ++ '/' :: path.toList
  type : w.headers.values "content-type" = [Utf8.ofString "application/json"]
  body : EventRequest.layout.codec.ofBytes? w.body = .ok request

namespace Client

variable {address : String} {front registry : Url}

/-- Where the events of a namespace are is a plain path. -/
theorem isPlainPath_eventsPath {ns : String} (hns : Url.IsPlainSegment ns.toList) :
    Url.IsPlainPath (eventsPath ns).toList := by
  have htext : (eventsPath ns).toList = "events".toList ++ '/' :: ns.toList := by
    simp [eventsPath]
  rw [htext]
  exact Url.isPlainPath_append_slash.2 ⟨by decide, hns.isPlainPath⟩

theorem isPlainPath_eventPath {ns id : String} (hns : Url.IsPlainSegment ns.toList)
    (hid : Url.IsPlainSegment id.toList) : Url.IsPlainPath (eventPath ns id).toList := by
  have htext : (eventPath ns id).toList = (eventsPath ns).toList ++ '/' :: id.toList := by
    simp [eventPath]
  rw [htext]
  exact Url.isPlainPath_append_slash.2 ⟨isPlainPath_eventsPath hns, hid.isPlainPath⟩

/-- The media type of a request for a subscription can be sent. -/
theorem isValue_of_eventContent {task : Task} {request : EventRequest}
    (hcontent : task.content = some (Task.eventContent request)) :
    ∀ content ∈ task.content, HeaderField.isValue (Utf8.ofString content.1) = true := by
  intro content h
  obtain rfl := Option.some.inj (hcontent.symm.trans h)
  exact (by decide : HeaderField.isValue (Utf8.ofString "application/json") = true)

theorem isSendable_createEvent {ns : String} (hns : Url.IsPlainSegment ns.toList)
    (request : EventRequest) : (Task.createEvent ns request).IsSendable where
  method := (by decide : Method.post ≠ Method.connect)
  path := isPlainPath_eventsPath hns
  start := by simp [Task.createEvent, eventsPath]
  type := isValue_of_eventContent rfl

theorem isSendable_updateEvent {ns id : String} (hns : Url.IsPlainSegment ns.toList)
    (hid : Url.IsPlainSegment id.toList) (request : EventRequest) :
    (Task.updateEvent ns id request).IsSendable where
  method := (by decide : Method.put ≠ Method.connect)
  path := isPlainPath_eventPath hns hid
  start := by simp [Task.updateEvent, eventPath, eventsPath]
  type := isValue_of_eventContent rfl

/-- Such a task arrives with its request. -/
theorem exists_isFirst_eventRequest (hfront : Url.IsFront address front) {c : Console}
    (hregistry : Url.IsBase c.gateway.apiUrl registry) {now : Int64} {token : String}
    (htoken : c.gateway.issuer.issue now = .ok token) {task : Task} {request : EventRequest}
    (hcontent : task.content = some (Task.eventContent request)) (hfields : task.fields = [])
    (hget : task.method ≠ .get) (hhead : task.method ≠ .head) (htask : task.IsSendable)
    (hbody : (EventRequest.layout.codec.bytes request).length ≤ c.maxBody)
    (hfits : task.Fits address c.gateway) (net : Network σ) (events : List LogEvent) (s : σ) :
    ∃ first : WireRequest, first.IsFirst ((Client.of address).perform
        (c.network front.origin now net.recorded) task (events, ([], s))).2.2 ∧
      request.Arrives task.method task.path registry first := by
  have hsent : task.body = EventRequest.layout.codec.bytes request := by
    rw [Task.body, hcontent]
    rfl
  obtain ⟨first, hfirst, harrives⟩ := exists_isFirst_arrives hfront hregistry htoken htask hfits
    (hsent ▸ hbody) net events s
  obtain ⟨value, hvalue, hread⟩ := request.exists_relayed
  obtain ⟨hbytes, htype⟩ := harrives.value value hget hhead (hsent ▸ hvalue)
  refine ⟨first, hfirst, harrives.origin, harrives.isSecure, harrives.method, ?_, htype, ?_⟩
  · rw [harrives.target, hfields]
    simp [Form.queryOf]
  · rw [hbytes, hread]

/-- A request to make or change a subscription, sent by a client of a console that has a token,
arrives at the registry as it was made: the first request there has the method for it, names the
namespace, and the subscription that is to be changed, below the path of the registry's address, and
has a JSON body of that one media type which is read as the request. That takes a body that the
console accepts and URLs that are not too long. -/
theorem eventRequest_arrives (hfront : Url.IsFront address front) {c : Console}
    (hregistry : Url.IsBase c.gateway.apiUrl registry) {now : Int64} {token : String}
    (htoken : c.gateway.issuer.issue now = .ok token) {request : EventRequest}
    (hbody : (EventRequest.layout.codec.bytes request).length ≤ c.maxBody) {ns : String}
    (hns : Url.IsPlainSegment ns.toList) (net : Network σ) (events : List LogEvent) (s : σ) :
    ((Task.createEvent ns request).Fits address c.gateway →
      ∃ first, ((Client.of address).createEvent (c.network front.origin now net.recorded) ns request
          (events, ([], s))).2.2.1.head? = some first ∧
        request.Arrives .post ("events/" ++ ns) registry first) ∧
    ∀ id : String, Url.IsPlainSegment id.toList →
      (Task.updateEvent ns id request).Fits address c.gateway →
      ∃ first, ((Client.of address).updateEvent (c.network front.origin now net.recorded) ns id
          request (events, ([], s))).2.2.1.head? = some first ∧
        request.Arrives .put ("events/" ++ ns ++ "/" ++ id) registry first := by
  refine ⟨fun hfits => ?_, fun id hid hfits => ?_⟩
  · have hcontent : (Task.createEvent ns request).content = some (Task.eventContent request) := rfl
    obtain ⟨first, hfirst, harrives⟩ := exists_isFirst_eventRequest hfront hregistry htoken
      hcontent rfl nofun nofun (isSendable_createEvent hns request) hbody hfits net events s
    refine ⟨first, ?_, harrives⟩
    rw [createEvent, ask_state]
    exact hfirst
  · have hcontent : (Task.updateEvent ns id request).content = some (Task.eventContent request) :=
      rfl
    obtain ⟨first, hfirst, harrives⟩ := exists_isFirst_eventRequest hfront hregistry htoken
      hcontent rfl nofun nofun (isSendable_updateEvent hns hid request) hbody hfits net events s
    refine ⟨first, ?_, harrives⟩
    rw [updateEvent, ask_state]
    exact hfirst

/-- A request with empty texts, quotes, a line break and characters beyond ASCII is sent to make a
subscription and to change one. -/
theorem eventRequest_arrives_escapes :
    let front : Url := ⟨"http".toList, [], none, some "ui.example".toList, none,
      .segments [[]], none, none⟩
    let registry : Url := ⟨"http".toList, [], none, some "registry.example".toList, none,
      .segments ["base".toList, []], none, none⟩
    let net := Backend.network fun _ b => some b
    let backend : Backend := ⟨fun _ => true, [], ⟨.ok, [], .empty⟩, []⟩
    let request : EventRequest :=
      ⟨["a\"b", ""], ⟨"line\nbreak", "\u00FC", ["http://x/?a=1&b=2"]⟩, "\\"⟩
    (∃ first, ((Client.of "http://ui.example").createEvent
        (Console.exampleConsole.network front.origin 0 net.recorded) "ns" request
          ([], ([], backend))).2.2.1.head? = some first ∧
      request.Arrives .post "events/ns" registry first) ∧
    ∃ first, ((Client.of "http://ui.example").updateEvent
        (Console.exampleConsole.network front.origin 0 net.recorded) "ns" "e.1~" request
          ([], ([], backend))).2.2.1.head? = some first ∧
      request.Arrives .put "events/ns/e.1~" registry first := by
  intro front registry net backend request
  have hfront : Url.IsFront "http://ui.example" front :=
    ⟨⟨by rfl, rfl, rfl, (Url.isCallable_of_user_eq ⟨rfl, rfl⟩ rfl rfl (by decide)).1⟩, rfl, rfl⟩
  have hregistry : Url.IsBase Console.exampleConsole.gateway.apiUrl registry :=
    ⟨by rfl, rfl, rfl, (Url.isCallable_of_user_eq ⟨rfl, rfl⟩ rfl rfl (by decide)).1⟩
  obtain ⟨token, htoken⟩ := exists_token_of_exampleIssuer
  have hns : Url.IsPlainSegment "ns".toList := by decide
  have hid : Url.IsPlainSegment "e.1~".toList := by decide
  have hbody : (EventRequest.layout.codec.bytes request).length ≤
      Console.exampleConsole.maxBody := by decide +kernel
  have hcreate : (Task.createEvent "ns" request).Fits "http://ui.example"
      Console.exampleConsole.gateway :=
    (isSendable_createEvent hns request).fits_of_below hfront hregistry (by decide +kernel)
      (by decide +kernel)
  have hupdate : (Task.updateEvent "ns" "e.1~" request).Fits "http://ui.example"
      Console.exampleConsole.gateway :=
    (isSendable_updateEvent hns hid request).fits_of_below hfront hregistry (by decide +kernel)
      (by decide +kernel)
  obtain ⟨hcreated, hupdated⟩ := eventRequest_arrives hfront hregistry htoken hbody hns net []
    backend
  exact ⟨hcreated hcreate, hupdated "e.1~" hid hupdate⟩

end Client

end RegistryConsole
