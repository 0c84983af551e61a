import RegistryConsole.Gateway.Basic
import RegistryConsole.Gateway.Body
import RegistryConsole.Gateway.Headers
import RegistryConsole.Http.Agent

/-! # Forwarding

A call to the registry on a user's behalf: a token is issued, the header and the body are made
ready, the call is sent, and the answer comes back. Redirects are followed, except that the
redirect of an upload goes back as it is, so that the user's own program can send the upload to
where it belongs. -/

namespace RegistryConsole

/-- Why the body of a request does not go on: it cannot be read, or what was read cannot be
written. -/
inductive BodyFault where
  | tooLong
  | broken (text : String)
  | unwritable
  deriving DecidableEq

/-- The text of a fault in a body. -/
def BodyFault.message : BodyFault → String
  | .tooLong => "Failed to read request body: length limit exceeded"
  | .broken text => "Failed to read request body: " ++ text
  | .unwritable => "Failed to serialize request body: number out of range"

/-- Why a call is not forwarded, or its answer not handed on. -/
inductive GatewayFault where
  | signing (fault : IssueFault)
  | header
  | body (fault : BodyFault)
  | registry (fault : CallFault)
  | answer (fault : BuildFault)
  deriving DecidableEq

namespace GatewayFault

/-- The text of a fault. -/
def message : GatewayFault → String
  | .signing f => f.message
  | .header => "Invalid outbound header: failed to parse header value"
  | .body f => f.message
  | .registry f => "Upstream request failed: " ++ f.message
  | .answer f => "Failed to build response: " ++ f.message

/-- The answer that tells of a fault. -/
def response (f : GatewayFault) : Response :=
  .json .internalError (Json.bytes (.object [("error", .string f.message)]))

/-- The event that tells of a fault. -/
def event (f : GatewayFault) : LogEvent :=
  ⟨.error, "object_registry_ui::proxy::forwarder", "Proxy error", [("error", f.message)]⟩

end GatewayFault

/-- A call that is to be forwarded: the path below the registry's address, and the rest of the
request. -/
structure ForwardCall where
  method : Method
  path : String
  query : Option String
  headers : Headers
  body : Bytes
  deriving DecidableEq

/-- A call that only reads. -/
def ForwardCall.reading (path : String) (query : Option String) : ForwardCall :=
  ⟨.get, path, query, [], []⟩

namespace Gateway

/-- The name that the console gives itself towards the registry. -/
def agentName : String := "object-registry-ui/0.1.0"

/-- The agent for a method: uploads are handed their redirects back. -/
def agentFor (method : Method) : Agent :=
  ⟨some agentName, method ≠ .put⟩

/-- The header that goes on, with the body that goes on. -/
def outboundWith? (call : ForwardCall) (token : String) :
    Except GatewayFault (Headers × Option Bytes) :=
  match outbound? call.headers token, ForwardBody.classify call.method call.body with
  | none, _ => .error .header
  | some h, none => .ok (h, none)
  | some h, some body =>
    match body.written? with
    | none => .error (.body .unwritable)
    | some written =>
      .ok (if body.isStructured then h.put ⟨"content-type", Response.jsonType, false⟩ else h,
        some written)

/-- The answer as it came. -/
def passthrough (r : Response) : Except BuildFault Response :=
  ((ResponseBuilder.ofStatus r.status).withHeaders r.headers).build r.body

/-- The answer without what concerns the connection to the registry. -/
def relay (r : Response) : Except BuildFault Response :=
  ((ResponseBuilder.ofStatus r.status).withHeaders (relayed r.headers)).build r.body

/-- The answer that comes back: the redirect of an upload as it is, any other relayed. -/
def answer? (method : Method) (r : Response) : Except BuildFault Response :=
  if method = .put ∧ r.status.isRedirection then passthrough r else relay r

/-- Forwards a call at the time `now`. Nothing is sent without a token. -/
def forward {σ : Type} (g : Gateway) (net : Network σ) (now : Int64) (call : ForwardCall)
    (s : σ) : Except GatewayFault Response × σ :=
  match g.issuer.issue now with
  | .error f => (.error (.signing f), s)
  | .ok token =>
    match outboundWith? call token with
    | .error f => (.error f, s)
    | .ok (headers, body) =>
      let url := g.targetUrl call.path call.query
      match (agentFor call.method).sendTo net call.method url headers body s with
      | (.error f, s) => (.error (.registry f), s)
      | (.ok r, s) =>
        match answer? call.method r with
        | .error f => (.error (.answer f), s)
        | .ok r => (.ok r, s)

end Gateway

end RegistryConsole
