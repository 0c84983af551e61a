import RegistryConsole.Console.Basic
import RegistryConsole.Http.Wire

/-! # Connections to the console

What goes back over a connection for what comes in over it: an answer to each request, one after
the other, until one of them is the last or cannot be read. -/

namespace RegistryConsole

namespace Wire.ServerRequest

/-- The request without the form it had on the connection. -/
def inbound (r : ServerRequest) : InboundRequest :=
  ⟨r.method, r.target, r.headers, ⟨r.body, none⟩⟩

end Wire.ServerRequest

/-- What has gone back over a connection. -/
structure Conversation where
  sent : Bytes
  /-- Whether the console has ended the connection. -/
  isOver : Bool
  events : List LogEvent

namespace Conversation

/-- The conversation after one more answer. -/
def add (c : Conversation) (sent : Bytes) (isOver : Bool) (events : List LogEvent) :
    Conversation :=
  ⟨c.sent ++ sent, isOver, c.events ++ events⟩

end Conversation

/-- Answers at most `count` requests of a connection. -/
def Console.converse {σ : Type} (c : Console) (net : Network σ) (now : Int64) :
    (count : Nat) → Bytes → Conversation → σ → Conversation × σ
  | 0, _, talk, s => (talk, s)
  | count + 1, received, talk, s =>
    match Wire.readRequest received with
    | .more => (talk, s)
    | .malformed => (talk.add Wire.refusal true [], s)
    | .done r rest =>
      let ((response, events), s) := c.answer net now r.inbound s
      -- after a body that breaks off nothing more can be told apart from it
      let isLast := r.ends || response.body.whole?.isNone
      let talk := talk.add (Wire.responseBytes r response) isLast events
      if isLast then (talk, s) else c.converse net now count rest talk s

/-- Answers all requests that came over a connection. No request is shorter than one octet. -/
def Console.answerAll {σ : Type} (c : Console) (net : Network σ) (now : Int64)
    (received : Bytes) (s : σ) : Conversation × σ :=
  c.converse net now received.length received ⟨[], false, []⟩ s

end RegistryConsole
