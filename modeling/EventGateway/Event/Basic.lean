import EventGateway.Event.Payload

/-! Events: a payload for those in a scope. Its kind fixes the id and the topic. -/

namespace EventGateway

structure Event where
  scope : Scope
  payload : Payload
  deriving DecidableEq

inductive EventError
  | emptyTaskId
  | unknownId (id : String)
  | topicMismatch (kind : Kind) (actual : Topic)
  | invalidTopic (e : InvalidTopic)
  | json (e : Json.Error)
  deriving DecidableEq

namespace EventError

/-- `position` is what the reader of the text says of where a fault of JSON is. -/
def message (position : String) : EventError → String
  | emptyTaskId => Payload.emptyTaskId
  | unknownId id => "unknown event id: " ++ id
  | topicMismatch k t =>
    "event " ++ k.id ++ " belongs to topic " ++ k.topic.name ++ ", got " ++ t.name
  | invalidTopic e => e.message
  | json e => "invalid json: " ++ e.message position

end EventError

namespace Event

def kind (e : Event) : Kind := e.payload.kind

def topic (e : Event) : Topic := e.kind.topic

def new (p : Payload) : Event := ⟨.broadcast, p⟩

def scopedTo (p : Payload) (sessionId userId : Option String) : Event := ⟨.of sessionId userId, p⟩

end Event

end EventGateway
