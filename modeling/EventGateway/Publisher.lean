import EventGateway.Hub
import EventGateway.Log
import EventGateway.Registry

/-! The one way to a transport: an event goes out only on a topic that is enabled, with the filter
its scope gives. -/

namespace EventGateway

inductive PublishError
  | unknownTopic (t : Topic)
  | delivery (e : DeliveryError)
  deriving DecidableEq, Repr

namespace PublishError

def message : PublishError → String
  | unknownTopic t => "unknown topic: " ++ t.name
  | delivery e => e.message

end PublishError

/-- A way to deliver events, with a state of its own. -/
abbrev Transport (σ : Type) := Topic → Filter → Event → σ → Except DeliveryError Accepted × σ

def Hub.transport : Transport Hub := fun t f e h => h.publish t f e

namespace Registry

def publish {σ : Type} (r : Registry) (send : Transport σ) (e : Event) (s : σ) :
    Except PublishError Accepted × σ :=
  if r.contains e.topic then
    let (answer, s) := send e.topic (Filter.ofEvent e) e s
    (answer.mapError .delivery, s)
  else (.error (.unknownTopic e.topic), s)

end Registry

def publishLog : Except PublishError Accepted → List LogLine
  | .ok a => List.replicate a.overflowed ⟨.hub, .warn, "Subscriber queue full, dropping event"⟩
  | .error (.unknownTopic _) => [⟨.publisher, .warn, "Refusing to publish to unknown topic"⟩]
  | .error (.delivery _) => [⟨.publisher, .warn, "Event delivery failed"⟩]

end EventGateway
