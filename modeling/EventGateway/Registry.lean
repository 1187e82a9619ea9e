import EventGateway.Event.Kind

/-! The topics a deployment serves. -/

namespace EventGateway

structure Registry where
  enabled : Topic → Bool

namespace Registry

def all : Registry := ⟨fun _ => true⟩

def ofTopics (ts : List Topic) : Registry := ⟨fun t => t ∈ ts⟩

/-- The registry of the named topics, or the first name that is none. -/
def ofNames (names : List String) : Except InvalidTopic Registry :=
  ofTopics <$> names.mapM Topic.ofName

def contains (r : Registry) (t : Topic) : Bool := r.enabled t

def resolve (r : Registry) (name : String) : Except InvalidTopic Topic :=
  match Topic.ofName name with
  | .error e => .error e
  | .ok t => if r.contains t then .ok t else .error ⟨name⟩

/-- Whether the topic of each kind is enabled; the first that is not, with its kind. -/
def ensureKinds (r : Registry) (ks : List Kind) : Except InvalidTopic Unit :=
  match ks.find? fun k => !r.contains k.topic with
  | some k => .error ⟨k.topic.name ++ " (required by " ++ k.id ++ ")"⟩
  | none => .ok ()

def topics (r : Registry) : List Topic := Topic.all.filter r.contains

def size (r : Registry) : Nat := r.topics.length

def isEmpty (r : Registry) : Bool := r.topics.isEmpty

theorem mem_topics {r : Registry} {t : Topic} : t ∈ r.topics ↔ r.contains t = true := by
  simp [topics, Topic.mem_all]

def same (r s : Registry) : Bool := r.topics == s.topics

end Registry

end EventGateway
