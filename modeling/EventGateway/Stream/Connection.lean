import EventGateway.Message
import EventGateway.Registry
import EventGateway.Hub
import EventGateway.Stream.Opening

/-! One event stream. It holds at most one subscription to each topic and sends on what they
give. A subscription that has ended leaves `streams`, while `ids` may still name it. -/

namespace EventGateway

/-- One value at most for each topic. -/
abbrev PerTopic (α : Type) := Topic → Option α

namespace PerTopic

variable {α : Type}

def none : PerTopic α := fun _ => Option.none

def put (f : PerTopic α) (t : Topic) (x : Option α) : PerTopic α := fun u => if u = t then x else f u

@[simp] theorem put_same (f : PerTopic α) (t : Topic) (x : Option α) : f.put t x t = x := by
  simp [put]

@[simp] theorem put_other (f : PerTopic α) {t u : Topic} (x : Option α) (h : u ≠ t) :
    f.put t x u = f u := by
  simp [put, h]

end PerTopic

inductive Incoming
  | text (s : String)
  | binary (bytes : List UInt8)
  | ping (bytes : List UInt8)
  | pong (bytes : List UInt8)
  | close

inductive Outgoing
  | frame (f : Frame)
  | pong (bytes : List UInt8)

inductive ClientFault
  /-- With what the reader of the text says of where the fault is. -/
  | message (e : Json.Error) (position : String)
  | topic (e : InvalidTopic)
  | subscribe (e : SubscribeError)

namespace ClientFault

def text : ClientFault → String
  | message e position => "invalid client message: " ++ e.message position
  | topic e => e.message
  | subscribe _ => DeliveryError.closed.message

def notice (f : ClientFault) : Notice := ⟨f.text⟩

/-- Without any queue to be had, nothing is answered. -/
def breaks : ClientFault → Bool
  | subscribe .capacity => true
  | _ => false

end ClientFault

structure Connection where
  identity : Filter
  isOpen : Bool
  streams : PerTopic SubscriptionId
  ids : PerTopic SubscriptionId
  /-- What has been sent and not been taken yet, oldest first. -/
  sent : List Outgoing

namespace Connection

def new (identity : Filter) : Connection := ⟨identity, true, PerTopic.none, PerTopic.none, []⟩

def send (c : Connection) (o : Outgoing) : Connection := { c with sent := c.sent ++ [o] }

def unregister (h : Hub) (t : Topic) : Option SubscriptionId → Hub
  | some id => (h.unsubscribe t id).2
  | none => h

def letGo (h : Hub) : Option SubscriptionId → Hub
  | some id => h.drop id
  | none => h

/-- A topic that is being listened to stays as it is. -/
def subscribe (c : Connection) (h : Hub) (t : Topic) :
    Except ClientFault Connection × Hub :=
  match c.streams t with
  | some _ => (.ok c, h)
  | none =>
    match h.subscribe t c.identity with
    | (.error e, h) => (.error (.subscribe e), h)
    | (.ok id, h) =>
      (.ok { c with streams := c.streams.put t (some id), ids := c.ids.put t (some id) },
        unregister h t (c.ids t))

def unsubscribe (c : Connection) (h : Hub) (t : Topic) : Connection × Hub :=
  ({ c with streams := c.streams.put t none, ids := c.ids.put t none },
    unregister (letGo h (c.streams t)) t (c.ids t))

def apply (r : Registry) (c : Connection) (h : Hub) (m : ClientMessage) :
    Except ClientFault Connection × Hub :=
  match r.resolve m.topicId with
  | .error e => (.error (.topic e), h)
  | .ok t =>
    match m with
    | .subscribe _ => c.subscribe h t
    | .unsubscribe _ =>
      let p := c.unsubscribe h t
      (.ok p.1, p.2)

def release (c : Connection) (h : Hub) : Connection × Hub :=
  ({ c with isOpen := false, streams := PerTopic.none, ids := PerTopic.none },
    Topic.all.foldl (fun h t => letGo h (c.streams t))
      (Topic.all.foldl (fun h t => unregister h t (c.ids t)) h))

/-- A fault is answered with a notice. When the hub can make no queue the stream breaks off instead;
it holds no subscription then, since none could ever be made. -/
def refuse (c : Connection) (h : Hub) (f : ClientFault) : Connection × Hub :=
  if f.breaks then c.release h else (c.send (.frame (.notice f.notice)), h)

/-- `position` is what the reader of a message says of where a fault is. -/
def receiveText (position : String → Json.Error → String) (r : Registry) (c : Connection) (h : Hub)
    (s : String) : Connection × Hub :=
  match ClientMessage.ofJson s with
  | .error e => c.refuse h (.message e (position s e))
  | .ok m =>
    match c.apply r h m with
    | (.error f, h) => c.refuse h f
    | (.ok c, h) => (c, h)

def controlLimit : Nat := 125

def receive (position : String → Json.Error → String) (r : Registry) (c : Connection) (h : Hub) :
    Incoming → Connection × Hub
  | .text s => c.receiveText position r h s
  | .binary _ => (c, h)
  | .pong bytes => if controlLimit < bytes.length then c.release h else (c, h)
  | .ping bytes =>
    if controlLimit < bytes.length then c.release h else (c.send (.pong bytes), h)
  | .close => c.release h

/-- Sends on the next event of a topic. A subscription that has ended is let go of. -/
def poll (c : Connection) (h : Hub) (t : Topic) : Connection × Hub :=
  match c.streams t with
  | none => (c, h)
  | some id =>
    match h.receive id with
    | (.event e, h) => (c.send (.frame (.event e)), h)
    | (.pending, h) => (c, h)
    | (.ended, h) => ({ c with streams := c.streams.put t none }, h.drop id)

def pollTimes (t : Topic) : Nat → Connection × Hub → Connection × Hub
  | 0, p => p
  | n + 1, p => pollTimes t n (p.1.poll p.2 t)

/-- How many polls leave nothing to take: one for each event, and one that finds none. -/
def polls (c : Connection) (h : Hub) (t : Topic) : Nat :=
  match c.streams t with
  | none => 0
  | some id => (h.queue id).length + 1

def settle (c : Connection) (h : Hub) : Connection × Hub :=
  Topic.all.foldl (fun p t => pollTimes t (p.1.polls p.2 t) p) (c, h)

def collect (c : Connection) : List Outgoing × Connection := (c.sent, { c with sent := [] })

end Connection

namespace Outgoing

def event? : Outgoing → Option Event
  | frame (.event e) => some e
  | _ => none

def notice? : Outgoing → Option Notice
  | frame (.notice n) => some n
  | _ => none

def pong? : Outgoing → Option (List UInt8)
  | pong bytes => some bytes
  | _ => none

/-- The events topic by topic; those of a topic stay in order. -/
def eventsByTopic (os : List Outgoing) : List Event :=
  Topic.all.flatMap fun t => (os.filterMap event?).filter fun e => e.topic = t

end Outgoing

end EventGateway
