import EventGateway.Filter

/-! The hub keeps a bounded queue for every subscription. Publishing puts the event at the end of
the queue of each registered subscription to the topic that the filter admits. A full queue loses
the event, a dropped one loses its registration. -/

namespace EventGateway

/-- A subscription is known by its number; numbers are never used again. -/
abbrev SubscriptionId := Nat

/-- The receiving side of a subscription. `held` until its owner drops it. -/
structure Mailbox where
  topic : Topic
  queue : List Event
  held : Bool

structure Slot where
  id : SubscriptionId
  topic : Topic
  identity : Filter
  deriving DecidableEq

structure Hub where
  capacity : Nat
  closed : Bool
  slots : List Slot
  mailboxes : List Mailbox

inductive DeliveryError
  | closed
  | rejected (reason : String)
  deriving DecidableEq, Repr

namespace DeliveryError

def message : DeliveryError → String
  | closed => "transport is closed"
  | rejected reason => "transport rejected the event: " ++ reason

end DeliveryError

/-- An accepted event: the queues it went into, and the full ones that lost it. -/
structure Accepted where
  recipients : Nat
  overflowed : Nat := 0
  deriving DecidableEq, Repr

inductive SubscribeError
  | closed
  /-- No queue of the wanted capacity can be made. -/
  | capacity
  deriving DecidableEq, Repr

inductive Received
  | event (e : Event)
  | pending
  | ended
  deriving DecidableEq

namespace Hub

def defaultCapacity : Nat := 256

def greatestCapacity : Nat := 0x1fffffffffffffff

def new (capacity : Nat) : Hub := ⟨max capacity 1, false, [], []⟩

def slotsOf (h : Hub) (t : Topic) : List Slot := h.slots.filter fun s => s.topic = t

def count (h : Hub) (t : Topic) : Nat := (h.slotsOf t).length

def queue (h : Hub) (id : SubscriptionId) : List Event :=
  match h.mailboxes[id]? with
  | some m => m.queue
  | none => []

def held (h : Hub) (id : SubscriptionId) : Bool :=
  match h.mailboxes[id]? with
  | some m => m.held
  | none => false

def registered (h : Hub) (id : SubscriptionId) : Bool := h.slots.any fun s => s.id = id

def subscribe (h : Hub) (t : Topic) (identity : Filter) :
    Except SubscribeError SubscriptionId × Hub :=
  if h.closed then (.error .closed, h)
  else if greatestCapacity < h.capacity then (.error .capacity, h)
  else
    let id := h.mailboxes.length
    (.ok id, { h with
      slots := h.slots ++ [⟨id, t, identity⟩]
      mailboxes := h.mailboxes ++ [⟨t, [], true⟩] })

def addressed (t : Topic) (f : Filter) (s : Slot) : Bool := s.topic = t && f.admits s.identity

def hasRoom (h : Hub) (id : SubscriptionId) : Bool := (h.queue id).length < h.capacity

def takes (h : Hub) (t : Topic) (f : Filter) (s : Slot) : Bool :=
  addressed t f s && h.held s.id && h.hasRoom s.id

def overflows (h : Hub) (t : Topic) (f : Filter) (s : Slot) : Bool :=
  addressed t f s && h.held s.id && !h.hasRoom s.id

def prunes (h : Hub) (t : Topic) (f : Filter) (s : Slot) : Bool :=
  addressed t f s && !h.held s.id

def enqueue (e : Event) (m : Mailbox) : Mailbox := { m with queue := m.queue ++ [e] }

def publish (h : Hub) (t : Topic) (f : Filter) (e : Event) : Except DeliveryError Accepted × Hub :=
  if h.closed then (.error .closed, h)
  else
    let takers := h.slots.filter (h.takes t f)
    (.ok ⟨takers.length, (h.slots.filter (h.overflows t f)).length⟩, { h with
      slots := h.slots.filter fun s => !h.prunes t f s
      mailboxes := takers.foldl (fun ms s => ms.modify s.id (enqueue e)) h.mailboxes })

/-- Takes the next event. An empty queue has ended once the subscription is not registered. -/
def receive (h : Hub) (id : SubscriptionId) : Received × Hub :=
  match h.queue id with
  | e :: r =>
    (.event e, { h with mailboxes := h.mailboxes.modify id fun m => { m with queue := r } })
  | [] => (if h.registered id then .pending else .ended, h)

def drain (h : Hub) (id : SubscriptionId) : List Event × Hub :=
  (h.queue id, { h with mailboxes := h.mailboxes.modify id fun m => { m with queue := [] } })

/-- Whether the subscription was registered on the topic; it is not any more. -/
def unsubscribe (h : Hub) (t : Topic) (id : SubscriptionId) : Bool × Hub :=
  let mine (s : Slot) : Bool := s.topic = t && s.id = id
  (h.slots.any mine, { h with slots := h.slots.filter fun s => !mine s })

/-- The owner lets go of the subscription. The registration stays until a publish reaches it. -/
def drop (h : Hub) (id : SubscriptionId) : Hub :=
  { h with mailboxes := h.mailboxes.modify id fun m => { m with queue := [], held := false } }

def close (h : Hub) : Hub := if h.closed then h else { h with closed := true, slots := [] }

end Hub

end EventGateway
