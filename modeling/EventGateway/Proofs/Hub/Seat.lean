import EventGateway.Proofs.Hub.Calls

/-! What the hub says of one subscription: its queue, its holder and its registrations. What each
call does to them is told from them alone. -/

namespace EventGateway

/-- What the hub says of one subscription. -/
structure Seat where
  queue : List Event
  held : Bool
  /-- The registrations, each with its topic and its listener. -/
  entries : List (Topic × Filter)
  deriving DecidableEq

namespace Seat

def opened (t : Topic) (who : Filter) : Seat := ⟨[], true, [(t, who)]⟩

def next (s : Seat) : Received :=
  match s.queue with
  | e :: _ => .event e
  | [] => if s.entries.isEmpty then .ended else .pending

def rest (s : Seat) : Seat := { s with queue := s.queue.tail }

def addressed (t : Topic) (f : Filter) (p : Topic × Filter) : Bool := p.1 = t && f.admits p.2

/-- The event is offered to a queue with room for `limit` of them. -/
def offered (s : Seat) (limit : Nat) (t : Topic) (f : Filter) (e : Event) : Seat where
  queue := s.queue ++
    if s.held && s.queue.length < limit && s.entries.any (addressed t f) then [e] else []
  held := s.held
  entries := s.entries.filter fun p => s.held || !addressed t f p

def listed (s : Seat) (t : Topic) : Bool := s.entries.any fun p => p.1 = t

def without (s : Seat) (t : Topic) : Seat := { s with entries := s.entries.filter fun p => p.1 ≠ t }

def dropped (s : Seat) : Seat := { s with queue := [], held := false }

def unlisted (s : Seat) : Seat := { s with entries := [] }

end Seat

namespace Hub

def entry (s : Slot) : Topic × Filter := (s.topic, s.identity)

def seat (h : Hub) (id : SubscriptionId) : Seat :=
  ⟨h.queue id, h.held id, (h.slots.filter fun s => s.id = id).map entry⟩

variable {h h' : Hub} {id : SubscriptionId}

theorem seat_of_slots (hslots : h'.slots = h.slots) (id : SubscriptionId) :
    h'.seat id = ⟨h'.queue id, h'.held id, (h.seat id).entries⟩ := by
  simp only [seat, hslots]

theorem any_entries (h : Hub) (id : SubscriptionId) (q : Topic × Filter → Bool) :
    (h.seat id).entries.any q = h.slots.any fun s => s.id = id && q (entry s) := by
  simp only [seat, List.any_map, List.any_filter]
  rfl

theorem filter_entries (h : Hub) (id : SubscriptionId) (q : Topic × Filter → Bool) :
    (h.seat id).entries.filter q =
      ((h.slots.filter fun s => q (entry s)).filter fun s => s.id = id).map entry := by
  simp only [seat, List.filter_map, List.filter_filter]
  refine congrArg (List.map entry) (List.filter_congr fun s _ => ?_)
  simp [Bool.and_comm]

theorem registered_seat (h : Hub) (id : SubscriptionId) :
    h.registered id = !(h.seat id).entries.isEmpty := by
  rw [Bool.eq_iff_iff]
  simp [registered, seat]

/-! Taking events out and letting go. -/

theorem receive_seat (h : Hub) (id : SubscriptionId) : (h.receive id).1 = (h.seat id).next := by
  have hreg := h.registered_seat id
  unfold receive Seat.next
  cases hq : h.queue id with
  | nil =>
    have hqueue : (h.seat id).queue = [] := hq
    cases hempty : (h.seat id).entries.isEmpty <;> simp [hqueue, hreg, hempty]
  | cons e r =>
    have hqueue : (h.seat id).queue = e :: r := hq
    simp [hqueue]

theorem seat_receive (h : Hub) (j id : SubscriptionId) :
    (h.receive j).2.seat id = if j = id then (h.seat id).rest else h.seat id := by
  rw [seat_of_slots (slots_receive h j), queue_receive, held_receive]
  by_cases hj : j = id <;> simp [hj, Seat.rest, seat]

theorem seat_drop (h : Hub) (j id : SubscriptionId) :
    (h.drop j).seat id = if j = id then (h.seat id).dropped else h.seat id := by
  have hslots : (h.drop j).slots = h.slots := rfl
  rw [seat_of_slots hslots, queue_drop, held_drop]
  by_cases hj : j = id
  · simp [hj, Seat.dropped]
  · have hne : (j != id) = true := by simpa using hj
    simp [hj, hne, seat]

/-! Registering and the end of it. -/

theorem seat_subscribe (hlt : id < h.mailboxes.length) (t : Topic) (who : Filter) :
    (h.subscribe t who).2.seat id = h.seat id := by
  rcases subscribe_cases h t who with ⟨e, he⟩ | ⟨_, _, he⟩
  · rw [he]
  · have hq := queue_subscribe h t who id
    rw [he] at hq ⊢
    have hne : h.mailboxes.length ≠ id := Nat.ne_of_gt hlt
    have hheld : (h.mailboxes ++ [⟨t, [], true⟩])[id]? = h.mailboxes[id]? :=
      List.getElem?_append_left hlt
    simp only [seat, held, hq, hheld, List.filter_append]
    simp [hne]

theorem seat_subscribed (hv : h.Valid) {t : Topic} {who : Filter}
    (hok : h.subscribe t who = (.ok id, h')) : h'.seat id = .opened t who := by
  obtain ⟨_, _, hempty, _⟩ := hv.subscribe_fresh hok
  obtain ⟨hnew, rfl⟩ := subscribe_ok hok
  have hnone : h.slots.filter (fun s => s.id = id) = [] :=
    List.filter_eq_nil_iff.mpr fun s hs => by simpa [hnew] using Nat.ne_of_lt (hv.slot_lt hs)
  simp only [seat, hempty, List.filter_append, hnone]
  simp [Seat.opened, held, hnew, entry]

theorem unsubscribe_seat (h : Hub) (t : Topic) (id : SubscriptionId) :
    (h.unsubscribe t id).1 = (h.seat id).listed t := by
  rw [Seat.listed, any_entries]
  exact congrArg h.slots.any (funext fun s => Bool.and_comm _ _)

theorem seat_unsubscribe (h : Hub) (t : Topic) (j id : SubscriptionId) :
    (h.unsubscribe t j).2.seat id = if j = id then (h.seat id).without t else h.seat id := by
  have hkept : (h.unsubscribe t j).2.seat id = ⟨h.queue id, h.held id,
      ((h.slots.filter fun s => !(s.topic = t && s.id = j)).filter fun s => s.id = id).map entry⟩ :=
    rfl
  rw [hkept]
  split
  next hj =>
    rw [Seat.without, filter_entries, List.filter_filter, List.filter_filter]
    refine congrArg (fun l => Seat.mk _ _ (l.map entry)) (List.filter_congr fun s _ => ?_)
    by_cases hid : s.id = id <;> by_cases ht : s.topic = t <;> simp [hid, hj, ht, entry]
  next hj =>
    rw [List.filter_filter]
    refine congrArg (fun l => Seat.mk _ _ (l.map entry)) (List.filter_congr fun s _ => ?_)
    by_cases hid : s.id = id <;> simp [hid, Ne.symm hj]

theorem seat_close (hv : h.Valid) (id : SubscriptionId) :
    h.close.seat id = (h.seat id).unlisted := by
  have hnil := hv.close.closed (closed_close h)
  simp [seat, hnil, Seat.unlisted]

/-! Publishing. -/

theorem addressed_entry (t : Topic) (f : Filter) (s : Slot) :
    Seat.addressed t f (entry s) = addressed t f s := rfl

theorem delivers_seat (h : Hub) (t : Topic) (f : Filter) (id : SubscriptionId) :
    h.delivers t f id = (!h.closed && ((h.seat id).held && (h.seat id).queue.length < h.capacity &&
      (h.seat id).entries.any (Seat.addressed t f))) := by
  have htakes : (fun s : Slot => decide (s.id = id) && h.takes t f s) = fun s =>
      (decide (s.id = id) && Seat.addressed t f (entry s)) &&
        (h.held id && (h.queue id).length < h.capacity) := by
    funext s
    by_cases hid : s.id = id
    · simp [takes, hid, hasRoom, addressed_entry, Bool.and_assoc]
    · simp [hid]
  have hseat : (h.seat id).held = h.held id ∧ (h.seat id).queue = h.queue id := ⟨rfl, rfl⟩
  rw [any_entries, hseat.1, hseat.2, delivers, htakes]
  cases h.held id && (h.queue id).length < h.capacity <;> simp

theorem seat_publish (hv : h.Valid) (t : Topic) (f : Filter) (e : Event) (id : SubscriptionId) :
    (h.publish t f e).2.seat id =
      if h.closed then h.seat id else (h.seat id).offered h.capacity t f e := by
  cases hc : h.closed with
  | true => simp [publish, hc]
  | false =>
    have hq := queue_publish hv.nodup t f e id
    have hheld := held_publish hv.nodup t f e id
    have hslots : (h.publish t f e).2.slots = h.slots.filter fun s => !h.prunes t f s := by
      simp [publish, hc]
    have hentries :
        ((h.slots.filter fun s => !h.prunes t f s).filter fun s => s.id = id).map entry =
        (h.seat id).entries.filter fun p => (h.seat id).held || !Seat.addressed t f p := by
      rw [filter_entries, List.filter_filter, List.filter_filter]
      refine congrArg (List.map entry) (List.filter_congr fun s _ => ?_)
      by_cases hid : s.id = id
      · have hseat : (h.seat id).held = h.held id := rfl
        cases hh : h.held id <;> simp [prunes, hid, hh, hseat, addressed_entry]
      · simp [hid]
    rw [delivers_seat, hc] at hq
    have hafter : (h.publish t f e).2.seat id = ⟨(h.publish t f e).2.queue id,
        (h.publish t f e).2.held id,
        ((h.publish t f e).2.slots.filter fun s => s.id = id).map entry⟩ := rfl
    rw [hafter, hq, hheld, hslots, hentries]
    rfl

end Hub

end EventGateway
