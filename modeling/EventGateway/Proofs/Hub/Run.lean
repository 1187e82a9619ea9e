import EventGateway.Proofs.Hub.Queues
import Mathlib.Data.List.Nodup

/-! Runs of a hub, and what holds of its registrations and queues after each of them. -/

namespace EventGateway

/-- One call of the hub or of one of its subscriptions. -/
inductive HubOp
  | subscribe (t : Topic) (identity : Filter)
  | publish (t : Topic) (f : Filter) (e : Event)
  | receive (id : SubscriptionId)
  | unsubscribe (t : Topic) (id : SubscriptionId)
  | drop (id : SubscriptionId)
  | close

def HubOp.closes : HubOp → Bool
  | .close => true
  | _ => false

inductive HubResult
  | subscribed (r : Except SubscribeError SubscriptionId)
  | published (r : Except DeliveryError Accepted)
  | received (r : Received)
  | unsubscribed (found : Bool)
  | done
  deriving DecidableEq

namespace Hub

def perform (h : Hub) : HubOp → HubResult × Hub
  | .subscribe t identity => (.subscribed (h.subscribe t identity).1, (h.subscribe t identity).2)
  | .publish t f e => (.published (h.publish t f e).1, (h.publish t f e).2)
  | .receive id => (.received (h.receive id).1, (h.receive id).2)
  | .unsubscribe t id => (.unsubscribed (h.unsubscribe t id).1, (h.unsubscribe t id).2)
  | .drop id => (.done, h.drop id)
  | .close => (.done, h.close)

/-- Every registration is one of a subscription that was made, on its topic and once. -/
structure Valid (h : Hub) : Prop where
  nodup : (h.slots.map Slot.id).Nodup
  made : ∀ s ∈ h.slots, ∃ m, h.mailboxes[s.id]? = some m ∧ m.topic = s.topic
  bounded : ∀ id, (h.queue id).length ≤ h.capacity
  closed : h.closed = true → h.slots = []

theorem Valid.slot_lt {h : Hub} (hv : h.Valid) {s : Slot} (hs : s ∈ h.slots) :
    s.id < h.mailboxes.length := by
  obtain ⟨m, hm, _⟩ := hv.made s hs
  exact lt_of_mailbox hm

theorem valid_new (b : Nat) : (new b).Valid where
  nodup := List.nodup_nil
  made := by simp [new]
  bounded := by simp [new, queue]
  closed := by simp [new]

theorem Valid.subscribe {h : Hub} (hv : h.Valid) (t : Topic) (identity : Filter) :
    (h.subscribe t identity).2.Valid := by
  rcases subscribe_cases h t identity with ⟨e, he⟩ | ⟨hopen, _, he⟩
  · rw [he]
    exact hv
  · have hq := fun id => queue_subscribe h t identity id
    rw [he] at hq ⊢
    refine ⟨?_, ?_, fun id => (hq id).symm ▸ hv.bounded id, fun hc => ?_⟩
    · simp only [List.map_append, List.nodup_append]
      refine ⟨hv.nodup, by simp, ?_⟩
      intro a ha b hb hab
      obtain ⟨s, hs, rfl⟩ := List.mem_map.mp ha
      have hb' : b = h.mailboxes.length := by simpa using hb
      exact Nat.ne_of_lt (hv.slot_lt hs) (hab.trans hb')
    · intro s hs
      rcases List.mem_append.mp hs with hs | hs
      · obtain ⟨m, hm, ht⟩ := hv.made s hs
        exact ⟨m, by rw [List.getElem?_append_left (lt_of_mailbox hm), hm], ht⟩
      · have hs' : s = ⟨h.mailboxes.length, t, identity⟩ := by simpa using hs
        subst hs'
        exact ⟨⟨t, [], true⟩, by simp, rfl⟩
    · simp [hopen] at hc

theorem Valid.subscribe_fresh {h h₁ : Hub} {t : Topic} {identity : Filter} {id : SubscriptionId}
    (hv : h.Valid) (hok : h.subscribe t identity = (.ok id, h₁)) :
    id = h.mailboxes.length ∧ id < h₁.mailboxes.length ∧ h₁.queue id = [] ∧
      ∀ s ∈ h₁.slots, s.id = id → s.topic = t ∧ s.identity = identity := by
  have hq := queue_subscribe h t identity id
  rw [hok] at hq
  rcases subscribe_cases h t identity with ⟨e, he⟩ | ⟨_, _, he⟩
  · simp [he] at hok
  · rw [he] at hok
    simp only [Prod.mk.injEq, Except.ok.injEq] at hok
    obtain ⟨rfl, rfl⟩ := hok
    refine ⟨rfl, by simp, hq.trans (queue_of_no_mailbox (by simp)), fun s hs hid => ?_⟩
    rcases List.mem_append.mp hs with hs | hs
    · exact absurd hid (Nat.ne_of_lt (hv.slot_lt hs))
    · rw [List.mem_singleton.mp hs]
      exact ⟨rfl, rfl⟩

theorem room_of_delivers {h : Hub} {t : Topic} {f : Filter} {id : SubscriptionId}
    (hd : h.delivers t f id = true) : (h.queue id).length < h.capacity := by
  simp only [delivers, takes, hasRoom, Bool.and_eq_true, List.any_eq_true, decide_eq_true_eq] at hd
  obtain ⟨_, s, _, hid, _, hroom⟩ := hd
  exact hid ▸ hroom

theorem Valid.publish {h : Hub} (hv : h.Valid) (t : Topic) (f : Filter) (e : Event) :
    (h.publish t f e).2.Valid := by
  refine ⟨?_, ?_, ?_, ?_⟩
  · exact hv.nodup.sublist ((slots_publish_sublist h t f e).map _)
  · intro s hs
    obtain ⟨m, hm, ht⟩ := hv.made s (mem_slots_publish hs)
    have hm' := mailbox_publish hv.nodup t f e s.id
    rw [hm] at hm'
    cases hd : h.delivers t f s.id with
    | false => exact ⟨m, by simpa [hd] using hm', ht⟩
    | true => exact ⟨enqueue e m, by simpa [hd] using hm', ht⟩
  · intro id
    rw [queue_publish hv.nodup, capacity_publish]
    cases hd : h.delivers t f id with
    | false => simpa using hv.bounded id
    | true =>
      have hroom := room_of_delivers hd
      simp only [if_true, List.length_append, List.length_singleton]
      omega
  · intro hc
    have hnil := hv.closed (by simpa using hc)
    have hsub := slots_publish_sublist h t f e
    rw [hnil] at hsub
    exact List.sublist_nil.mp hsub

/-- The mailboxes may change, as long as they keep their topics and grow no queue. -/
theorem Valid.of_mailboxes {h h' : Hub} (hv : h.Valid) (hs : h'.slots.Sublist h.slots)
    (hm : ∀ (id : SubscriptionId) (m : Mailbox), h.mailboxes[id]? = some m →
      ∃ m', h'.mailboxes[id]? = some m' ∧ m'.topic = m.topic)
    (hq : ∀ id, (h'.queue id).length ≤ (h.queue id).length) (hcap : h'.capacity = h.capacity)
    (hclosed : h'.closed = true → h'.slots = []) : h'.Valid := by
  refine ⟨hv.nodup.sublist (hs.map _), ?_, fun id => ?_, hclosed⟩
  · intro s hmem
    obtain ⟨m, hm1, ht⟩ := hv.made s (hs.subset hmem)
    obtain ⟨m', hm2, ht'⟩ := hm s.id m hm1
    exact ⟨m', hm2, ht'.trans ht⟩
  · rw [hcap]
    exact Nat.le_trans (hq id) (hv.bounded id)

theorem Valid.receive {h : Hub} (hv : h.Valid) (j : SubscriptionId) : (h.receive j).2.Valid := by
  refine hv.of_mailboxes (by simp) ?_ ?_ (by simp) (fun hc => ?_)
  · intro id m hm
    by_cases hj : j = id
    · exact ⟨{ m with queue := m.queue.tail }, by simp [mailbox_receive, hm, hj], rfl⟩
    · exact ⟨m, by simp [mailbox_receive, hm, hj], rfl⟩
  · intro id
    rw [queue_receive]
    split
    · simp
    · exact Nat.le_refl _
  · simpa using hv.closed (by simpa using hc)

theorem Valid.drop {h : Hub} (hv : h.Valid) (j : SubscriptionId) : (h.drop j).Valid := by
  refine hv.of_mailboxes (List.Sublist.refl _) ?_ ?_ rfl hv.closed
  · intro id m hm
    by_cases hj : j = id
    · exact ⟨{ m with queue := [], held := false }, by simp [mailbox_drop, hm, hj], rfl⟩
    · exact ⟨m, by simp [mailbox_drop, hm, hj], rfl⟩
  · intro id
    rw [queue_drop]
    split
    · simp
    · exact Nat.le_refl _

theorem Valid.unsubscribe {h : Hub} (hv : h.Valid) (t : Topic) (j : SubscriptionId) :
    (h.unsubscribe t j).2.Valid := by
  refine hv.of_mailboxes List.filter_sublist (fun _ m hm => ⟨m, hm, rfl⟩) (fun _ => Nat.le_refl _)
    rfl (fun hc => ?_)
  have hnil : h.slots = [] := hv.closed hc
  simp [Hub.unsubscribe, hnil]

theorem Valid.close {h : Hub} (hv : h.Valid) : h.close.Valid := by
  by_cases hc : h.closed = true
  · simpa [Hub.close, hc] using hv
  · have hnil : h.close.slots = [] := by simp [Hub.close, hc]
    refine hv.of_mailboxes (by simp [hnil]) (fun _ m hm => ⟨m, by simpa using hm, rfl⟩) (by simp)
      (by simp) (fun _ => hnil)

theorem Valid.perform {h : Hub} (hv : h.Valid) (op : HubOp) : (h.perform op).2.Valid := by
  cases op with
  | subscribe t identity => exact hv.subscribe t identity
  | publish t f e => exact hv.publish t f e
  | receive id => exact hv.receive id
  | unsubscribe t id => exact hv.unsubscribe t id
  | drop id => exact hv.drop id
  | close => exact hv.close

@[simp] theorem capacity_perform (h : Hub) (op : HubOp) :
    (h.perform op).2.capacity = h.capacity := by
  cases op with
  | subscribe t identity =>
    rcases subscribe_cases h t identity with ⟨e, he⟩ | ⟨_, _, he⟩ <;> simp [Hub.perform, he]
  | publish t f e => exact capacity_publish h t f e
  | receive id => exact capacity_receive h id
  | unsubscribe t id => rfl
  | drop id => rfl
  | close => exact capacity_close h

/-- Only a close closes the hub, and nothing opens it again. -/
@[simp] theorem closed_perform (h : Hub) (op : HubOp) :
    (h.perform op).2.closed = (h.closed || op.closes) := by
  cases op with
  | subscribe t identity =>
    rcases subscribe_cases h t identity with ⟨e, he⟩ | ⟨_, _, he⟩ <;>
      simp [Hub.perform, he, HubOp.closes]
  | publish t f e => simp [Hub.perform, HubOp.closes]
  | receive id => simp [Hub.perform, HubOp.closes]
  | unsubscribe t id => simp [Hub.perform, HubOp.closes, Hub.unsubscribe]
  | drop id => simp [Hub.perform, HubOp.closes, Hub.drop]
  | close => simp [Hub.perform, HubOp.closes]

end Hub

end EventGateway
