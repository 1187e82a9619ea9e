import EventGateway.Hub

/-! What each operation of the hub does to the queue and the holder of every subscription. -/

namespace EventGateway.Hub

theorem queue_of_mailbox {h : Hub} {id : SubscriptionId} {m : Mailbox}
    (hm : h.mailboxes[id]? = some m) : h.queue id = m.queue := by
  simp [queue, hm]

theorem queue_of_no_mailbox {h : Hub} {id : SubscriptionId} (hm : h.mailboxes[id]? = none) :
    h.queue id = [] := by
  simp [queue, hm]

theorem mailbox_of_held {h : Hub} {id : SubscriptionId} (hh : h.held id = true) :
    ∃ m, h.mailboxes[id]? = some m ∧ m.held = true := by
  cases hm : h.mailboxes[id]? with
  | none => simp [held, hm] at hh
  | some m => exact ⟨m, rfl, by simpa [held, hm] using hh⟩

theorem lt_of_mailbox {h : Hub} {id : SubscriptionId} {m : Mailbox}
    (hm : h.mailboxes[id]? = some m) : id < h.mailboxes.length :=
  (List.getElem?_eq_some_iff.mp hm).1

/-! Subscribing. -/

theorem subscribe_cases (h : Hub) (t : Topic) (identity : Filter) :
    (∃ e, h.subscribe t identity = (.error e, h)) ∨
    (h.closed = false ∧ h.capacity ≤ greatestCapacity ∧
      h.subscribe t identity = (.ok h.mailboxes.length, { h with
        slots := h.slots ++ [⟨h.mailboxes.length, t, identity⟩]
        mailboxes := h.mailboxes ++ [⟨t, [], true⟩] })) := by
  by_cases hc : h.closed = true
  · exact .inl ⟨.closed, by simp [subscribe, hc]⟩
  · by_cases hl : greatestCapacity < h.capacity
    · exact .inl ⟨.capacity, by simp [subscribe, hc, hl]⟩
    · exact .inr ⟨by simpa using hc, by omega, by simp [subscribe, hc, hl]⟩

theorem subscribe_of_open {h : Hub} (hopen : h.closed = false)
    (hcap : h.capacity ≤ greatestCapacity) (t : Topic) (identity : Filter) :
    (h.subscribe t identity).1 = .ok h.mailboxes.length := by
  have hl : ¬ greatestCapacity < h.capacity := by omega
  simp [subscribe, hopen, hl]

@[simp] theorem queue_subscribe (h : Hub) (t : Topic) (identity : Filter) (id : SubscriptionId) :
    (h.subscribe t identity).2.queue id = h.queue id := by
  rcases subscribe_cases h t identity with ⟨e, he⟩ | ⟨_, _, he⟩
  · rw [he]
  · rw [he]
    rcases Nat.lt_trichotomy id h.mailboxes.length with hlt | heq | hgt
    · simp [queue, List.getElem?_append_left hlt]
    · simp [queue, heq]
    · have hnew : (h.mailboxes ++ [⟨t, [], true⟩])[id]? = none :=
        List.getElem?_eq_none (by simpa using Nat.succ_le_of_lt hgt)
      rw [queue_of_no_mailbox hnew, queue_of_no_mailbox (List.getElem?_eq_none (Nat.le_of_lt hgt))]

/-! Publishing. -/

/-- Whether a publish puts the event into the queue of the subscription. -/
def delivers (h : Hub) (t : Topic) (f : Filter) (id : SubscriptionId) : Bool :=
  !h.closed && h.slots.any fun s => s.id = id && h.takes t f s

/-- A list without repeated indices modifies each of its places once. -/
theorem getElem?_foldl_modify {α : Type} (g : α → α) {l : List Slot}
    (hnd : (l.map Slot.id).Nodup) (ms : List α) (id : Nat) :
    (l.foldl (fun ms s => ms.modify s.id g) ms)[id]? =
      if l.any (fun s => s.id = id) then ms[id]?.map g else ms[id]? := by
  induction l generalizing ms with
  | nil => simp
  | cons s l ih =>
    have hs : s.id ∉ l.map Slot.id := (List.nodup_cons.mp hnd).1
    rw [List.foldl_cons, ih (List.nodup_cons.mp hnd).2]
    by_cases heq : s.id = id
    · have hno : l.any (fun s => s.id = id) = false := by
        simp only [List.any_eq_false, decide_eq_true_eq]
        intro x hx he
        exact hs (heq ▸ he ▸ List.mem_map_of_mem hx)
      simp [hno, heq]
    · simp [heq]

theorem length_foldl_modify {α : Type} (g : α → α) (l : List Slot) (ms : List α) :
    (l.foldl (fun ms s => ms.modify s.id g) ms).length = ms.length := by
  induction l generalizing ms with
  | nil => rfl
  | cons s l ih => simpa using ih (ms.modify s.id g)

theorem mailbox_publish {h : Hub} (hnd : (h.slots.map Slot.id).Nodup) (t : Topic) (f : Filter)
    (e : Event) (id : SubscriptionId) :
    (h.publish t f e).2.mailboxes[id]? =
      if h.delivers t f id then h.mailboxes[id]?.map (enqueue e) else h.mailboxes[id]? := by
  by_cases hc : h.closed = true
  · simp [publish, delivers, hc]
  · have hnd' : ((h.slots.filter (h.takes t f)).map Slot.id).Nodup :=
      hnd.sublist (List.filter_sublist.map _)
    have hany : (h.slots.filter (h.takes t f)).any (fun s => s.id = id) = h.delivers t f id := by
      simp [delivers, hc, List.any_filter, Bool.and_comm]
    have hfold := getElem?_foldl_modify (enqueue e) hnd' h.mailboxes id
    rw [hany] at hfold
    simpa [publish, hc] using hfold

theorem mailbox_of_delivers {h : Hub} {t : Topic} {f : Filter} {id : SubscriptionId}
    (hd : h.delivers t f id = true) : ∃ m, h.mailboxes[id]? = some m := by
  simp only [delivers, takes, Bool.and_eq_true, List.any_eq_true, decide_eq_true_eq] at hd
  obtain ⟨_, s, _, hid, ⟨_, hheld⟩, _⟩ := hd
  obtain ⟨m, hm, _⟩ := mailbox_of_held hheld
  exact ⟨m, hid ▸ hm⟩

theorem queue_publish {h : Hub} (hnd : (h.slots.map Slot.id).Nodup) (t : Topic) (f : Filter)
    (e : Event) (id : SubscriptionId) :
    (h.publish t f e).2.queue id = h.queue id ++ if h.delivers t f id then [e] else [] := by
  have hm := mailbox_publish hnd t f e id
  cases hd : h.delivers t f id with
  | false =>
    simp only [hd, Bool.false_eq_true, if_false] at hm
    simp [queue, hm]
  | true =>
    obtain ⟨m, hm'⟩ := mailbox_of_delivers hd
    simp only [hd, if_true, hm', Option.map_some] at hm
    simp [queue, hm, hm', enqueue]

@[simp] theorem held_publish {h : Hub} (hnd : (h.slots.map Slot.id).Nodup) (t : Topic) (f : Filter)
    (e : Event) (id : SubscriptionId) : (h.publish t f e).2.held id = h.held id := by
  have hm := mailbox_publish hnd t f e id
  cases hd : h.delivers t f id <;> cases hm' : h.mailboxes[id]? <;>
    simp_all [held, enqueue]

@[simp] theorem closed_publish (h : Hub) (t : Topic) (f : Filter) (e : Event) :
    (h.publish t f e).2.closed = h.closed := by
  unfold publish
  split <;> rfl

@[simp] theorem capacity_publish (h : Hub) (t : Topic) (f : Filter) (e : Event) :
    (h.publish t f e).2.capacity = h.capacity := by
  unfold publish
  split <;> rfl

@[simp] theorem length_publish (h : Hub) (t : Topic) (f : Filter) (e : Event) :
    (h.publish t f e).2.mailboxes.length = h.mailboxes.length := by
  unfold publish
  split
  · rfl
  · exact length_foldl_modify (enqueue e) _ _

/-- Publishing only takes registrations away, and none whose owner still holds it. -/
theorem mem_slots_publish {h : Hub} {t : Topic} {f : Filter} {e : Event} {s : Slot}
    (hs : s ∈ (h.publish t f e).2.slots) : s ∈ h.slots := by
  unfold publish at hs
  split at hs
  · exact hs
  · exact (List.mem_filter.mp hs).1

theorem slots_publish_sublist (h : Hub) (t : Topic) (f : Filter) (e : Event) :
    (h.publish t f e).2.slots.Sublist h.slots := by
  unfold publish
  split
  · exact .refl _
  · exact List.filter_sublist

theorem mem_slots_publish_of_held {h : Hub} {t : Topic} {f : Filter} {e : Event} {s : Slot}
    (hs : s ∈ h.slots) (hh : h.held s.id = true) : s ∈ (h.publish t f e).2.slots := by
  unfold publish
  split
  · exact hs
  · exact List.mem_filter.mpr ⟨hs, by simp [prunes, hh]⟩

/-! Taking events out. -/

@[simp] theorem slots_receive (h : Hub) (j : SubscriptionId) : (h.receive j).2.slots = h.slots := by
  unfold receive
  split <;> rfl

@[simp] theorem closed_receive (h : Hub) (j : SubscriptionId) :
    (h.receive j).2.closed = h.closed := by
  unfold receive
  split <;> rfl

@[simp] theorem capacity_receive (h : Hub) (j : SubscriptionId) :
    (h.receive j).2.capacity = h.capacity := by
  unfold receive
  split <;> rfl

@[simp] theorem length_receive (h : Hub) (j : SubscriptionId) :
    (h.receive j).2.mailboxes.length = h.mailboxes.length := by
  unfold receive
  split <;> simp

theorem receive_event_iff {h : Hub} {j : SubscriptionId} {e : Event} :
    (h.receive j).1 = .event e ↔ (h.queue j).head? = some e := by
  unfold receive
  cases hq : h.queue j with
  | nil => by_cases hr : h.registered j = true <;> simp [hr]
  | cons x r => simp

theorem mailbox_receive (h : Hub) (j id : SubscriptionId) :
    (h.receive j).2.mailboxes[id]? =
      h.mailboxes[id]?.map fun m => if j = id then { m with queue := m.queue.tail } else m := by
  unfold receive
  cases hq : h.queue j with
  | nil =>
    cases hm : h.mailboxes[id]? with
    | none => simp
    | some m =>
      by_cases hj : j = id
      · subst hj
        rw [queue_of_mailbox hm] at hq
        cases m
        simp_all
      · simp [hj]
  | cons e r =>
    by_cases hj : j = id
    · subst hj
      cases hm : h.mailboxes[j]? with
      | none => simp [hm]
      | some m =>
        rw [queue_of_mailbox hm] at hq
        simp [hm, hq]
    · cases hm : h.mailboxes[id]? <;> simp [hj, hm]

@[simp] theorem queue_receive (h : Hub) (j id : SubscriptionId) :
    (h.receive j).2.queue id = if j = id then (h.queue id).tail else h.queue id := by
  have hm := mailbox_receive h j id
  cases hm' : h.mailboxes[id]? <;> by_cases hj : j = id <;> simp_all [queue]

@[simp] theorem held_receive (h : Hub) (j id : SubscriptionId) :
    (h.receive j).2.held id = h.held id := by
  have hm := mailbox_receive h j id
  cases hm' : h.mailboxes[id]? <;> by_cases hj : j = id <;> simp_all [held]

/-! Letting go. -/

theorem mailbox_drop (h : Hub) (j id : SubscriptionId) :
    (h.drop j).mailboxes[id]? =
      h.mailboxes[id]?.map fun m => if j = id then { m with queue := [], held := false } else m := by
  by_cases hj : j = id
  · subst hj
    simp [drop]
  · cases hm : h.mailboxes[id]? <;> simp [drop, hj, hm]

@[simp] theorem queue_drop (h : Hub) (j id : SubscriptionId) :
    (h.drop j).queue id = if j = id then [] else h.queue id := by
  have hm := mailbox_drop h j id
  cases hm' : h.mailboxes[id]? <;> by_cases hj : j = id <;> simp_all [queue]

@[simp] theorem held_drop (h : Hub) (j id : SubscriptionId) :
    (h.drop j).held id = (h.held id && j != id) := by
  have hm := mailbox_drop h j id
  cases hm' : h.mailboxes[id]? <;> by_cases hj : j = id <;> simp_all [held]

theorem mem_slots_unsubscribe {h : Hub} {t : Topic} {j : SubscriptionId} {s : Slot} :
    s ∈ (h.unsubscribe t j).2.slots ↔ s ∈ h.slots ∧ ¬(s.topic = t ∧ s.id = j) := by
  simp only [unsubscribe, List.mem_filter, Bool.not_eq_true', Bool.and_eq_false_imp,
    decide_eq_true_eq, decide_eq_false_iff_not, not_and]

@[simp] theorem mailboxes_close (h : Hub) : h.close.mailboxes = h.mailboxes := by
  unfold close
  split <;> rfl

@[simp] theorem queue_close (h : Hub) (id : SubscriptionId) : h.close.queue id = h.queue id := by
  simp [queue]

@[simp] theorem held_close (h : Hub) (id : SubscriptionId) : h.close.held id = h.held id := by
  simp [held]

@[simp] theorem closed_close (h : Hub) : h.close.closed = true := by
  unfold close
  split <;> simp_all

@[simp] theorem capacity_close (h : Hub) : h.close.capacity = h.capacity := by
  unfold close
  split <;> rfl

end EventGateway.Hub
