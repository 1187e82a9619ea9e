import EventGateway.Proofs.Hub.Calls

/-! The end of a subscription is not stored anywhere: a subscription with an empty queue has ended
once no registration of it is left. Only an unsubscribe and the close of the hub take one away from
an owner that holds it, and after the close every subscription ends with what its queue had. -/

namespace EventGateway

namespace HubOp

/-- Whether the call takes the registration away. -/
def ends (s : Slot) : HubOp → Bool
  | .close => true
  | .unsubscribe t id => s.topic = t && s.id = id
  | _ => false

/-- Whether the call publishes to the registration. -/
def reaches (s : Slot) : HubOp → Bool
  | .publish t f _ => Hub.addressed t f s
  | _ => false

/-- Whether the owner lets go of the subscription by the call. -/
def drops (id : SubscriptionId) : HubOp → Bool
  | .drop j => j = id
  | _ => false

end HubOp

namespace Hub

variable {h : Hub} {id : SubscriptionId} {op : HubOp}

def run (h : Hub) (ops : List HubOp) : Hub := ops.foldl (fun h op => (h.perform op).2) h

@[simp] theorem run_nil (h : Hub) : h.run [] = h := rfl

@[simp] theorem run_cons (h : Hub) (op : HubOp) (ops : List HubOp) :
    h.run (op :: ops) = (h.perform op).2.run ops := rfl

/-- What the call tells the subscription. -/
def tells (h : Hub) (id : SubscriptionId) : HubOp → List Received
  | .receive j => if j = id then [(h.receive j).1] else []
  | _ => []

/-- What the subscription is told in a run, until its owner lets go of it. -/
def told (id : SubscriptionId) (h : Hub) : List HubOp → List Received
  | [] => []
  | op :: ops => if op.drops id then [] else h.tells id op ++ told id (h.perform op).2 ops

/-- The hub is closed: nobody is registered, and no call but a receive is of any use. -/
structure Shut (h : Hub) : Prop where
  closed : h.closed = true
  count : ∀ t, h.count t = 0
  publish : ∀ t f e, h.publish t f e = (.error .closed, h)
  subscribe : ∀ t who, h.subscribe t who = (.error .closed, h)
  unsubscribe : ∀ t id, h.unsubscribe t id = (false, h)
  close : h.close = h

theorem leads_run (h : Hub) (ops : List HubOp) : h.Leads (h.run ops) := by
  induction ops generalizing h with
  | nil => exact .refl
  | cons op ops ih => exact (leads_perform h op).trans (ih _)

theorem valid_run (b : Nat) (ops : List HubOp) : ((new b).run ops).Valid :=
  (valid_new b).leads (leads_run _ ops)

theorem registered_iff : h.registered id = true ↔ ∃ s ∈ h.slots, s.id = id := by
  simp [registered]

theorem receive_of_queue {e : Event} {q : List Event} (hq : h.queue id = e :: q) :
    (h.receive id).1 = .event e :=
  receive_event_iff.mpr (by simp [hq])

/-- An empty queue is at its end as soon as nobody is registered for it. -/
theorem receive_of_empty (hq : h.queue id = []) :
    (h.receive id).1 = if h.registered id then .pending else .ended := by
  simp [receive, hq]

theorem ended_iff (hq : h.queue id = []) :
    (h.receive id).1 = .ended ↔ ∀ s ∈ h.slots, s.id ≠ id := by
  rw [receive_of_empty hq]
  split
  next hr =>
    obtain ⟨s, hs, hid⟩ := registered_iff.mp hr
    exact iff_of_false (by simp) fun hno => hno s hs hid
  next hr =>
    exact iff_of_true rfl fun s hs hid => hr (registered_iff.mpr ⟨s, hs, hid⟩)

/-! Registrations of an owner that holds the subscription. -/

theorem held_perform (hv : h.Valid) (hmade : id < h.mailboxes.length) (op : HubOp) :
    (h.perform op).2.held id = (h.held id && !op.drops id) := by
  cases op with
  | subscribe t who =>
    rcases subscribe_cases h t who with ⟨e, he⟩ | ⟨_, _, he⟩
    · simp [perform, he, HubOp.drops]
    · simp [perform, he, HubOp.drops, held, List.getElem?_append_left hmade]
  | publish t f e => simp [perform, HubOp.drops, hv.nodup]
  | receive j => simp [perform, HubOp.drops]
  | unsubscribe t j => simp [perform, HubOp.drops, held, Hub.unsubscribe]
  | drop j =>
    rw [perform, held_drop]
    by_cases hj : j = id <;> simp [HubOp.drops, hj]
  | close => simp [perform, HubOp.drops]

/-- A registration stays through every call but the ones that end it and, if nobody holds it, those
that publish to it. -/
theorem mem_slots_perform {s : Slot} (hv : h.Valid) (hmade : s.id < h.mailboxes.length) (op : HubOp) :
    s ∈ (h.perform op).2.slots ↔
      s ∈ h.slots ∧ op.ends s = false ∧ (h.held s.id = true ∨ op.reaches s = false) := by
  cases op with
  | subscribe t who =>
    rcases subscribe_cases h t who with ⟨e, he⟩ | ⟨_, _, he⟩
    · simp [perform, he, HubOp.ends, HubOp.reaches]
    · have hne : s ≠ ⟨h.mailboxes.length, t, who⟩ := by
        rintro rfl
        exact Nat.lt_irrefl _ hmade
      simp [perform, he, HubOp.ends, HubOp.reaches, hne]
  | publish t f e =>
    cases hc : h.closed with
    | true => simp [perform, publish, hc, hv.closed hc]
    | false =>
      simp only [perform, publish, hc, Bool.false_eq_true, if_false, List.mem_filter, prunes,
        HubOp.ends, HubOp.reaches, true_and]
      cases h.held s.id <;> simp
  | receive j => simp [perform, HubOp.ends, HubOp.reaches]
  | unsubscribe t j =>
    rw [perform, mem_slots_unsubscribe]
    simp only [HubOp.ends, HubOp.reaches, Bool.and_eq_false_imp, decide_eq_true_eq,
      decide_eq_false_iff_not, not_and, or_true, and_true]
  | drop j => simp [perform, HubOp.ends, HubOp.reaches, Hub.drop]
  | close =>
    have hnil : h.close.slots = [] := hv.close.closed (closed_close h)
    simp [perform, HubOp.ends, hnil]

variable {s : Slot} {ops : List HubOp}

/-- How a held registration fares in a run in which its owner does not let go of it. -/
theorem mem_slots_run (hv : h.Valid) (hmade : s.id < h.mailboxes.length)
    (hheld : h.held s.id = true) (hkept : ∀ op ∈ ops, op.drops s.id = false) :
    s ∈ (h.run ops).slots ↔ s ∈ h.slots ∧ ∀ op ∈ ops, op.ends s = false := by
  induction ops generalizing h with
  | nil => simp
  | cons op ops ih =>
    have hmade' := Nat.lt_of_lt_of_le hmade (grows_perform h op).mailboxes
    have hheld' : (h.perform op).2.held s.id = true := by
      simp [held_perform hv hmade, hheld, hkept op List.mem_cons_self]
    have hrest := ih (hv.perform op) hmade' hheld' fun op' hop =>
      hkept op' (List.mem_cons_of_mem _ hop)
    rw [run_cons, hrest, mem_slots_perform hv hmade, List.forall_mem_cons]
    simp only [hheld, true_or, and_true, and_assoc]

theorem subscribe_lists {t : Topic} {who : Filter} {h₁ : Hub}
    (hok : h.subscribe t who = (.ok id, h₁)) : ⟨id, t, who⟩ ∈ h₁.slots ∧ h₁.held id = true := by
  obtain ⟨rfl, rfl⟩ := subscribe_ok hok
  exact ⟨by simp, by simp [held]⟩

/-- A subscription is registered until the first call that ends its registration. -/
theorem registered_subscribed {t : Topic} {who : Filter} {h₁ : Hub} (hv : h.Valid)
    (hok : h.subscribe t who = (.ok id, h₁)) (hkept : ∀ op ∈ ops, op.drops id = false) :
    (∃ s ∈ (h₁.run ops).slots, s.id = id) ↔ ∀ op ∈ ops, op.ends ⟨id, t, who⟩ = false := by
  have hv₁ : h₁.Valid := by
    have hv' := hv.subscribe t who
    rwa [hok] at hv'
  obtain ⟨-, hmade, -, honly⟩ := hv.subscribe_fresh hok
  obtain ⟨hmem, hheld⟩ := subscribe_lists hok
  have hrun := mem_slots_run (s := ⟨id, t, who⟩) hv₁ hmade hheld hkept
  constructor
  · rintro ⟨s, hs, hid⟩
    -- Whatever is registered for it later was so from the start.
    have hold : s ∈ h₁.slots := ((Grows.leads (leads_run h₁ ops)).slots s hs).resolve_right
      fun hlate => Nat.not_le_of_lt (hid ▸ hmade) hlate
    obtain ⟨htopic, hwho⟩ := honly s hold hid
    have hself : s = ⟨id, t, who⟩ := by cases s; simp_all
    exact (hrun.mp (hself ▸ hs)).2
  · intro hno
    exact ⟨_, hrun.mpr ⟨hmem, hno⟩, rfl⟩

/-! Once nobody is registered for a subscription, and nobody will be. -/

/-- What a subscription that has the given queue is told when nothing is added to it any more. -/
def lastWords (q : List Event) (k : Nat) : Received := q[k]?.elim .ended .event

/-- Nothing comes any more: the subscription was made, or none is made any more, and nobody is
registered for it. -/
structure Over (h : Hub) (id : SubscriptionId) : Prop where
  made : id < h.mailboxes.length ∨ h.closed = true
  gone : ∀ s ∈ h.slots, s.id ≠ id

theorem Over.perform (ho : h.Over id) (hv : h.Valid) (op : HubOp) : (h.perform op).2.Over id := by
  have hgrows := grows_perform h op
  rcases ho.made with hlt | hc
  · refine ⟨.inl (Nat.lt_of_lt_of_le hlt hgrows.mailboxes), fun s hs => ?_⟩
    rcases hgrows.slots s hs with hold | hlate
    · exact ho.gone s hold
    · exact Nat.ne_of_gt (Nat.lt_of_lt_of_le hlt hlate)
  · have hc' : (h.perform op).2.closed = true := by simp [hc]
    exact ⟨.inr hc', by simp [(hv.perform op).closed hc']⟩

theorem Over.registered (ho : h.Over id) : h.registered id = false := by
  refine Bool.eq_false_iff.mpr fun hr => ?_
  obtain ⟨s, hs, hid⟩ := registered_iff.mp hr
  exact ho.gone s hs hid

theorem Over.receive (ho : h.Over id) : (h.receive id).1 = lastWords (h.queue id) 0 := by
  cases hq : h.queue id with
  | nil => simp [receive_of_empty hq, ho.registered, lastWords]
  | cons e q => simp [receive_of_queue hq, lastWords]

theorem Over.tells (ho : h.Over id) {k : Nat} {r : Received} (hr : (h.tells id op)[k]? = some r) :
    r = lastWords (h.queue id) k := by
  cases op with
  | receive j =>
    by_cases hj : j = id
    · cases k with
      | zero =>
        obtain rfl : (h.receive j).1 = r := by simpa [Hub.tells, hj] using hr
        exact hj ▸ ho.receive
      | succ k => simp [Hub.tells, hj] at hr
    · simp [Hub.tells, hj] at hr
  | subscribe | publish | unsubscribe | drop | close => simp [Hub.tells] at hr

theorem Over.delivers (ho : h.Over id) (t : Topic) (f : Filter) : h.delivers t f id = false := by
  simp only [Hub.delivers, Bool.and_eq_false_imp, List.any_eq_false, Bool.and_eq_true,
    decide_eq_true_eq, not_and]
  exact fun _ s hs hid => absurd hid (ho.gone s hs)

/-- Nothing is added to the queue, and nothing lost: what the call tells is gone. -/
theorem Over.queue_perform (ho : h.Over id) (hv : h.Valid) (hkept : op.drops id = false) :
    (h.perform op).2.queue id = (h.queue id).drop (h.tells id op).length := by
  cases op with
  | subscribe t who => simp [Hub.perform, Hub.tells]
  | publish t f e => simp [Hub.perform, queue_publish hv.nodup, ho.delivers, Hub.tells]
  | receive j => by_cases hj : j = id <;> simp [Hub.perform, Hub.tells, hj]
  | unsubscribe t j => simp [Hub.perform, Hub.unsubscribe, queue, Hub.tells]
  | drop j =>
    have hj : j ≠ id := by simpa [HubOp.drops] using hkept
    simp [Hub.perform, Hub.tells, hj]
  | close => simp [Hub.perform, Hub.tells]

theorem Over.told (ho : h.Over id) (hv : h.Valid) (ops : List HubOp) {k : Nat} {r : Received}
    (hr : (h.told id ops)[k]? = some r) : r = lastWords (h.queue id) k := by
  induction ops generalizing h k with
  | nil => simp [Hub.told] at hr
  | cons op ops ih =>
    rw [Hub.told] at hr
    split at hr
    next => simp at hr
    next hkept =>
      rcases Nat.lt_or_ge k (h.tells id op).length with hlt | hge
      · exact ho.tells (List.getElem?_append_left hlt ▸ hr)
      · rw [List.getElem?_append_right hge] at hr
        have hrest := ih (ho.perform hv op) (hv.perform op) hr
        rw [ho.queue_perform hv (by simpa using hkept), lastWords, List.getElem?_drop,
          Nat.add_sub_of_le hge] at hrest
        exact hrest

theorem Over.queue_run (ho : h.Over id) (hv : h.Valid) (hkept : ∀ op ∈ ops, op.drops id = false) :
    (h.run ops).queue id = (h.queue id).drop (h.told id ops).length := by
  induction ops generalizing h with
  | nil => simp [Hub.told]
  | cons op ops ih =>
    have hop := hkept op List.mem_cons_self
    have hrest := ih (ho.perform hv op) (hv.perform op) fun op' h =>
      hkept op' (List.mem_cons_of_mem _ h)
    rw [run_cons, hrest, ho.queue_perform hv hop, List.drop_drop]
    simp [Hub.told, hop]

/-! Once the hub is closed. -/

theorem shut_of_closed (hv : h.Valid) (hc : h.closed = true) : h.Shut where
  closed := hc
  count t := by simp [count, slotsOf, hv.closed hc]
  publish t f e := by simp [publish, hc]
  subscribe t who := by simp [subscribe, hc]
  unsubscribe t id := by
    obtain ⟨capacity, closed, slots, mailboxes⟩ := h
    obtain rfl : slots = [] := hv.closed hc
    rfl
  close := by simp [close, hc]

theorem Shut.perform (hs : h.Shut) (hv : h.Valid) (op : HubOp) : (h.perform op).2.Shut :=
  shut_of_closed (hv.perform op) (by simp [hs.closed])

theorem Shut.run (hs : h.Shut) (hv : h.Valid) (ops : List HubOp) : (h.run ops).Shut := by
  induction ops generalizing h with
  | nil => exact hs
  | cons op ops ih => exact ih (hs.perform hv op) (hv.perform op)

theorem Shut.over (hs : h.Shut) (hv : h.Valid) (id : SubscriptionId) : h.Over id :=
  ⟨.inr hs.closed, by simp [hv.closed hs.closed]⟩

theorem Shut.told (hs : h.Shut) (hv : h.Valid) (ops : List HubOp) {k : Nat} {r : Received}
    (hr : (h.told id ops)[k]? = some r) : r = lastWords (h.queue id) k :=
  (hs.over hv id).told hv ops hr

theorem Shut.queue_run (hs : h.Shut) (hv : h.Valid) (hkept : ∀ op ∈ ops, op.drops id = false) :
    (h.run ops).queue id = (h.queue id).drop (h.told id ops).length :=
  (hs.over hv id).queue_run hv hkept

/-- Closing is final, and nothing is lost by it. From the close on nobody is registered, every
publish and every subscribe is refused, and each subscription is told the events that were in its
queue, in order, and that it has ended. At any time, a subscription with an empty queue has ended if
and only if nobody is registered for it, that is, if it was unsubscribed or the hub closed since. -/
theorem close_final (b : Nat) (before after : List HubOp) :
    let atClose := (new b).run before
    (atClose.close.run after).Shut ∧
    (∀ id k r, (atClose.close.told id after)[k]? = some r →
      r = lastWords (atClose.queue id) k) ∧
    (∀ id, (∀ op ∈ after, op.drops id = false) → (atClose.close.run after).queue id =
      (atClose.queue id).drop (atClose.close.told id after).length) ∧
    (∀ id, atClose.queue id = [] →
      ((atClose.receive id).1 = .ended ↔ ∀ s ∈ atClose.slots, s.id ≠ id)) ∧
    (∀ t who id h₁, atClose.subscribe t who = (.ok id, h₁) →
      (∀ op ∈ after, op.drops id = false) → (h₁.run after).queue id = [] →
      (((h₁.run after).receive id).1 = .ended ↔ ∃ op ∈ after, op.ends ⟨id, t, who⟩ = true)) := by
  intro atClose
  have hv : atClose.Valid := valid_run b before
  have hs : atClose.close.Shut := shut_of_closed hv.close (closed_close atClose)
  refine ⟨hs.run hv.close after, fun id k r hr => ?_, fun id hkept => ?_, fun id => ended_iff,
    fun t who id h₁ hok hkept hq => ?_⟩
  · simpa using hs.told hv.close after hr
  · simpa using hs.queue_run hv.close hkept
  · have hreg := registered_subscribed hv hok hkept
    rw [ended_iff hq, ← not_iff_not]
    simpa using hreg

def twoQueued : List HubOp :=
  [.subscribe .session {}, .publish .session {} (.new .sessionExpired),
    .publish .session {} (.new .sessionExpired)]

/-- The publish and the subscribe are refused, the third receive finds the end. -/
def closedCalls : List HubOp :=
  [.receive 0, .publish .session {} (.new .sessionExpired), .receive 0, .subscribe .session {},
    .receive 0]

theorem close_final_twoQueued :
    (((new 4).run twoQueued).close.run closedCalls).Shut ∧
    ((new 4).run twoQueued).close.told 0 closedCalls =
      [.event (.new .sessionExpired), .event (.new .sessionExpired), .ended] ∧
    (∀ op ∈ closedCalls, op.drops 0 = false) ∧
    (((new 4).run twoQueued).close.run closedCalls).queue 0 = [] := by
  have htold : ((new 4).run twoQueued).close.told 0 closedCalls =
      [.event (.new .sessionExpired), .event (.new .sessionExpired), .ended] := by decide +kernel
  have hqueue : ((new 4).run twoQueued).queue 0 = [.new .sessionExpired, .new .sessionExpired] := by
    decide +kernel
  have hkept : ∀ op ∈ closedCalls, op.drops 0 = false := by simp [closedCalls, HubOp.drops]
  have hrest := (close_final 4 twoQueued closedCalls).2.2.1 0 hkept
  refine ⟨(close_final 4 twoQueued closedCalls).1, htold, hkept, ?_⟩
  rw [hrest, htold, hqueue]
  rfl

end Hub

end EventGateway
