import EventGateway.Proofs.Hub.Run
import Mathlib.Logic.Relation

/-! What becomes of a hub by calls, however many and whoever makes them. -/

namespace EventGateway.Hub

variable {h h' h'' : Hub}

/-- One call makes the second hub of the first. -/
def Step (h h' : Hub) : Prop := ∃ op, (h.perform op).2 = h'

abbrev Leads : Hub → Hub → Prop := Relation.ReflTransGen Step

theorem leads_perform (h : Hub) (op : HubOp) : h.Leads (h.perform op).2 := .single ⟨op, rfl⟩

theorem Valid.leads (hv : h.Valid) (hl : h.Leads h') : h'.Valid := by
  induction hl with
  | refl => exact hv
  | tail _ hstep ih =>
    obtain ⟨op, rfl⟩ := hstep
    exact ih.perform op

/-- What operations leave of a hub: nothing that is not registered comes back. -/
structure Grows (h h' : Hub) : Prop where
  capacity : h'.capacity = h.capacity
  mailboxes : h.mailboxes.length ≤ h'.mailboxes.length
  slots : ∀ s ∈ h'.slots, s ∈ h.slots ∨ h.mailboxes.length ≤ s.id

theorem Grows.refl (h : Hub) : h.Grows h := ⟨rfl, Nat.le_refl _, fun _ hs => .inl hs⟩

theorem Grows.trans (h₁ : h.Grows h') (h₂ : h'.Grows h'') : h.Grows h'' := by
  refine ⟨h₂.capacity.trans h₁.capacity, Nat.le_trans h₁.mailboxes h₂.mailboxes, fun s hs => ?_⟩
  rcases h₂.slots s hs with hs | hs
  · exact h₁.slots s hs
  · exact .inr (Nat.le_trans h₁.mailboxes hs)

theorem grows_subscribe (h : Hub) (t : Topic) (identity : Filter) :
    h.Grows (h.subscribe t identity).2 := by
  rcases subscribe_cases h t identity with ⟨e, he⟩ | ⟨_, _, he⟩
  · rw [he]
    exact Grows.refl h
  · rw [he]
    refine ⟨rfl, by simp, fun s hs => ?_⟩
    rcases List.mem_append.mp hs with hs | hs
    · exact .inl hs
    · exact .inr (by simp [List.mem_singleton.mp hs])

theorem grows_of_slots (hcap : h'.capacity = h.capacity)
    (hlen : h'.mailboxes.length = h.mailboxes.length) (hs : ∀ s ∈ h'.slots, s ∈ h.slots) :
    h.Grows h' :=
  ⟨hcap, Nat.le_of_eq hlen.symm, fun s hmem => .inl (hs s hmem)⟩

theorem grows_publish (h : Hub) (t : Topic) (f : Filter) (e : Event) :
    h.Grows (h.publish t f e).2 :=
  grows_of_slots (by simp) (by simp) fun _ => mem_slots_publish

theorem grows_receive (h : Hub) (id : SubscriptionId) : h.Grows (h.receive id).2 :=
  grows_of_slots (by simp) (by simp) (by simp)

theorem grows_unsubscribe (h : Hub) (t : Topic) (id : SubscriptionId) :
    h.Grows (h.unsubscribe t id).2 :=
  grows_of_slots rfl rfl fun _ hs => (List.mem_filter.mp hs).1

theorem grows_drop (h : Hub) (id : SubscriptionId) : h.Grows (h.drop id) :=
  grows_of_slots rfl (by simp [drop]) fun _ hs => hs

theorem grows_close (h : Hub) : h.Grows h.close := by
  refine grows_of_slots (by simp) (by simp) fun s hs => ?_
  unfold close at hs
  split at hs
  · exact hs
  · simp at hs

theorem grows_perform (h : Hub) (op : HubOp) : h.Grows (h.perform op).2 := by
  cases op with
  | subscribe t identity => exact grows_subscribe h t identity
  | publish t f e => exact grows_publish h t f e
  | receive id => exact grows_receive h id
  | unsubscribe t id => exact grows_unsubscribe h t id
  | drop id => exact grows_drop h id
  | close => exact grows_close h

theorem Grows.leads (hl : h.Leads h') : h.Grows h' := by
  induction hl with
  | refl => exact Grows.refl h
  | tail _ hstep ih =>
    obtain ⟨op, rfl⟩ := hstep
    exact ih.trans (grows_perform _ op)

theorem subscribe_ok {t : Topic} {identity : Filter} {id : SubscriptionId}
    (hok : h.subscribe t identity = (.ok id, h')) : id = h.mailboxes.length ∧ h' = { h with
      slots := h.slots ++ [⟨id, t, identity⟩]
      mailboxes := h.mailboxes ++ [⟨t, [], true⟩] } := by
  rcases subscribe_cases h t identity with ⟨e, he⟩ | ⟨_, _, he⟩
  · simp [he] at hok
  · rw [he] at hok
    obtain ⟨hid, rfl⟩ := Prod.mk.inj hok
    obtain rfl := Except.ok.inj hid
    exact ⟨rfl, rfl⟩

theorem receive_pending {id : SubscriptionId} (hr : h.receive id = (.pending, h')) : h' = h := by
  unfold receive at hr
  cases hq : h.queue id with
  | cons e r => simp [hq] at hr
  | nil =>
    rw [hq] at hr
    exact (congrArg Prod.snd hr).symm

theorem receive_ended {id : SubscriptionId} (hr : h.receive id = (.ended, h')) :
    h' = h ∧ ∀ s ∈ h.slots, s.id ≠ id := by
  unfold receive at hr
  cases hq : h.queue id with
  | cons e r => simp [hq] at hr
  | nil =>
    cases hreg : h.registered id with
    | true => simp [hq, hreg] at hr
    | false =>
      obtain rfl : h = h' := by simpa [hq, hreg] using hr
      refine ⟨rfl, fun s hs hsid => ?_⟩
      exact Bool.false_ne_true (hreg.symm.trans (List.any_eq_true.mpr ⟨s, hs, by simpa using hsid⟩))

end EventGateway.Hub
