import EventGateway.Proofs.Hub.Run
import EventGateway.Stream.Connection

/-! What the hub does for one subscription leaves the others alone. -/

namespace EventGateway

/-- The hub has become `h'`, and the subscription has not noticed. -/
structure Hub.Spares (h h' : Hub) (id : SubscriptionId) : Prop where
  queue : h'.queue id = h.queue id
  slots : ∀ s ∈ h'.slots, s.id = id → s ∈ h.slots
  length : h.mailboxes.length ≤ h'.mailboxes.length

namespace Hub

variable {h h₁ h₂ : Hub} {id j : SubscriptionId}

theorem Spares.refl (h : Hub) (id : SubscriptionId) : h.Spares h id :=
  ⟨rfl, fun _ hs _ => hs, Nat.le_refl _⟩

theorem Spares.trans (h₁₂ : h.Spares h₁ id) (h₂₃ : h₁.Spares h₂ id) : h.Spares h₂ id where
  queue := h₂₃.queue.trans h₁₂.queue
  slots s hs hid := h₁₂.slots s (h₂₃.slots s hs hid) hid
  length := Nat.le_trans h₁₂.length h₂₃.length

theorem spares_subscribe (hlt : id < h.mailboxes.length) (t : Topic) (identity : Filter) :
    h.Spares (h.subscribe t identity).2 id := by
  have hq := queue_subscribe h t identity id
  rcases subscribe_cases h t identity with ⟨e, he⟩ | ⟨_, _, he⟩
  · rw [he]
    exact .refl h id
  · rw [he] at hq ⊢
    refine ⟨hq, fun s hs hid => ?_, by simp⟩
    rcases List.mem_append.mp hs with hs | hs
    · exact hs
    · have hnew : s.id = h.mailboxes.length := by simp [List.mem_singleton.mp hs]
      exact absurd (hid.symm.trans hnew) (Nat.ne_of_lt hlt)

theorem spares_unsubscribe (h : Hub) (t : Topic) (j id : SubscriptionId) :
    h.Spares (h.unsubscribe t j).2 id :=
  ⟨rfl, fun _ hs _ => (mem_slots_unsubscribe.mp hs).1, Nat.le_refl _⟩

theorem spares_drop (hj : j ≠ id) : h.Spares (h.drop j) id :=
  ⟨by simp [hj], fun _ hs _ => hs, by simp [Hub.drop]⟩

theorem spares_receive (hj : j ≠ id) : h.Spares (h.receive j).2 id :=
  ⟨by simp [hj], fun _ hs _ => by simpa using hs, by simp⟩

theorem spares_close (h : Hub) (id : SubscriptionId) : h.Spares h.close id := by
  refine ⟨by simp, fun s hs _ => ?_, by simp⟩
  unfold Hub.close at hs
  split at hs
  · exact hs
  · simp at hs

end Hub

namespace Connection

variable {h : Hub} {id : SubscriptionId}

theorem spares_unregister (h : Hub) (t : Topic) (j : Option SubscriptionId) (id : SubscriptionId) :
    h.Spares (unregister h t j) id := by
  cases j with
  | none => exact .refl h id
  | some j => exact Hub.spares_unsubscribe h t j id

theorem valid_unregister (hv : h.Valid) (t : Topic) (j : Option SubscriptionId) :
    (unregister h t j).Valid := by
  cases j with
  | none => exact hv
  | some j => exact hv.unsubscribe t j

theorem spares_letGo {j : Option SubscriptionId} (hj : j ≠ some id) : h.Spares (letGo h j) id := by
  cases j with
  | none => exact .refl h id
  | some j => exact Hub.spares_drop (by simpa using hj)

theorem valid_letGo (hv : h.Valid) (j : Option SubscriptionId) : (letGo h j).Valid := by
  cases j with
  | none => exact hv
  | some j => exact hv.drop j

theorem unregisterAll (ids : PerTopic SubscriptionId) (hv : h.Valid) (ts : List Topic) :
    (ts.foldl (fun h t => unregister h t (ids t)) h).Valid ∧
      ∀ id, h.Spares (ts.foldl (fun h t => unregister h t (ids t)) h) id := by
  induction ts generalizing h with
  | nil => exact ⟨hv, .refl h⟩
  | cons t ts ih =>
    obtain ⟨hvalid, hspares⟩ := ih (valid_unregister hv t (ids t))
    exact ⟨hvalid, fun id => (spares_unregister h t (ids t) id).trans (hspares id)⟩

theorem letGoAll (streams : PerTopic SubscriptionId) (hv : h.Valid) (ts : List Topic) :
    (ts.foldl (fun h t => letGo h (streams t)) h).Valid ∧
      ∀ id, (∀ t, streams t ≠ some id) →
        h.Spares (ts.foldl (fun h t => letGo h (streams t)) h) id := by
  induction ts generalizing h with
  | nil => exact ⟨hv, fun id _ => .refl h id⟩
  | cons t ts ih =>
    obtain ⟨hvalid, hspares⟩ := ih (valid_letGo hv (streams t))
    exact ⟨hvalid, fun id hid => (spares_letGo (hid t)).trans (hspares id hid)⟩

theorem spares_release (hv : h.Valid) (c : Connection) :
    (c.release h).2.Valid ∧
      ∀ id, (∀ t, c.streams t ≠ some id) → h.Spares (c.release h).2 id := by
  obtain ⟨hvalid, hspares⟩ := unregisterAll c.ids hv Topic.all
  obtain ⟨hvalid', hspares'⟩ := letGoAll c.streams hvalid Topic.all
  exact ⟨hvalid', fun id hid => (hspares id).trans (hspares' id hid)⟩

end Connection

end EventGateway
