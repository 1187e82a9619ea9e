import EventGateway.Proofs.Hub.Accounting
import EventGateway.Proofs.Hub.Delivery
import Mathlib.Data.Finset.Card

/-! A subscription that is let go of leaves its registration behind, until a publish reaches it: one on
its topic, with a filter that admits its listener. What is published for others passes it by, so the
number of registrations can be larger than that of the subscriptions. -/

namespace EventGateway

namespace Hub

variable {h : Hub} {t : Topic}

/-- The registrations on the topic that nobody holds any more. -/
def dropped (h : Hub) (t : Topic) : List Slot := (h.slotsOf t).filter fun s => !h.held s.id

theorem mem_dropped {s : Slot} : s ∈ h.dropped t ↔ s ∈ h.slotsOf t ∧ h.held s.id = false := by
  simp [dropped]

theorem Valid.dropped_publish (hv : h.Valid) (hopen : h.closed = false) (t : Topic) (f : Filter)
    (e : Event) : (h.publish t f e).2.dropped t =
      (h.dropped t).filter fun s => !f.admits s.identity := by
  rw [dropped, slotsOf_publish hopen, dropped, List.filter_filter, List.filter_filter]
  refine List.filter_congr fun s _ => ?_
  rw [held_publish hv.nodup]
  cases h.held s.id <;> simp

theorem count_eq (h : Hub) (t : Topic) : h.count t =
    ((h.slotsOf t).filter fun s => h.held s.id).length + (h.dropped t).length :=
  List.length_eq_length_filter_add _

theorem mem_slots_run_dropped {s : Slot} (hv : h.Valid) (hmade : s.id < h.mailboxes.length)
    (hdropped : h.held s.id = false) (ops : List HubOp) :
    s ∈ (h.run ops).slots ↔
      s ∈ h.slots ∧ ∀ op ∈ ops, op.ends s = false ∧ op.reaches s = false := by
  -- A number that has been given out, and that nobody holds, stays so in every hub of the run.
  induction ops generalizing h with
  | nil => simp
  | cons op ops ih =>
    have hmade' := Nat.lt_of_lt_of_le hmade (grows_perform h op).mailboxes
    have hdropped' : (h.perform op).2.held s.id = false := by
      rw [held_perform hv hmade, hdropped, Bool.false_and]
    rw [run_cons, ih (hv.perform op) hmade' hdropped', mem_slots_perform hv hmade,
      List.forall_mem_cons]
    simp only [hdropped, Bool.false_eq_true, false_or, and_assoc]

end Hub

namespace Books

variable {limit : Nat} {w : Books} {t : Topic}

/-- The subscriptions to the topic that are held and have neither been unsubscribed nor ended. -/
def live (w : Books) (t : Topic) : Finset SubscriptionId :=
  (Finset.range w.hub.mailboxes.length).filter fun id =>
    (w.account id).any fun a => a.topic = t && a.held && a.registered

theorem Sound.mem_live (hs : w.Sound limit) {id : SubscriptionId} :
    id ∈ w.live t ↔
      ∃ a, w.account id = some a ∧ a.topic = t ∧ a.held = true ∧ a.registered = true := by
  simp only [live, Finset.mem_filter, Finset.mem_range, Option.any_eq_true, Bool.and_eq_true,
    decide_eq_true_eq, and_assoc]
  exact ⟨fun hid => hid.2, fun ⟨a, ha, hrest⟩ => ⟨hs.lt ha, a, ha, hrest⟩⟩

/-- The live subscriptions are the registered ones that are held. -/
theorem Sound.live_eq (hs : w.Sound limit) (t : Topic) : w.live t =
    (((w.hub.slotsOf t).filter fun s => w.hub.held s.id).map Slot.id).toFinset := by
  ext id
  simp only [hs.mem_live, List.mem_toFinset, List.mem_map, List.mem_filter, Hub.mem_slotsOf]
  constructor
  · rintro ⟨a, ha, htopic, hheld, hreg⟩
    have hagrees := hs.agrees id a ha
    exact ⟨_, ⟨⟨hagrees.listed hheld hreg, htopic⟩, hagrees.held.trans hheld⟩, rfl⟩
  · rintro ⟨s, ⟨⟨hmem, htopic⟩, hheld⟩, rfl⟩
    obtain ⟨a, ha⟩ := hs.opened s.id (hs.valid.slot_lt hmem)
    obtain ⟨hst, _, hreg⟩ := (hs.agrees s.id a ha).slot s hmem rfl
    exact ⟨a, ha, hst.symm.trans htopic, (hs.agrees s.id a ha).held.symm.trans hheld, hreg⟩

theorem Sound.count_eq (hs : w.Sound limit) (t : Topic) :
    w.hub.count t = (w.live t).card + (w.hub.dropped t).length := by
  have hnodup : (((w.hub.slotsOf t).filter fun s => w.hub.held s.id).map Slot.id).Nodup :=
    hs.valid.nodup.sublist ((List.filter_sublist.trans List.filter_sublist).map _)
  rw [hs.live_eq, List.toFinset_card_of_nodup hnodup, List.length_map, Hub.count_eq]

theorem ofRun_append (b : Nat) (ops : List HubOp) (op : HubOp) :
    ofRun b (ops ++ [op]) = (ofRun b ops).step (max b 1) op := by
  simp [ofRun]

/-- In every run, a publish to an open hub removes the dropped registrations on its topic that its
filter admits, and leaves the others. The registrations of the topic are then as many as the live
subscriptions, and those that are left over; so the two numbers agree if and only if the publish has
reached all that were dropped. One that was not reached stays until it is unsubscribed, the hub is
closed, or a publish does reach it. -/
theorem pruned_when_reached (b : Nat) (ops : List HubOp) (hopen : (ofRun b ops).hub.closed = false)
    (t : Topic) (f : Filter) (e : Event) :
    let w := ofRun b ops
    let w' := ofRun b (ops ++ [.publish t f e])
    w'.hub.dropped t = (w.hub.dropped t).filter (fun s => !f.admits s.identity) ∧
    w'.hub.count t = (w'.live t).card + (w'.hub.dropped t).length ∧
    (w'.hub.count t = (w'.live t).card ↔ ∀ s ∈ w.hub.dropped t, f.admits s.identity = true) ∧
    ∀ s ∈ w.hub.dropped t, ∀ after,
      s ∈ (w.hub.run after).slots ↔ ∀ op ∈ after, op.ends s = false ∧ op.reaches s = false := by
  intro w w'
  have hs : w.Sound (max b 1) := sound_ofRun b ops
  have hs' : w'.Sound (max b 1) := sound_ofRun b (ops ++ [.publish t f e])
  have hleft : w'.hub.dropped t = (w.hub.dropped t).filter fun s => !f.admits s.identity := by
    have hhub : w'.hub = (w.hub.publish t f e).2 := congrArg Books.hub (ofRun_append b ops _)
    rw [hhub, hs.valid.dropped_publish hopen]
  have hcount := hs'.count_eq t
  refine ⟨hleft, hcount, ?_, fun s hmem after => ?_⟩
  · have hnone : (w'.hub.dropped t).length = 0 ↔ ∀ s ∈ w.hub.dropped t, f.admits s.identity = true := by
      rw [hleft, List.length_eq_zero_iff, List.filter_eq_nil_iff]
      simp
    rw [← hnone, hcount]
    omega
  · obtain ⟨hslot, hdropped⟩ := Hub.mem_dropped.mp hmem
    have hlisted := (Hub.mem_slotsOf.mp hslot).1
    rw [Hub.mem_slots_run_dropped hs.valid (hs.valid.slot_lt hlisted) hdropped]
    exact and_iff_right hlisted

/-- Three listeners, in two sessions; the first two have let go. -/
def halfGone : List HubOp :=
  let only (session : String) : Filter := ⟨some session, none⟩
  [.subscribe .session (only "S1"), .subscribe .session (only "S2"), .subscribe .session (only "S1"),
    .drop 0, .drop 1]

theorem pruned_when_reached_halfGone :
    (ofRun 4 halfGone).hub.closed = false ∧
    let w' := ofRun 4 (halfGone ++
      [.publish .session ⟨some "S1", none⟩ (.scopedTo .sessionExpired (some "S1") none)])
    w'.hub.dropped .session = [⟨1, .session, ⟨some "S2", none⟩⟩] ∧
    (w'.live .session).card = 1 ∧ w'.hub.count .session = 2 := by
  have hopen : (ofRun 4 halfGone).hub.closed = false := by decide +kernel
  obtain ⟨hleft, hcount, -⟩ := pruned_when_reached 4 halfGone hopen .session ⟨some "S1", none⟩
    (.scopedTo .sessionExpired (some "S1") none)
  have hbefore : ((ofRun 4 halfGone).hub.dropped .session).filter
      (fun s => !Filter.admits ⟨some "S1", none⟩ s.identity) = [⟨1, .session, ⟨some "S2", none⟩⟩] := by
    decide +kernel
  rw [hbefore] at hleft
  refine ⟨hopen, hleft, by decide +kernel, hcount.trans ?_⟩
  rw [hleft]
  decide +kernel

/-- A publish on the topic of a dropped subscription, for another session, leaves its registration. -/
theorem dropped_outlives_publish :
    let w := ofRun 256 [.subscribe .session ⟨some "S1", none⟩, .drop 0,
      .publish .session ⟨some "S2", none⟩ (.scopedTo .sessionExpired (some "S2") none)]
    w.hub.closed = false ∧ w.hub.held 0 = false ∧
      w.hub.slotsOf .session = [⟨0, .session, ⟨some "S1", none⟩⟩] ∧
      w.hub.count .session ≠ (w.live .session).card := by
  decide +kernel

end Books

end EventGateway
