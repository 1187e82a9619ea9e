import EventGateway.Proofs.Hub.Closing

/-! A publish accounts for every registration. Of those on its topic that the filter admits, the ones
that are held gain the event or, with a full queue, lose it, and the ones let go of are removed. All
others stay as they are. -/

namespace EventGateway.Hub

variable {h : Hub} {t : Topic} {f : Filter}

/-- The registrations on the topic that are admitted and held, and have room for the event. -/
def gaining (h : Hub) (t : Topic) (f : Filter) : List Slot :=
  (h.slotsOf t).filter fun s => f.admits s.identity && h.held s.id && h.hasRoom s.id

/-- Those that are admitted and held, and have no room. -/
def losing (h : Hub) (t : Topic) (f : Filter) : List Slot :=
  (h.slotsOf t).filter fun s => f.admits s.identity && h.held s.id && !h.hasRoom s.id

/-- What a publish to the hub says, and the hub it leaves. -/
structure Accounts (h : Hub) (t : Topic) (f : Filter) (e : Event)
    (p : Except DeliveryError Accepted × Hub) : Prop where
  counted : p.1 = .ok ⟨(h.gaining t f).length, (h.losing t f).length⟩
  once : ((h.gaining t f).map Slot.id).Nodup
  queues : ∀ id, p.2.queue id = h.queue id ++ if ∃ s ∈ h.gaining t f, s.id = id then [e] else []
  kept : p.2.slotsOf t = (h.slotsOf t).filter fun s => !f.admits s.identity || h.held s.id
  removed : ∀ s ∈ h.slotsOf t, s ∉ p.2.slotsOf t ↔ f.admits s.identity = true ∧ h.held s.id = false
  full : ∀ s ∈ h.losing t f, s ∈ p.2.slotsOf t
  slotsApart : ∀ t' ≠ t, p.2.slotsOf t' = h.slotsOf t'
  queuesApart : ∀ (id : SubscriptionId) (m : Mailbox), h.mailboxes[id]? = some m → m.topic ≠ t →
    p.2.mailboxes[id]? = some m
  held : ∀ id, p.2.held id = h.held id

theorem mem_slotsOf {s : Slot} : s ∈ h.slotsOf t ↔ s ∈ h.slots ∧ s.topic = t := by
  simp [slotsOf]

theorem filter_takes (h : Hub) (t : Topic) (f : Filter) :
    h.slots.filter (h.takes t f) = h.gaining t f := by
  rw [gaining, slotsOf, List.filter_filter]
  refine List.filter_congr fun s _ => ?_
  simp [takes, addressed, Bool.and_assoc, Bool.and_comm, Bool.and_left_comm]

theorem filter_overflows (h : Hub) (t : Topic) (f : Filter) :
    h.slots.filter (h.overflows t f) = h.losing t f := by
  rw [losing, slotsOf, List.filter_filter]
  refine List.filter_congr fun s _ => ?_
  simp [overflows, addressed, Bool.and_assoc, Bool.and_comm, Bool.and_left_comm]

theorem publish_of_open (hopen : h.closed = false) (t : Topic) (f : Filter) (e : Event) :
    (h.publish t f e).1 = .ok ⟨(h.gaining t f).length, (h.losing t f).length⟩ ∧
    (h.publish t f e).2.slots = h.slots.filter fun s => !h.prunes t f s := by
  simp [publish, hopen, filter_takes, filter_overflows]

theorem slotsOf_publish (hopen : h.closed = false) (t : Topic) (f : Filter) (e : Event) :
    (h.publish t f e).2.slotsOf t =
      (h.slotsOf t).filter fun s => !f.admits s.identity || h.held s.id := by
  rw [slotsOf, (publish_of_open hopen t f e).2, slotsOf, List.filter_filter, List.filter_filter]
  refine List.filter_congr fun s _ => ?_
  by_cases ht : s.topic = t <;> simp [prunes, addressed, ht]

theorem slotsOf_publish_ne (hopen : h.closed = false) {t t' : Topic} (ht : t' ≠ t) (f : Filter)
    (e : Event) : (h.publish t f e).2.slotsOf t' = h.slotsOf t' := by
  rw [slotsOf, (publish_of_open hopen t f e).2, slotsOf, List.filter_filter]
  refine List.filter_congr fun s _ => ?_
  by_cases hs : s.topic = t' <;> simp [prunes, addressed, hs, ht]

theorem delivers_iff (hopen : h.closed = false) {id : SubscriptionId} :
    h.delivers t f id = true ↔ ∃ s ∈ h.gaining t f, s.id = id := by
  rw [← filter_takes]
  simp only [delivers, hopen, Bool.not_false, Bool.true_and, List.any_eq_true, List.mem_filter,
    Bool.and_eq_true, decide_eq_true_eq]
  constructor
  · rintro ⟨s, hs, hid, htakes⟩
    exact ⟨s, ⟨hs, htakes⟩, hid⟩
  · rintro ⟨s, ⟨hs, htakes⟩, hid⟩
    exact ⟨s, hs, hid, htakes⟩

theorem Valid.mailbox_apart (hv : h.Valid) {id : SubscriptionId} {m : Mailbox}
    (hm : h.mailboxes[id]? = some m) (ht : m.topic ≠ t) (f : Filter) (e : Event) :
    (h.publish t f e).2.mailboxes[id]? = some m := by
  have hno : h.delivers t f id = false := by
    -- A registration that it reached would have made the mailbox, with its own topic.
    refine Bool.eq_false_iff.mpr fun hd => ht ?_
    simp only [delivers, takes, addressed, Bool.and_eq_true, List.any_eq_true,
      decide_eq_true_eq] at hd
    obtain ⟨_, s, hs, rfl, ⟨⟨hst, _⟩, _⟩, _⟩ := hd
    obtain ⟨m', hm', htopic⟩ := hv.made s hs
    obtain rfl : m = m' := Option.some.inj (hm.symm.trans hm')
    exact htopic.trans hst
  rw [mailbox_publish hv.nodup, hno, hm]
  rfl

theorem Valid.accounts (hv : h.Valid) (hopen : h.closed = false) (t : Topic) (f : Filter)
    (e : Event) : h.Accounts t f e (h.publish t f e) where
  counted := (publish_of_open hopen t f e).1
  once := by
    rw [← filter_takes]
    exact hv.nodup.sublist (List.filter_sublist.map _)
  queues id := by
    rw [queue_publish hv.nodup]
    simp only [delivers_iff hopen]
  kept := slotsOf_publish hopen t f e
  removed s hs := by
    rw [slotsOf_publish hopen, List.mem_filter]
    cases f.admits s.identity <;> cases h.held s.id <;> simp [hs]
  full s hs := by
    rw [losing, List.mem_filter] at hs
    obtain ⟨hmem, hfull⟩ := hs
    rw [slotsOf_publish hopen, List.mem_filter]
    simp only [Bool.and_eq_true] at hfull
    exact ⟨hmem, by simp [hfull.1.2]⟩
  slotsApart t' ht := slotsOf_publish_ne hopen ht f e
  queuesApart id m hm ht := hv.mailbox_apart hm ht f e
  held id := held_publish hv.nodup t f e id

/-- In every run, a publish to an open hub succeeds and accounts for every registration. It counts the
queues it adds the event to, each once and at its end. Exactly the registrations that are admitted and
let go of are removed; the others keep their order, and nothing changes on another topic. -/
theorem publish_accounts (b : Nat) (ops : List HubOp) (hopen : ((new b).run ops).closed = false)
    (t : Topic) (f : Filter) (e : Event) :
    ((new b).run ops).capacity = max b 1 ∧
      ((new b).run ops).Accounts t f e (((new b).run ops).publish t f e) :=
  ⟨(Grows.leads (leads_run (new b) ops)).capacity, (valid_run b ops).accounts hopen t f e⟩

/-- With room for one event each: the first listener has room again, the second is full, the third was
full when it was let go of, as was the fourth, which is in another session, and the last listens to
another topic. -/
def mixed : List HubOp :=
  let only (session : String) : Filter := ⟨some session, none⟩
  [.subscribe .session (only "S1"), .subscribe .session (only "S1"), .subscribe .session (only "S1"),
    .subscribe .session (only "S2"), .subscribe .sessionLog (only "S1"),
    .publish .session {} (.new .sessionExpired), .receive 0, .drop 2, .drop 3]

theorem publish_accounts_mixed :
    let h := (new 1).run mixed
    let p := h.publish .session ⟨some "S1", none⟩ (.scopedTo .sessionExpired (some "S1") none)
    h.closed = false ∧ p.1 = .ok ⟨1, 1⟩ ∧ (p.2.slotsOf .session).map Slot.id = [0, 1, 3] ∧
      p.2.queue 0 = [.scopedTo .sessionExpired (some "S1") none] ∧
      p.2.queue 1 = [.new .sessionExpired] := by
  intro h p
  have hopen : h.closed = false := by decide +kernel
  obtain ⟨_, haccounts⟩ := publish_accounts 1 mixed hopen .session ⟨some "S1", none⟩
    (.scopedTo .sessionExpired (some "S1") none)
  have hgain : ((new 1).run mixed).gaining .session ⟨some "S1", none⟩ =
      [⟨0, .session, ⟨some "S1", none⟩⟩] := by decide +kernel
  have hbefore : ((new 1).run mixed).queue 0 = [] ∧
      ((new 1).run mixed).queue 1 = [.new .sessionExpired] := by decide +kernel
  refine ⟨hopen, haccounts.counted.trans (by decide +kernel), ?_, ?_, ?_⟩
  · exact (congrArg (List.map Slot.id) haccounts.kept).trans (by decide +kernel)
  · exact (haccounts.queues 0).trans (by simp [hbefore, hgain])
  · exact (haccounts.queues 1).trans (by simp [hbefore, hgain])

end EventGateway.Hub
