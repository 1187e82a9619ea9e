import EventGateway.Proofs.Hub.Closing

/-! An unsubscribe compares the number of registrations on the topic before and after. That answers
whether the subscription was registered there, and takes nothing but its one registration away,
because a subscription is registered at most once and on its own topic. Its queue outlives the
registration. -/

namespace EventGateway.Hub

variable {h h' : Hub} {t : Topic} {id : SubscriptionId} {op : HubOp}

/-- The topic that the owner of a subscription reads on it. -/
def topic? (h : Hub) (id : SubscriptionId) : Option Topic := h.mailboxes[id]?.map Mailbox.topic

theorem topic?_of_slot (hv : h.Valid) {s : Slot} (hs : s ∈ h.slots) :
    h.topic? s.id = some s.topic := by
  obtain ⟨m, hm, htopic⟩ := hv.made s hs
  simp [topic?, hm, htopic]

theorem topic?_subscribe_ok {who : Filter} (hok : h.subscribe t who = (.ok id, h')) :
    h'.topic? id = some t := by
  obtain ⟨rfl, rfl⟩ := subscribe_ok hok
  simp [topic?]

/-- Whatever happens to its queue, a subscription stays on its topic. -/
theorem topic?_kept {f : Mailbox → Mailbox}
    (hmailbox : h'.mailboxes[id]? = h.mailboxes[id]?.map f) (hf : ∀ m, (f m).topic = m.topic) :
    h'.topic? id = h.topic? id := by
  rw [topic?, hmailbox, Option.map_map]
  exact congrArg (fun g => h.mailboxes[id]?.map g) (funext hf)

theorem topic?_publish (hv : h.Valid) (t : Topic) (f : Filter) (e : Event) :
    (h.publish t f e).2.topic? id = h.topic? id := by
  have hmailbox := mailbox_publish hv.nodup t f e id
  split at hmailbox
  · exact topic?_kept hmailbox fun _ => rfl
  · rw [topic?, hmailbox, topic?]

theorem topic?_perform (hv : h.Valid) (hmade : id < h.mailboxes.length) (op : HubOp) :
    (h.perform op).2.topic? id = h.topic? id := by
  cases op with
  | subscribe t who =>
    rcases subscribe_cases h t who with ⟨e, he⟩ | ⟨_, _, he⟩
    · simp [perform, he]
    · simp [perform, he, topic?, List.getElem?_append_left hmade]
  | publish t f e => exact topic?_publish hv t f e
  | receive j => exact topic?_kept (mailbox_receive h j id) fun _ => by split <;> rfl
  | unsubscribe t j => rfl
  | drop j => exact topic?_kept (mailbox_drop h j id) fun _ => by split <;> rfl
  | close => simp [perform, topic?]

theorem topic?_run (hv : h.Valid) (htopic : h.topic? id = some t) (ops : List HubOp) :
    (h.run ops).topic? id = some t := by
  induction ops generalizing h with
  | nil => exact htopic
  | cons op ops ih =>
    have hmade : id < h.mailboxes.length := by
      obtain ⟨m, hm, _⟩ := Option.map_eq_some_iff.mp htopic
      exact lt_of_mailbox hm
    exact ih (hv.perform op) ((topic?_perform hv hmade op).trans htopic)

/-! One unsubscribe. -/

theorem unsubscribe_iff :
    (h.unsubscribe t id).1 = true ↔ ∃ s ∈ h.slots, s.id = id ∧ s.topic = t := by
  simp [unsubscribe, and_comm]

/-- The answer is what the number of registrations on the topic tells. -/
theorem unsubscribe_counted (h : Hub) (t : Topic) (id : SubscriptionId) :
    (h.unsubscribe t id).1 = decide (h.count t ≠ (h.unsubscribe t id).2.count t) := by
  have hrest : (h.unsubscribe t id).2.slotsOf t = (h.slotsOf t).filter fun s => s.id ≠ id := by
    simp only [slotsOf, unsubscribe, List.filter_filter]
    refine List.filter_congr fun s _ => ?_
    by_cases ht : s.topic = t <;> simp [ht]
  rw [Bool.eq_iff_iff, unsubscribe_iff, decide_eq_true_eq, ne_eq, count, count, hrest, eq_comm,
    List.length_filter_eq_length_iff]
  simp [slotsOf, and_comm, and_left_comm, and_assoc]

theorem unsubscribe_false (hno : (h.unsubscribe t id).1 = false) : (h.unsubscribe t id).2 = h := by
  have hall : (h.unsubscribe t id).2.slots = h.slots := by
    refine List.filter_eq_self.mpr fun s hs => ?_
    simpa [imp_iff_not_or] using List.any_eq_false.mp hno s hs
  obtain ⟨capacity, closed, slots, mailboxes⟩ := h
  simp only [unsubscribe] at hall ⊢
  rw [hall]

theorem unsubscribe_true (hv : h.Valid) (hyes : (h.unsubscribe t id).1 = true) :
    ∃ A s B, h.slots = A ++ s :: B ∧ s.id = id ∧ s.topic = t ∧
      (h.unsubscribe t id).2 = { h with slots := A ++ B } := by
  obtain ⟨s, hs, hid, htopic⟩ := unsubscribe_iff.mp hyes
  obtain ⟨A, B, hsplit⟩ := List.append_of_mem hs
  have hnd : ((A ++ s :: B).map Slot.id).Nodup := hsplit ▸ hv.nodup
  rw [List.map_append, List.map_cons, List.nodup_middle, List.nodup_cons, ← List.map_append] at hnd
  have hothers : ∀ x ∈ A ++ B, x.id ≠ id := fun x hx hxid =>
    hnd.1 ((hxid.trans hid.symm) ▸ List.mem_map_of_mem hx)
  have hrest : (A ++ B).filter (fun x => !(x.topic = t && x.id = id)) = A ++ B :=
    List.filter_eq_self.mpr fun x hx => by simp [hothers x hx]
  rw [List.filter_append] at hrest
  refine ⟨A, s, B, hsplit, hid, htopic, ?_⟩
  rw [unsubscribe, hsplit, List.filter_append, List.filter_cons_of_neg (by simp [hid, htopic]), hrest]

/-- After its unsubscribe a subscription is over, whatever is still in its queue. -/
theorem over_unsubscribe (hv : h.Valid) (hyes : (h.unsubscribe t id).1 = true) :
    (h.unsubscribe t id).2.Over id := by
  obtain ⟨s, hs, hid, htopic⟩ := unsubscribe_iff.mp hyes
  refine ⟨.inl (hid ▸ hv.slot_lt hs), fun s' hs' hid' => ?_⟩
  obtain ⟨hold, hother⟩ := mem_slots_unsubscribe.mp hs'
  have hsame : s' = s := List.inj_on_of_nodup_map hv.nodup hold hs (hid'.trans hid.symm)
  exact hother ⟨hsame ▸ htopic, hid'⟩

/-! How often an unsubscribe finds a subscription. -/

/-- The call is an unsubscribe of the subscription that finds it. -/
def finds (h : Hub) (id : SubscriptionId) : HubOp → Bool
  | .unsubscribe t j => j = id && (h.unsubscribe t j).1
  | _ => false

def findings (id : SubscriptionId) (h : Hub) : List HubOp → Nat
  | [] => 0
  | op :: ops => (h.finds id op).toNat + findings id (h.perform op).2 ops

theorem over_finds (hv : h.Valid) (hyes : h.finds id op = true) : (h.perform op).2.Over id := by
  cases op with
  | unsubscribe t j =>
    obtain ⟨rfl, hfound⟩ : j = id ∧ (h.unsubscribe t j).1 = true := by simpa [finds] using hyes
    exact over_unsubscribe hv hfound
  | subscribe | publish | receive | drop | close => simp [finds] at hyes

theorem Over.finds (ho : h.Over id) (op : HubOp) : h.finds id op = false := by
  refine Bool.eq_false_iff.mpr fun hyes => ?_
  cases op with
  | unsubscribe t j =>
    obtain ⟨rfl, hfound⟩ : j = id ∧ (h.unsubscribe t j).1 = true := by simpa [Hub.finds] using hyes
    obtain ⟨s, hs, hid, -⟩ := unsubscribe_iff.mp hfound
    exact ho.gone s hs hid
  | subscribe | publish | receive | drop | close => simp [Hub.finds] at hyes

theorem Over.findings (ho : h.Over id) (hv : h.Valid) (ops : List HubOp) :
    h.findings id ops = 0 := by
  induction ops generalizing h with
  | nil => rfl
  | cons op ops ih =>
    rw [Hub.findings, ho.finds op, ih (ho.perform hv op) (hv.perform op)]
    rfl

theorem findings_le_one (hv : h.Valid) (id : SubscriptionId) (ops : List HubOp) :
    h.findings id ops ≤ 1 := by
  induction ops generalizing h with
  | nil => simp [findings]
  | cons op ops ih =>
    cases hf : h.finds id op with
    | false => simpa [findings, hf] using ih (hv.perform op)
    | true => simp [findings, hf, (over_finds hv hf).findings (hv.perform op) ops]

/-- Registrations are unique and an unsubscribe is exact. At any time no subscription is registered
twice, and each only on the topic its owner reads on it, which never changes. An unsubscribe answers
whether the subscription is registered on the topic, takes that one registration away if it is, and
otherwise changes nothing. What the queue of a subscription holds when it is unsubscribed is told to
its owner in order, and then the end. So at most one unsubscribe ever finds a subscription. -/
theorem unsubscribe_exact (b : Nat) (before after : List HubOp) :
    let h := (new b).run before
    (h.slots.map Slot.id).Nodup ∧
    (∀ s ∈ h.slots, h.topic? s.id = some s.topic) ∧
    (∀ t who id h₁, h.subscribe t who = (.ok id, h₁) → (h₁.run after).topic? id = some t) ∧
    (∀ t id, (h.unsubscribe t id).1 = decide (h.count t ≠ (h.unsubscribe t id).2.count t)) ∧
    (∀ t id, (h.unsubscribe t id).1 = true ↔ ∃ s ∈ h.slots, s.id = id ∧ s.topic = t) ∧
    (∀ t id, (h.unsubscribe t id).1 = true → ∃ A s B, h.slots = A ++ s :: B ∧ s.id = id ∧
      s.topic = t ∧ (h.unsubscribe t id).2 = { h with slots := A ++ B }) ∧
    (∀ t id, (h.unsubscribe t id).1 = false → (h.unsubscribe t id).2 = h) ∧
    (∀ t id k r, (h.unsubscribe t id).1 = true →
      ((h.unsubscribe t id).2.told id after)[k]? = some r → r = lastWords (h.queue id) k) ∧
    (∀ t id, (h.unsubscribe t id).1 = true → (∀ op ∈ after, op.drops id = false) →
      ((h.unsubscribe t id).2.run after).queue id =
        (h.queue id).drop ((h.unsubscribe t id).2.told id after).length) ∧
    (∀ id, (new b).findings id before ≤ 1) := by
  intro h
  have hv : h.Valid := valid_run b before
  refine ⟨hv.nodup, fun s => topic?_of_slot hv, fun t who id h₁ hok => ?_, unsubscribe_counted h,
    fun t id => unsubscribe_iff, fun t id => unsubscribe_true hv, fun t id => unsubscribe_false,
    fun t id k r hyes hr => ?_, fun t id hyes hkept => ?_,
    fun id => findings_le_one (valid_new b) id before⟩
  · have hv₁ : h₁.Valid := by
      have hv' := hv.subscribe t who
      rwa [hok] at hv'
    exact topic?_run hv₁ (topic?_subscribe_ok hok) after
  · exact (over_unsubscribe hv hyes).told (hv.unsubscribe t id) after hr
  · exact (over_unsubscribe hv hyes).queue_run (hv.unsubscribe t id) hkept

/-- Two subscriptions on one topic, the first with two events. -/
def twoOnTopic : List HubOp :=
  [.subscribe .session {}, .publish .session {} (.new .sessionExpired), .subscribe .session {},
    .publish .session {} (.new .sessionExpired)]

/-- The second unsubscribe does not find it, the third receive finds the end. -/
def callsAfterwards : List HubOp :=
  [.receive 0, .unsubscribe .session 0, .publish .session {} (.new .sessionExpired), .receive 0,
    .receive 0]

theorem unsubscribe_exact_twoOnTopic :
    let h := (new 4).run twoOnTopic
    (h.unsubscribe .session 0).1 = true ∧ (h.unsubscribe .sessionTask 0).2 = h ∧
    (h.unsubscribe .session 0).2.slots = [⟨1, .session, {}⟩] ∧
    (h.unsubscribe .session 0).2.told 0 callsAfterwards =
      [.event (.new .sessionExpired), .event (.new .sessionExpired), .ended] ∧
    ((h.unsubscribe .session 0).2.run callsAfterwards).queue 0 = [] ∧
    (new 4).findings 0 (twoOnTopic ++ .unsubscribe .session 0 :: callsAfterwards) = 1 := by
  intro h
  have hfound : (h.unsubscribe .session 0).1 = true := by decide +kernel
  have hother : (h.unsubscribe .sessionTask 0).1 = false := by decide +kernel
  have htold : (h.unsubscribe .session 0).2.told 0 callsAfterwards =
      [.event (.new .sessionExpired), .event (.new .sessionExpired), .ended] := by decide +kernel
  have hqueue : h.queue 0 = [.new .sessionExpired, .new .sessionExpired] := by decide +kernel
  have hkept : ∀ op ∈ callsAfterwards, op.drops 0 = false := by
    simp [callsAfterwards, HubOp.drops]
  obtain ⟨-, -, -, -, -, -, hno, -, hrest, -⟩ := unsubscribe_exact 4 twoOnTopic callsAfterwards
  refine ⟨hfound, hno _ _ hother, by decide +kernel, htold, ?_, by decide +kernel⟩
  rw [hrest .session 0 hfound hkept, htold, hqueue]
  rfl

end EventGateway.Hub
