import EventGateway.Proofs.Stream.Changes

/-! A census of the subscriptions: which stream made each of them. Every slot that a stream made
stands under its topic in the stream's `ids`, so that a release leaves none of them behind. -/

namespace EventGateway

/-- The stream that made a subscription; `none` when it was made elsewhere, or is not made. -/
abbrev Makers := SubscriptionId → Option Nat

namespace Makers

variable {made : Makers} {who : Option Nat} {h h' : Hub} {id : SubscriptionId}

/-- What is new on the second hub was made by `who`. -/
def credit (made : Makers) (who : Option Nat) (h h' : Hub) : Makers := fun id =>
  if h.mailboxes.length ≤ id ∧ id < h'.mailboxes.length then who else made id

theorem credit_old (hid : id < h.mailboxes.length) : made.credit who h h' id = made id :=
  if_neg fun hnew => Nat.not_le_of_lt hid hnew.1

theorem credit_new (hid : h.mailboxes.length ≤ id) (hlt : id < h'.mailboxes.length) :
    made.credit who h h' id = who :=
  if_pos ⟨hid, hlt⟩

@[simp] theorem credit_self (made : Makers) (who : Option Nat) (h : Hub) :
    made.credit who h h = made := by
  funext id
  exact if_neg fun hnew => Nat.not_le_of_lt hnew.2 hnew.1

end Makers

namespace Connection

@[simp] theorem slots_letGo (h : Hub) (id : Option SubscriptionId) :
    (letGo h id).slots = h.slots := by
  cases id <;> rfl

theorem slots_unregister (h : Hub) (t : Topic) (id : Option SubscriptionId) :
    (unregister h t id).slots = h.slots.filter fun s => ¬(s.topic = t ∧ id = some s.id) := by
  cases id with
  | none => simp [unregister]
  | some id => simp [unregister, Hub.unsubscribe, eq_comm]

@[simp] theorem mem_slots_unregister {h : Hub} {t : Topic} {id : Option SubscriptionId} {s : Slot} :
    s ∈ (unregister h t id).slots ↔ s ∈ h.slots ∧ ¬(s.topic = t ∧ id = some s.id) := by
  simp only [slots_unregister, List.mem_filter, decide_eq_true_eq]

@[simp] theorem length_unregister (h : Hub) (t : Topic) (id : Option SubscriptionId) :
    (unregister h t id).mailboxes.length = h.mailboxes.length := by
  cases id <;> rfl

theorem slots_unregisterAll (ids : PerTopic SubscriptionId) (ts : List Topic) (h : Hub) :
    (ts.foldl (fun h t => unregister h t (ids t)) h).slots =
      h.slots.filter fun s => ¬(s.topic ∈ ts ∧ ids s.topic = some s.id) := by
  induction ts generalizing h with
  | nil => simp
  | cons t ts ih =>
    rw [List.foldl_cons, ih, slots_unregister, List.filter_filter]
    refine List.filter_congr fun s _ => ?_
    by_cases ht : s.topic = t <;> by_cases hid : ids s.topic = some s.id <;> simp_all

theorem slots_letGoAll (streams : PerTopic SubscriptionId) (ts : List Topic) (h : Hub) :
    (ts.foldl (fun h t => letGo h (streams t)) h).slots = h.slots := by
  induction ts generalizing h with
  | nil => rfl
  | cons t ts ih => rw [List.foldl_cons, ih, slots_letGo]

/-- A release removes the slots that stand in `ids`, and no other. -/
theorem slots_release (c : Connection) (h : Hub) :
    (c.release h).2.slots = h.slots.filter fun s => c.ids s.topic ≠ some s.id := by
  rw [release, slots_letGoAll, slots_unregisterAll]
  exact List.filter_congr fun s _ => by simp [Topic.mem_all]

/-- The slots that the stream `k` made are those that stand in its `ids`. -/
structure Records (made : Makers) (h : Hub) (k : Nat) (c : Connection) : Prop where
  recorded : ∀ s ∈ h.slots, made s.id = some k → c.ids s.topic = some s.id
  own : ∀ t id, c.ids t = some id → made id = some k ∧ ∀ s ∈ h.slots, s.id = id → s.topic = t
  listens : ∀ t id, c.streams t = some id → c.ids t = some id
  released : c.isOpen = false → ∀ t, c.ids t = none

variable {made : Makers} {h h' : Hub} {k : Nat} {c c' : Connection}

theorem records_new (hk : ∀ id, made id ≠ some k) (identity : Filter) :
    Records made h k (.new identity) := by
  refine ⟨fun s _ hs => absurd hs (hk s.id), fun t id hid => ?_, fun t id hid => ?_, fun hc => ?_⟩
  · simp [Connection.new, PerTopic.none] at hid
  · simp [Connection.new, PerTopic.none] at hid
  · simp [Connection.new] at hc

theorem Records.kept (hr : Records made h k c) (hids : c'.ids = c.ids)
    (hstreams : ∀ t id, c'.streams t = some id → c.streams t = some id)
    (hopen : c'.isOpen = c.isOpen) : Records made h k c' where
  recorded := hids ▸ hr.recorded
  own := hids ▸ hr.own
  listens t id hid := hids ▸ hr.listens t id (hstreams t id hid)
  released hc := hids ▸ hr.released (hopen ▸ hc)

/-- No subscription is credited before it is made. -/
def Unmade (made : Makers) (h : Hub) : Prop :=
  ∀ id : SubscriptionId, h.mailboxes.length ≤ id → made id = none

theorem Unmade.lt (hu : Unmade made h) {id : SubscriptionId} (hid : made id = some k) :
    id < h.mailboxes.length := by
  rcases Nat.lt_or_ge id h.mailboxes.length with hlt | hge
  · exact hlt
  · simp [hu id hge] at hid

/-- Whatever else is done with the hub, the slots of a stream do not become more. -/
theorem Records.elsewhere (hr : Records made h k c) (hu : Unmade made h) (hv' : h'.Valid)
    (hg : h.Grows h') {who : Option Nat}
    (hwho : ∀ s ∈ h'.slots, h.mailboxes.length ≤ s.id → who ≠ some k) :
    Records (made.credit who h h') h' k c := by
  refine ⟨fun s hs hmade => ?_, fun t id hid => ?_, hr.listens, hr.released⟩
  · rcases Nat.lt_or_ge s.id h.mailboxes.length with hlt | hge
    · rw [Makers.credit_old hlt] at hmade
      exact hr.recorded s ((hg.slots s hs).resolve_right (Nat.not_le_of_lt hlt)) hmade
    · rw [Makers.credit_new hge (hv'.slot_lt hs)] at hmade
      exact absurd hmade (hwho s hs hge)
  · obtain ⟨hmade, htopic⟩ := hr.own t id hid
    have hlt := hu.lt hmade
    refine ⟨(Makers.credit_old hlt).trans hmade, fun s hs hsid => ?_⟩
    exact htopic s ((hg.slots s hs).resolve_right (Nat.not_le_of_lt (hsid ▸ hlt))) hsid

/-- What a stream does itself with the hub, new registrations apart. -/
theorem Records.thinned (hr : Records made h k c) (hu : Unmade made h) (hv : h.Valid)
    (hs : ∀ s ∈ h'.slots, s ∈ h.slots) : Records (made.credit (some k) h h') h' k c := by
  refine ⟨fun s hmem hmade => ?_, fun t id hid => ?_, hr.listens, hr.released⟩
  · rw [Makers.credit_old (hv.slot_lt (hs s hmem))] at hmade
    exact hr.recorded s (hs s hmem) hmade
  · obtain ⟨hmade, htopic⟩ := hr.own t id hid
    exact ⟨(Makers.credit_old (hu.lt hmade)).trans hmade, fun s hmem => htopic s (hs s hmem)⟩

theorem Records.subscribes (hr : Records made h k c) (hu : Unmade made h) (hv : h.Valid)
    (hopen : c.isOpen = true) {t : Topic} {new : SubscriptionId} {h₁ : Hub}
    (hok : h.subscribe t c.identity = (.ok new, h₁)) :
    Records (made.credit (some k) h (unregister h₁ t (c.ids t))) (unregister h₁ t (c.ids t)) k
      { c with streams := c.streams.put t (some new), ids := c.ids.put t (some new) } := by
  obtain ⟨hnew, rfl⟩ := Hub.subscribe_ok hok
  have hold : ∀ {s : Slot}, s ∈ h.slots → s.id ≠ new :=
    fun hs => hnew ▸ Nat.ne_of_lt (hv.slot_lt hs)
  refine ⟨fun s hs hmade => ?_, fun u id hid => ?_, fun u id hid => ?_, fun hc => ?_⟩
  · obtain ⟨hs, hstale⟩ := mem_slots_unregister.mp hs
    rcases List.mem_append.mp hs with hs | hs
    · rw [Makers.credit_old (hv.slot_lt hs)] at hmade
      have hrec := hr.recorded s hs hmade
      -- A slot of the topic itself would be the stale one, which is unregistered.
      have hne : s.topic ≠ t := fun ht => hstale ⟨ht, ht ▸ hrec⟩
      simpa only [PerTopic.put_other _ _ hne] using hrec
    · rw [List.mem_singleton.mp hs]
      exact PerTopic.put_same _ _ _
  · by_cases ht : u = t
    · subst ht
      obtain rfl : new = id := by simpa using hid
      refine ⟨Makers.credit_new (Nat.le_of_eq hnew.symm) (by simp [hnew]), fun s hs hsid => ?_⟩
      rcases List.mem_append.mp (mem_slots_unregister.mp hs).1 with hs | hs
      · exact absurd hsid (hold hs)
      · rw [List.mem_singleton.mp hs]
    · simp only [PerTopic.put_other _ _ ht] at hid
      obtain ⟨hmade, htopic⟩ := hr.own u id hid
      have hlt := hu.lt hmade
      refine ⟨(Makers.credit_old hlt).trans hmade, fun s hs hsid => ?_⟩
      rcases List.mem_append.mp (mem_slots_unregister.mp hs).1 with hs | hs
      · exact htopic s hs hsid
      · rw [List.mem_singleton.mp hs] at hsid
        exact absurd (hnew.symm.trans hsid) (Nat.ne_of_gt hlt)
  · by_cases ht : u = t
    · subst ht
      simpa using hid
    · simp only [PerTopic.put_other _ _ ht] at hid ⊢
      exact hr.listens u id hid
  · exact absurd (hopen.symm.trans hc) (by simp)

theorem Records.unsubscribes (hr : Records made h k c) (hu : Unmade made h) (hv : h.Valid)
    (t : Topic) : Records (made.credit (some k) h (c.unsubscribe h t).2) (c.unsubscribe h t).2 k
      (c.unsubscribe h t).1 := by
  have hthin : ∀ s ∈ (c.unsubscribe h t).2.slots,
      s ∈ h.slots ∧ ¬(s.topic = t ∧ c.ids t = some s.id) := by
    intro s hs
    simpa [unsubscribe] using hs
  have hkept := hr.thinned hu hv fun s hs => (hthin s hs).1
  refine ⟨fun s hs hmade => ?_, fun u id hid => ?_, fun u id hid => ?_, fun hc u => ?_⟩
  · have hrec := hkept.recorded s hs hmade
    have hne : s.topic ≠ t := fun ht => (hthin s hs).2 ⟨ht, ht ▸ hrec⟩
    simpa only [unsubscribe, PerTopic.put_other _ _ hne] using hrec
  · by_cases ht : u = t
    · simp [unsubscribe, ht] at hid
    · simp only [unsubscribe, PerTopic.put_other _ _ ht] at hid
      exact hkept.own u id hid
  · by_cases ht : u = t
    · simp [unsubscribe, ht] at hid
    · simp only [unsubscribe, PerTopic.put_other _ _ ht] at hid ⊢
      exact hkept.listens u id hid
  · by_cases ht : u = t
    · simp [unsubscribe, ht]
    · simp only [unsubscribe, PerTopic.put_other _ _ ht]
      exact hkept.released hc u

theorem Records.releases (hr : Records made h k c) (hu : Unmade made h) (hv : h.Valid) :
    Records (made.credit (some k) h (c.release h).2) (c.release h).2 k (c.release h).1 := by
  have hthin : ∀ s ∈ (c.release h).2.slots, s ∈ h.slots ∧ c.ids s.topic ≠ some s.id := by
    intro s hs
    simpa [slots_release] using hs
  have hkept := hr.thinned hu hv fun s hs => (hthin s hs).1
  refine ⟨fun s hs hmade => absurd (hkept.recorded s hs hmade) (hthin s hs).2, fun t id hid => ?_,
    fun t id hid => ?_, fun _ _ => rfl⟩
  · simp [release, PerTopic.none] at hid
  · simp [release, PerTopic.none] at hid

/-- Whatever a stream does, its `ids` keep to what it has made. -/
theorem Records.step {p : Connection × Hub} (hr : Records made h k c) (hu : Unmade made h)
    (hv : h.Valid) (hp : c.Step h p) : Records (made.credit (some k) h p.2) p.2 k p.1 := by
  cases hp with
  | idle | sends _ | collects =>
    rw [Makers.credit_self]
    exact hr.kept rfl (fun _ _ hs => hs) rfl
  | subscribes hopen _ hok => exact hr.subscribes hu hv hopen hok
  | unsubscribes t => exact hr.unsubscribes hu hv t
  | releases => exact hr.releases hu hv
  | forwards _ _ =>
    exact (hr.thinned hu hv (by simp)).kept rfl (fun _ _ hs => hs) rfl
  | @lets t id hs _ =>
    have hkept : Records (made.credit (some k) h (h.drop id)) (h.drop id) k c :=
      hr.thinned hu hv fun _ hs => hs
    refine hkept.kept rfl (fun u j hj => ?_) rfl
    by_cases ht : u = t
    · simp [ht] at hj
    · simpa only [PerTopic.put_other _ _ ht] using hj

/-- The slots of a stream on one topic are at most one. -/
theorem Records.single (hr : Records made h k c) (hv : h.Valid) (t : Topic) :
    ((h.slotsOf t).filter fun s => made s.id = some k).length ≤ 1 := by
  have hsub : ((h.slotsOf t).filter fun s => made s.id = some k).Sublist h.slots :=
    List.filter_sublist.trans List.filter_sublist
  have hnd := hv.nodup.sublist (hsub.map Slot.id)
  have hsame : ∀ s ∈ (h.slotsOf t).filter fun s => made s.id = some k, c.ids t = some s.id := by
    intro s hs
    simp only [Hub.slotsOf, List.mem_filter, decide_eq_true_eq] at hs
    obtain ⟨⟨hs, ht⟩, hmade⟩ := hs
    exact ht ▸ hr.recorded s hs hmade
  cases hl : (h.slotsOf t).filter fun s => made s.id = some k with
  | nil => simp
  | cons x l =>
    rw [hl] at hnd hsame
    have hx := hsame x List.mem_cons_self
    have hnil : l = [] := by
      refine List.eq_nil_iff_forall_not_mem.mpr fun y hy => ?_
      have hy' := hsame y (List.mem_cons_of_mem _ hy)
      have heq : x.id = y.id := Option.some.inj (hx.symm.trans hy')
      exact (List.nodup_cons.mp hnd).1 (heq ▸ List.mem_map_of_mem hy)
    simp [hnil]

end Connection

/-- An act of the service and its streams, or whatever else is done with the hub. -/
inductive Move
  | act (a : Act)
  | hub (op : HubOp)

def Move.stream? : Move → Option Nat
  | .act a => a.stream?
  | .hub _ => none

namespace Gateway

def move (verify : Verifier) (g : Gateway) : Move → Gateway
  | .act a => g.act verify a
  | .hub op => ⟨{ g.service with hub := (g.service.hub.perform op).2 }, g.connections⟩

theorem change_move (verify : Verifier) (g : Gateway) (m : Move) :
    g.Change m.stream? (g.move verify m) := by
  cases m with
  | act a => exact change_act verify g a
  | hub op => exact .service rfl (g.service.hub.leads_perform op)

end Gateway

/-- The service with its streams, and who made each subscription of its hub. -/
structure Census where
  gateway : Gateway
  made : Makers

namespace Census

def hub (w : Census) : Hub := w.gateway.service.hub

def step (verify : Verifier) (w : Census) (m : Move) : Census :=
  let g := w.gateway.move verify m
  ⟨g, w.made.credit m.stream? w.hub g.service.hub⟩

def ofRun (verify : Verifier) (g : Gateway) (moves : List Move) : Census :=
  moves.foldl (step verify) ⟨g, fun _ => none⟩

structure Sound (w : Census) : Prop where
  valid : w.hub.Valid
  unmade : Connection.Unmade w.made w.hub
  opened : ∀ id k, w.made id = some k → k < w.gateway.connections.length
  records : ∀ k c, w.gateway.connections[k]? = some c → Connection.Records w.made w.hub k c

variable {verify : Verifier} {w : Census} {g : Gateway} {who : Option Nat}

theorem sound_start (runtime : Runtime) (r : Registry) (positions : Positions) (capacity : Nat) :
    Sound ⟨Gateway.start (Service.start runtime r positions capacity), fun _ => none⟩ where
  valid := Hub.valid_new capacity
  unmade _ _ := rfl
  opened _ _ hid := by simp at hid
  records k c hc := by simp [Gateway.start] at hc

/-- Whoever acts, or whatever is done with the hub, the census stays sound. -/
theorem Sound.change (hs : w.Sound) (hg : w.gateway.Change who g) :
    Sound ⟨g, w.made.credit who w.hub g.service.hub⟩ := by
  have hgrows := Hub.Grows.leads hg.leads
  have hvalid : g.service.hub.Valid := hs.valid.leads hg.leads
  have hunmade : Connection.Unmade (w.made.credit who w.hub g.service.hub) g.service.hub := by
    intro id hid
    have hnone := hs.unmade id (Nat.le_trans hgrows.mailboxes hid)
    exact (if_neg fun hnew => Nat.not_le_of_lt hnew.2 hid).trans hnone
  have hlater : ∀ (n : Nat), w.gateway.connections.length ≤ n → who ≠ some n →
      ∀ id, w.made.credit who w.hub g.service.hub id ≠ some n := by
    intro n hn hwho id hid
    unfold Makers.credit at hid
    split at hid
    · exact hwho hid
    · exact Nat.not_le_of_lt (hs.opened id n hid) hn
  cases hg with
  | idle who =>
    refine ⟨hvalid, hunmade, ?_, ?_⟩
    · simpa only [hub, Makers.credit_self] using hs.opened
    · simpa only [hub, Makers.credit_self] using hs.records
  | @service s _ _ =>
    refine ⟨hvalid, hunmade, fun id k hid => ?_, fun k c hc => ?_⟩
    · exact Nat.lt_of_not_le fun hk => hlater k hk (by simp) id hid
    · exact (hs.records k c hc).elsewhere hs.unmade hvalid hgrows fun _ _ _ => by simp
  | opens identity =>
    simp only [hub, Makers.credit_self] at hlater ⊢
    refine ⟨hvalid, hs.unmade, fun id k hid => ?_, fun k c hc => ?_⟩
    · simpa using Nat.lt_succ_of_lt (hs.opened id k hid)
    · rcases Nat.lt_trichotomy k w.gateway.connections.length with hlt | rfl | hgt
      · rw [List.getElem?_append_left hlt] at hc
        exact hs.records k c hc
      · obtain rfl : Connection.new identity = c := by simpa using hc
        exact Connection.records_new (hlater _ (Nat.le_refl _) (by simp)) identity
      · rw [List.getElem?_eq_none (by simpa using Nat.succ_le_of_lt hgt)] at hc
        simp at hc
  | @stream n c p hc hp =>
    have hlt := (List.getElem?_eq_some_iff.mp hc).1
    refine ⟨hvalid, hunmade, fun id k hid => ?_, fun k d hd => ?_⟩
    · simp only [List.length_set]
      refine Nat.lt_of_not_le fun hk => hlater k hk ?_ id hid
      rintro ⟨⟩
      exact Nat.not_le_of_lt hlt hk
    · by_cases hk : k = n
      · subst hk
        obtain rfl : p.1 = d := by simpa [List.getElem?_set_self hlt] using hd
        exact (hs.records k c hc).step hs.unmade hs.valid hp
      · rw [List.getElem?_set_ne (Ne.symm hk)] at hd
        refine (hs.records k d hd).elsewhere hs.unmade hvalid hgrows fun _ _ _ => ?_
        simpa using Ne.symm hk

theorem Sound.step (hs : w.Sound) (verify : Verifier) (m : Move) : (w.step verify m).Sound :=
  hs.change (w.gateway.change_move verify m)

theorem sound_ofRun (verify : Verifier) (runtime : Runtime) (r : Registry) (positions : Positions)
    (capacity : Nat) (moves : List Move) :
    (ofRun verify (Gateway.start (Service.start runtime r positions capacity)) moves).Sound := by
  suffices ∀ w : Census, w.Sound → (moves.foldl (Census.step verify) w).Sound from
    this _ (sound_start runtime r positions capacity)
  induction moves with
  | nil => exact fun _ hs => hs
  | cons m moves ih => exact fun w hs => ih _ (hs.step verify m)

/-- A subscription that a stream no longer names has no slot left. -/
theorem Sound.forgotten (hs : w.Sound) (m : Move) {k : Nat} {c c' : Connection} {t : Topic}
    {old : SubscriptionId} (hc : w.gateway.connections[k]? = some c)
    (hc' : (w.step verify m).gateway.connections[k]? = some c') (hold : c.ids t = some old)
    (hnew : c'.ids t ≠ some old) : ∀ s ∈ (w.step verify m).hub.slots, s.id ≠ old := by
  intro s hmem hsid
  obtain ⟨hmade, htopic⟩ := (hs.records k c hc).own t old hold
  have hlt := hs.unmade.lt hmade
  have hgrows := Hub.Grows.leads (w.gateway.change_move verify m).leads
  have hbefore : s ∈ w.hub.slots :=
    (hgrows.slots s hmem).resolve_right (Nat.not_le_of_lt (hsid ▸ hlt))
  have hmade' : (w.step verify m).made s.id = some k :=
    hsid ▸ (Makers.credit_old hlt).trans hmade
  have hrec := ((hs.step verify m).records k c' hc').recorded s hmem hmade'
  rw [htopic s hbefore hsid, hsid] at hrec
  exact hnew hrec

/-- The end of a stream removes the slots that it made, and no other. -/
theorem Sound.closes (hs : w.Sound) (hg : w.gateway.Change who g) {k : Nat} {c c' : Connection}
    (hc : w.gateway.connections[k]? = some c) (hc' : g.connections[k]? = some c')
    (hopen : c.isOpen = true) (hclosed : c'.isOpen = false) :
    g.service.hub.slots = w.hub.slots.filter fun s => w.made s.id ≠ some k := by
  have hchanged : c ≠ c' := fun heq => by simp [heq, hclosed] at hopen
  cases hg with
  | idle who => exact absurd (Option.some.inj (hc.symm.trans hc')) hchanged
  | service _ _ => exact absurd (Option.some.inj (hc.symm.trans hc')) hchanged
  | opens identity =>
    rw [List.getElem?_append_left (List.getElem?_eq_some_iff.mp hc).1] at hc'
    exact absurd (Option.some.inj (hc.symm.trans hc')) hchanged
  | @stream n d p hd hp =>
    by_cases hk : k = n
    · subst hk
      have hlt := (List.getElem?_eq_some_iff.mp hc).1
      obtain rfl : c = d := Option.some.inj (hc.symm.trans hd)
      obtain rfl : p.1 = c' := by simpa [List.getElem?_set_self hlt] using hc'
      rcases hp.isOpen with rfl | hsame
      · have hr := hs.records k c hc
        refine (c.slots_release w.hub).trans (List.filter_congr fun s hmem => ?_)
        have hiff : c.ids s.topic = some s.id ↔ w.made s.id = some k :=
          ⟨fun hid => (hr.own s.topic s.id hid).1, hr.recorded s hmem⟩
        simp [hiff]
      · exact absurd (hopen.symm.trans (hsame.symm.trans hclosed)) (by simp)
    · rw [List.getElem?_set_ne (Ne.symm hk)] at hc'
      exact absurd (Option.some.inj (hc.symm.trans hc')) hchanged

/-- In every run each stream has in `ids`, under its topic, every subscription of its own that is
still registered, so at most one to a topic, and listens to no other. A subscription that it no
longer names, such as a stale one that was replaced, has no slot left; and when it ends, its own
slots are removed and those of everyone else stay. -/
theorem slots_recorded (verify : Verifier) (runtime : Runtime) (r : Registry) (positions : Positions)
    (capacity : Nat) (moves : List Move) :
    let w := ofRun verify (Gateway.start (Service.start runtime r positions capacity)) moves
    (∀ k c, w.gateway.connections[k]? = some c →
      (∀ s ∈ w.hub.slots, w.made s.id = some k → c.ids s.topic = some s.id) ∧
      (∀ t, ((w.hub.slotsOf t).filter fun s => w.made s.id = some k).length ≤ 1) ∧
      (∀ t id, c.ids t = some id → w.made id = some k) ∧
      (∀ t id, c.streams t = some id → c.ids t = some id) ∧
      (c.isOpen = false → ∀ s ∈ w.hub.slots, w.made s.id ≠ some k)) ∧
    ∀ m k c c', w.gateway.connections[k]? = some c →
      (w.step verify m).gateway.connections[k]? = some c' →
      (∀ t old, c.ids t = some old → c'.ids t ≠ some old →
        ∀ s ∈ (w.step verify m).hub.slots, s.id ≠ old) ∧
      (m = .act (.disconnect k) → c'.isOpen = false) ∧
      (c.isOpen = true → c'.isOpen = false →
        (w.step verify m).hub.slots = w.hub.slots.filter fun s => w.made s.id ≠ some k) := by
  intro w
  have hs : w.Sound := sound_ofRun verify runtime r positions capacity moves
  refine ⟨fun k c hc => ?_, fun m k c c' hc hc' =>
    ⟨fun t old hold hnew => ?_, ?_, fun hopen hclosed => ?_⟩⟩
  · have hr := hs.records k c hc
    refine ⟨hr.recorded, hr.single hs.valid, fun t id hid => (hr.own t id hid).1, hr.listens,
      fun hclosed s hmem hmade => ?_⟩
    have hrec := hr.recorded s hmem hmade
    simp [hr.released hclosed] at hrec
  · exact hs.forgotten m hc hc' hold hnew
  · rintro rfl
    have hlt := (List.getElem?_eq_some_iff.mp hc).1
    have hend : (c.release w.hub).1 = c' := by
      simpa [step, hub, Gateway.move, Gateway.act, Gateway.withConnection_some hc,
        List.getElem?_set_self hlt] using hc'
    rw [← hend]
    rfl
  · exact hs.closes (w.gateway.change_move verify m) hc hc' hopen hclosed

/-- Two streams listen to one topic. The hub loses the slot of the first one, which finds its
subscription ended and subscribes again. -/
def replacing : List Move :=
  let subscribe : Incoming :=
    .text "\x7b\"id\":\"cb_client_topic_subscribe\",\"topicId\":\"cb_session\"\x7d"
  [.act (.connect "F1" "sessionId=S1"), .act (.receive 0 subscribe), .act (.connect "F2" ""),
    .act (.receive 1 subscribe), .hub (.unsubscribe .session 0), .act (.poll 0 .session),
    .act (.receive 0 subscribe)]

def replaced : Census :=
  ofRun (fun _ _ => true) (Gateway.start (Service.start ⟨.v4 127 0 0 1 8080, ""⟩ .all .silent 4))
    replacing

theorem slots_recorded_replaced :
    replaced.hub.slots.map Slot.id = [1, 2] ∧ replaced.made 1 = some 1 ∧ replaced.made 2 = some 0 ∧
    (∃ c, replaced.gateway.connections[0]? = some c ∧ c.ids .session = some 2) ∧
    (replaced.step (fun _ _ => true) (.act (.disconnect 0))).hub.slots.map Slot.id = [1] := by
  have hids : replaced.gateway.connections[0]?.map (fun c => (c.isOpen, c.ids .session)) =
      some (true, some 2) := by decide +kernel
  have hslots : replaced.hub.slots.map Slot.id = [1, 2] := by decide +kernel
  have hmade : replaced.made 1 = some 1 ∧ replaced.made 2 = some 0 := by decide +kernel
  obtain ⟨c, hc, hstate⟩ := Option.map_eq_some_iff.mp hids
  obtain ⟨hopen, hid⟩ := Prod.mk.inj hstate
  obtain ⟨c', hc'⟩ : ∃ c', (replaced.step (fun _ _ => true)
      (.act (.disconnect 0))).gateway.connections[0]? = some c' :=
    Option.isSome_iff_exists.mp (by decide +kernel)
  have hends := (slots_recorded (fun _ _ => true) ⟨.v4 127 0 0 1 8080, ""⟩ .all .silent 4 replacing).2
    (.act (.disconnect 0)) 0 c c' hc hc'
  have hleft := hends.2.2 hopen (hends.2.1 rfl)
  refine ⟨hslots, hmade.1, hmade.2, ⟨c, hc, hid⟩, (congrArg (List.map Slot.id) hleft).trans ?_⟩
  decide +kernel

end Census

end EventGateway
