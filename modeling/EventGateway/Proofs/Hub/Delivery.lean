import EventGateway.Proofs.Hub.Run

/-! Delivery is exact. Beside a run of the hub every subscription has an account of what it was
asked to listen to, which events it is owed by that, and which ones were taken out. In every run
an account that is still held balances with the queue. -/

namespace EventGateway

/-- What a run says of one subscription. -/
structure Account where
  topic : Topic
  identity : Filter
  /-- Neither unsubscribed nor ended by the close of the hub. -/
  registered : Bool
  held : Bool
  taken : List Event
  owed : List Event
  deriving DecidableEq

namespace Account

def opened (t : Topic) (identity : Filter) : Account := ⟨t, identity, true, true, [], []⟩

/-- Whether a publish on an open or closed hub owes its event to a subscription with the given
queue, which has room for `limit` events. -/
def earns (a : Account) (limit : Nat) (closed : Bool) (queue : List Event) (t : Topic)
    (f : Filter) : Bool :=
  !closed && a.registered && a.topic = t && f.admits a.identity && queue.length < limit

/-- The account of the subscription `id` after a call that found the hub in state `h`. -/
def note (limit : Nat) (h : Hub) (id : SubscriptionId) (a : Account) : HubOp → HubResult → Account
  | .publish t f e, _ =>
    if a.earns limit h.closed (h.queue id) t f then { a with owed := a.owed ++ [e] } else a
  | .receive j, .received (.event e) => if j = id then { a with taken := a.taken ++ [e] } else a
  | .unsubscribe t j, _ => if a.topic = t ∧ j = id then { a with registered := false } else a
  | .drop j, _ => if j = id then { a with held := false } else a
  | .close, _ => { a with registered := false }
  | _, _ => a

/-- An account and the hub say the same of the subscription. -/
structure Agrees (h : Hub) (id : SubscriptionId) (a : Account) : Prop where
  held : h.held id = a.held
  slot : ∀ s ∈ h.slots, s.id = id → s.topic = a.topic ∧ s.identity = a.identity ∧ a.registered = true
  listed : a.held = true → a.registered = true → ⟨id, a.topic, a.identity⟩ ∈ h.slots
  balance : a.held = true → a.taken ++ h.queue id = a.owed

variable {h : Hub} {id : SubscriptionId} {a : Account}

theorem Agrees.registered (ha : a.Agrees h id) (hh : a.held = true) :
    h.registered id = a.registered := by
  cases hr : a.registered with
  | true => exact List.any_eq_true.mpr ⟨_, ha.listed hh hr, by simp⟩
  | false =>
    -- A slot that is left would say that the account is still registered.
    refine List.any_eq_false.mpr fun s hs hid => ?_
    have hreg := (ha.slot s hs (by simpa using hid)).2.2
    simp [hr] at hreg

theorem Agrees.delivers (ha : a.Agrees h id) (hh : a.held = true) (t : Topic) (f : Filter) :
    h.delivers t f id = a.earns h.capacity h.closed (h.queue id) t f := by
  rw [Bool.eq_iff_iff]
  constructor
  · intro hd
    simp only [Hub.delivers, Hub.takes, Hub.addressed, Hub.hasRoom, Bool.and_eq_true,
      List.any_eq_true, decide_eq_true_eq] at hd
    obtain ⟨hopen, s, hs, hid, ⟨⟨htopic, hadm⟩, _⟩, hroom⟩ := hd
    obtain ⟨ht, hi, hr⟩ := ha.slot s hs hid
    rw [hid] at hroom
    simp [earns, hopen, hr, ← ht, htopic, ← hi, hadm, hroom]
  · intro he
    simp only [earns, Bool.and_eq_true, decide_eq_true_eq] at he
    obtain ⟨⟨⟨⟨hopen, hr⟩, ht⟩, hadm⟩, hroom⟩ := he
    simp only [Hub.delivers, Hub.takes, Hub.addressed, Hub.hasRoom, Bool.and_eq_true,
      List.any_eq_true, decide_eq_true_eq]
    exact ⟨hopen, _, ha.listed hh hr, rfl, ⟨⟨ht, hadm⟩, ha.held.trans hh⟩, hroom⟩

theorem Agrees.publish (ha : a.Agrees h id) (hv : h.Valid) (t : Topic) (f : Filter) (e : Event) :
    (a.note h.capacity h id (.publish t f e) (.published (h.publish t f e).1)).Agrees
      (h.publish t f e).2 id := by
  have hq := Hub.queue_publish hv.nodup t f e id
  have hheld : (h.publish t f e).2.held id = a.held := by
    rw [Hub.held_publish hv.nodup, ha.held]
  have hslot : ∀ s ∈ (h.publish t f e).2.slots, s.id = id →
      s.topic = a.topic ∧ s.identity = a.identity ∧ a.registered = true :=
    fun s hs => ha.slot s (Hub.mem_slots_publish hs)
  have hlisted : a.held = true → a.registered = true →
      ⟨id, a.topic, a.identity⟩ ∈ (h.publish t f e).2.slots :=
    fun hh hr => Hub.mem_slots_publish_of_held (ha.listed hh hr) (ha.held.trans hh)
  simp only [note]
  split
  next he =>
    refine ⟨hheld, hslot, hlisted, fun hh => ?_⟩
    have hd := (ha.delivers hh t f).trans he
    rw [hq, hd, ← ha.balance hh]
    simp
  next he =>
    refine ⟨hheld, hslot, hlisted, fun hh => ?_⟩
    have hd := (ha.delivers hh t f).trans (by simpa using he)
    rw [hq, hd, ← ha.balance hh]
    simp

theorem Agrees.receive (ha : a.Agrees h id) (limit : Nat) (j : SubscriptionId) :
    (a.note limit h id (.receive j) (.received (h.receive j).1)).Agrees (h.receive j).2 id := by
  cases hr : (h.receive j).1 with
  | event e =>
    have hhead := Hub.receive_event_iff.mp hr
    simp only [note]
    split
    next hj =>
      subst hj
      obtain ⟨r, hq⟩ := List.head?_eq_some_iff.mp hhead
      refine ⟨by simpa using ha.held, by simpa using ha.slot, by simpa using ha.listed, fun hh => ?_⟩
      have hb := ha.balance hh
      rw [hq] at hb
      simp [Hub.queue_receive, hq, ← hb]
    next hj =>
      exact ⟨by simpa using ha.held, by simpa using ha.slot, by simpa using ha.listed,
        fun hh => by simpa [hj] using ha.balance hh⟩
  | pending | ended =>
    have hnil : h.queue j = [] := by
      cases hq : h.queue j with
      | nil => rfl
      | cons e r => simp [Hub.receive, hq] at hr
    refine ⟨by simpa [note] using ha.held, by simpa [note] using ha.slot,
      by simpa [note] using ha.listed, fun hh => ?_⟩
    have hb := ha.balance hh
    by_cases hj : j = id
    · subst hj
      simpa [note, hnil] using hb
    · simpa [note, hj] using hb

theorem Agrees.unsubscribe (ha : a.Agrees h id) (limit : Nat) (t : Topic) (j : SubscriptionId) :
    (a.note limit h id (.unsubscribe t j) (.unsubscribed (h.unsubscribe t j).1)).Agrees
      (h.unsubscribe t j).2 id := by
  simp only [note]
  split
  next hj =>
    refine ⟨ha.held, fun s hs hid => ?_, fun _ hr => by simp at hr, ha.balance⟩
    obtain ⟨hs, hne⟩ := Hub.mem_slots_unsubscribe.mp hs
    have hst := (ha.slot s hs hid).1
    exact absurd ⟨hst.trans hj.1, hid.trans hj.2.symm⟩ hne
  next hj =>
    refine ⟨ha.held, fun s hs => ha.slot s (Hub.mem_slots_unsubscribe.mp hs).1, fun hh hr => ?_,
      ha.balance⟩
    refine Hub.mem_slots_unsubscribe.mpr ⟨ha.listed hh hr, fun hm => hj ⟨hm.1, hm.2.symm⟩⟩

theorem Agrees.drop (ha : a.Agrees h id) (limit : Nat) (j : SubscriptionId) :
    (a.note limit h id (.drop j) .done).Agrees (h.drop j) id := by
  simp only [note]
  split
  next hj =>
    exact ⟨by simp [hj], ha.slot, fun hh => by simp at hh, fun hh => by simp at hh⟩
  next hj =>
    have hne : (j != id) = true := by simpa using hj
    exact ⟨by simpa [hne] using ha.held, ha.slot, ha.listed,
      fun hh => by simpa [hj] using ha.balance hh⟩

theorem Agrees.close (ha : a.Agrees h id) (hv : h.Valid) (limit : Nat) :
    (a.note limit h id .close .done).Agrees h.close id := by
  have hnil := hv.close.closed (by simp)
  exact ⟨by simpa [note] using ha.held, by simp [hnil], fun _ hr => by simp [note] at hr,
    fun hh => by simpa [note] using ha.balance hh⟩

theorem Agrees.subscribe (ha : a.Agrees h id) (hlt : id < h.mailboxes.length) (t : Topic)
    (identity : Filter) : a.Agrees (h.subscribe t identity).2 id := by
  rcases Hub.subscribe_cases h t identity with ⟨e, he⟩ | ⟨_, _, he⟩
  · rw [he]
    exact ha
  · have hq := Hub.queue_subscribe h t identity id
    rw [he] at hq ⊢
    refine ⟨?_, ?_, fun hh hr => List.mem_append_left _ (ha.listed hh hr), fun hh => ?_⟩
    · rw [← ha.held]
      simp [Hub.held, List.getElem?_append_left hlt]
    · intro s hs hid
      rcases List.mem_append.mp hs with hs | hs
      · exact ha.slot s hs hid
      · have hs' : s = ⟨h.mailboxes.length, t, identity⟩ := by simpa using hs
        subst hs'
        exact absurd hid (Nat.ne_of_gt hlt)
    · rw [hq]
      exact ha.balance hh

theorem agrees_opened {h₁ : Hub} {t : Topic} {identity : Filter} (hv : h.Valid)
    (hok : h.subscribe t identity = (.ok id, h₁)) : (opened t identity).Agrees h₁ id := by
  obtain ⟨_, _, hempty, hslot⟩ := hv.subscribe_fresh hok
  rcases Hub.subscribe_cases h t identity with ⟨e, he⟩ | ⟨_, _, he⟩
  · simp [he] at hok
  · rw [he] at hok
    obtain ⟨hid, rfl⟩ := Prod.mk.inj hok
    obtain rfl := Except.ok.inj hid
    refine ⟨by simp [Hub.held, opened], fun s hs hid => ?_, fun _ _ => by simp [opened], fun _ => ?_⟩
    · obtain ⟨ht, hi⟩ := hslot s hs hid
      exact ⟨ht, hi, rfl⟩
    · rw [hempty]
      rfl

end Account

/-- A hub, and the account of every subscription that it has made. -/
structure Books where
  hub : Hub
  account : SubscriptionId → Option Account

namespace Books

def opened? : HubOp → HubResult → Option (SubscriptionId × Account)
  | .subscribe t identity, .subscribed (.ok id) => some (id, .opened t identity)
  | _, _ => none

def step (limit : Nat) (w : Books) (op : HubOp) : Books :=
  let p := w.hub.perform op
  ⟨p.2, fun id =>
    match opened? op p.1 with
    | some (new, a) => if id = new then some a else w.account id
    | none => (w.account id).map fun a => a.note limit w.hub id op p.1⟩

def ofRun (b : Nat) (ops : List HubOp) : Books :=
  ops.foldl (step (max b 1)) ⟨Hub.new b, fun _ => none⟩

/-- There is an account for each subscription made, and it agrees with the hub. -/
structure Sound (limit : Nat) (w : Books) : Prop where
  valid : w.hub.Valid
  capacity : w.hub.capacity = limit
  unopened : ∀ id : SubscriptionId, w.hub.mailboxes.length ≤ id → w.account id = none
  opened : ∀ id : SubscriptionId, id < w.hub.mailboxes.length → ∃ a, w.account id = some a
  agrees : ∀ id a, w.account id = some a → a.Agrees w.hub id

theorem Sound.lt {limit : Nat} {w : Books} (hs : w.Sound limit) {id : SubscriptionId} {a : Account}
    (ha : w.account id = some a) : id < w.hub.mailboxes.length := by
  rcases Nat.lt_or_ge id w.hub.mailboxes.length with hlt | hge
  · exact hlt
  · simp [hs.unopened id hge] at ha

theorem sound_new (b : Nat) : Sound (max b 1) ⟨Hub.new b, fun _ => none⟩ :=
  ⟨Hub.valid_new b, rfl, fun _ _ => rfl, fun _ hid => absurd hid (Nat.not_lt_zero _),
    fun _ _ ha => by simp at ha⟩

theorem Sound.of_notes {limit : Nat} {w : Books} (hs : w.Sound limit) {op : HubOp}
    (hop : opened? op (w.hub.perform op).1 = none)
    (hlen : (w.hub.perform op).2.mailboxes.length = w.hub.mailboxes.length)
    (hnote : ∀ (id : SubscriptionId) (a : Account), a.Agrees w.hub id →
      (a.note limit w.hub id op (w.hub.perform op).1).Agrees (w.hub.perform op).2 id) :
    (w.step limit op).Sound limit := by
  refine ⟨hs.valid.perform op, (Hub.capacity_perform _ _).trans hs.capacity, ?_, ?_, ?_⟩
  · intro id hid
    have hnone := hs.unopened id (hlen ▸ hid)
    simp [step, hop, hnone]
  · intro id hid
    obtain ⟨a, ha⟩ := hs.opened id (hlen ▸ hid)
    simp only [step, hop, ha, Option.map_some]
    exact ⟨_, rfl⟩
  · intro id a ha
    simp only [step, hop, Option.map_eq_some_iff] at ha
    obtain ⟨a', ha', rfl⟩ := ha
    exact hnote id a' (hs.agrees id a' ha')

theorem Sound.subscribe {limit : Nat} {w : Books} (hs : w.Sound limit) (t : Topic)
    (identity : Filter) : (w.step limit (.subscribe t identity)).Sound limit := by
  rcases Hub.subscribe_cases w.hub t identity with ⟨e, he⟩ | ⟨_, _, he⟩
  · refine hs.of_notes (by simp [Hub.perform, he, opened?]) (by simp [Hub.perform, he]) ?_
    intro id a ha
    simpa [Hub.perform, he, Account.note] using ha
  · have hop : opened? (.subscribe t identity) (w.hub.perform (.subscribe t identity)).1 =
        some (w.hub.mailboxes.length, .opened t identity) := by
      simp [Hub.perform, he, opened?]
    refine ⟨hs.valid.perform _, (Hub.capacity_perform _ _).trans hs.capacity, ?_, ?_, ?_⟩
    · intro id hid
      have hlen : w.hub.mailboxes.length + 1 ≤ id := by
        simpa [step, Hub.perform, he] using hid
      have hne : id ≠ w.hub.mailboxes.length := Nat.ne_of_gt hlen
      simp only [step, hop, hne, if_false]
      exact hs.unopened id (Nat.le_of_succ_le hlen)
    · intro id hid
      have hlen : id < w.hub.mailboxes.length + 1 := by
        simpa [step, Hub.perform, he] using hid
      simp only [step, hop]
      by_cases hnew : id = w.hub.mailboxes.length
      · exact ⟨_, if_pos hnew⟩
      · have hlt : id < w.hub.mailboxes.length :=
          Nat.lt_of_le_of_ne (Nat.le_of_lt_succ hlen) hnew
        obtain ⟨a, ha⟩ := hs.opened id hlt
        exact ⟨a, (if_neg hnew).trans ha⟩
    · intro id a ha
      simp only [step, hop] at ha
      split at ha
      next hid =>
        obtain rfl : Account.opened t identity = a := by simpa using ha
        have hsub : w.hub.subscribe t identity = (.ok id, (w.hub.subscribe t identity).2) := by
          rw [he, hid]
        exact Account.agrees_opened hs.valid hsub
      next hid => exact (hs.agrees id a ha).subscribe (hs.lt ha) t identity

theorem Sound.step {limit : Nat} {w : Books} (hs : w.Sound limit) (op : HubOp) :
    (w.step limit op).Sound limit := by
  cases op with
  | subscribe t identity => exact hs.subscribe t identity
  | publish t f e =>
    refine hs.of_notes rfl ?_ fun id a ha => hs.capacity ▸ ha.publish hs.valid t f e
    exact Hub.length_publish w.hub t f e
  | receive j => exact hs.of_notes rfl (Hub.length_receive w.hub j) fun id a ha => ha.receive limit j
  | unsubscribe t j => exact hs.of_notes rfl rfl fun id a ha => ha.unsubscribe limit t j
  | drop j => exact hs.of_notes rfl (by simp [Hub.perform, Hub.drop]) fun id a ha => ha.drop limit j
  | close => exact hs.of_notes rfl (by simp [Hub.perform]) fun id a ha => ha.close hs.valid limit

theorem sound_ofRun (b : Nat) (ops : List HubOp) : (ofRun b ops).Sound (max b 1) := by
  suffices ∀ w : Books, w.Sound (max b 1) → (ops.foldl (step (max b 1)) w).Sound (max b 1) from
    this _ (sound_new b)
  induction ops with
  | nil => exact fun _ hs => hs
  | cons op ops ih => exact fun w hs => ih _ (hs.step op)

/-- Whatever was done with a hub, the events taken out of a subscription that is still held and
those in its queue are, in order, the ones owed to it: those of the publishes on its topic that
admit it, made on the open hub while it was registered and had room. -/
theorem delivery_exact (b : Nat) (hb : max b 1 ≤ Hub.greatestCapacity) (ops : List HubOp) :
    (∀ id, id < (ofRun b ops).hub.mailboxes.length → ∃ a, (ofRun b ops).account id = some a ∧
      (ofRun b ops).hub.held id = a.held) ∧
    (∀ id a, (ofRun b ops).account id = some a → a.held = true →
      a.taken ++ (ofRun b ops).hub.queue id = a.owed ∧
      (ofRun b ops).hub.registered id = a.registered) ∧
    (∀ id, ((ofRun b ops).hub.queue id).length ≤ max b 1) ∧
    ((ofRun b ops).hub.closed = false → ∀ t identity, ∃ id,
      ((ofRun b ops).hub.subscribe t identity).1 = .ok id ∧ (ofRun b ops).account id = none) := by
  have hs := sound_ofRun b ops
  refine ⟨fun id hid => ?_, fun id a ha hh => ?_, fun id => ?_, fun hopen t identity => ?_⟩
  · obtain ⟨a, ha⟩ := hs.opened id hid
    exact ⟨a, ha, (hs.agrees id a ha).held⟩
  · exact ⟨(hs.agrees id a ha).balance hh, (hs.agrees id a ha).registered hh⟩
  · exact hs.capacity ▸ hs.valid.bounded id
  · refine ⟨_, Hub.subscribe_of_open hopen (hs.capacity ▸ hb) t identity, ?_⟩
    exact hs.unopened _ (Nat.le_refl _)

/-- A listener with room for one event that takes the first, misses the third and the one after its
registration; the one in another's session is not owed to it. -/
def missingSome : List HubOp :=
  let only (session : String) : Filter := ⟨some session, none⟩
  [.subscribe .session (only "S1"), .publish .session {} (.new .sessionExpired), .receive 0,
    .publish .session (only "S2") (.scopedTo .sessionExpired (some "S2") none),
    .publish .session (only "S1") (.scopedTo .sessionExpired (some "S1") none),
    .publish .session {} (.new .sessionExpired), .unsubscribe .session 0,
    .publish .session {} (.new .sessionExpired)]

theorem delivery_exact_missingSome :
    max 0 1 ≤ Hub.greatestCapacity ∧
    (ofRun 0 missingSome).account 0 = some ⟨.session, ⟨some "S1", none⟩, false, true,
      [.new .sessionExpired], [.new .sessionExpired, .scopedTo .sessionExpired (some "S1") none]⟩ ∧
    (ofRun 0 missingSome).hub.queue 0 = [.scopedTo .sessionExpired (some "S1") none] := by
  have hb : max 0 1 ≤ Hub.greatestCapacity := by decide
  have ha : (ofRun 0 missingSome).account 0 = some ⟨.session, ⟨some "S1", none⟩, false, true,
      [.new .sessionExpired], [.new .sessionExpired, .scopedTo .sessionExpired (some "S1") none]⟩ := by
    decide
  have hbalance := ((delivery_exact 0 hb missingSome).2.1 0 _ ha rfl).1
  exact ⟨hb, ha, by simpa using hbalance⟩

end Books

end EventGateway
