import EventGateway.Proofs.Hub.Frame
import EventGateway.Proofs.Service.Announce
import EventGateway.Proofs.Stream.Marks

/-! What holds of a stream beside its history, and that each thing done with the stream or with the
hub keeps it: of every subscription the events sent and the ones still queued are, in order, those
that were queued in the period of its topic. -/

namespace EventGateway

/-- The stream that made a subscription, and the topic it is for. -/
abbrev Owners := SubscriptionId → Nat × Topic

def Owners.grant (own : Owners) (id : SubscriptionId) (n : Nat) (t : Topic) : Owners :=
  fun i => if i = id then (n, t) else own i

/-- The event is on a topic that is served, and for the listener. -/
def Reaches (r : Registry) (who : Filter) (e : Event) : Prop :=
  r.contains e.topic = true ∧ (Filter.ofEvent e).admits who = true

structure Listens (r : Registry) (own : Owners) (h : Hub) (n : Nat) (who : Filter) (M : List Mark)
    (t : Topic) (id : SubscriptionId) : Prop where
  owner : own id = (n, t)
  made : id < h.mailboxes.length
  slot : ∀ s ∈ h.slots, s.id = id → s.topic = t ∧ s.identity = who
  waiting : ∀ e ∈ h.queue id, e.topic = t ∧ Reaches r who e
  period : ∃ P, Mark.period t M = some P ∧ Mark.sentOn t P ++ h.queue id = Mark.queuedOn t P

structure Tracks (r : Registry) (own : Owners) (h : Hub) (n : Nat) (c : Connection)
    (M : List Mark) : Prop where
  identity : ∃ fresh f M', M = .opened fresh f :: M' ∧ c.identity = Identity.settle fresh f
  orderly : Mark.Orderly (Reaches r c.identity) M
  listens : ∀ t id, c.streams t = some id → Listens r own h n c.identity M t id

variable {r : Registry} {own own' : Owners} {h h' : Hub} {n k : Nat} {c c' : Connection}
  {M M' : List Mark} {who : Filter} {t u : Topic} {id : SubscriptionId} {m : Mark} {e : Event}

theorem Listens.spared (hl : Listens r own h n who M t id) (hs : h.Spares h' id)
    (hown : own' id = own id) : Listens r own' h' n who M t id where
  owner := hown.trans hl.owner
  made := Nat.lt_of_lt_of_le hl.made hs.length
  slot s hmem hid := hl.slot s (hs.slots s hmem hid) hid
  waiting e he := hl.waiting e (hs.queue ▸ he)
  period := by
    obtain ⟨P, hP, hq⟩ := hl.period
    exact ⟨P, hP, hs.queue.symm ▸ hq⟩

theorem Listens.mark (hl : Listens r own h n who M t id) (hends : m.ends t = false)
    (hsent : m.sentOn? t = none) (hqueued : m.queuedOn? t = none) :
    Listens r own h n who (M ++ [m]) t id := by
  refine { hl with period := ?_ }
  obtain ⟨P, hP, hq⟩ := hl.period
  exact ⟨P ++ [m], Mark.period_other hP hends, by simpa [hsent, hqueued] using hq⟩

theorem Listens.other (hl : Listens r own h n who M u id) (hu : u ≠ t) : own id ≠ (n, t) := by
  rw [hl.owner]
  simp [hu]

theorem Tracks.spared (ht : Tracks r own h n c M)
    (hs : ∀ t id, c.streams t = some id → h.Spares h' id)
    (hown : ∀ t id, c.streams t = some id → own' id = own id) : Tracks r own' h' n c M :=
  { ht with listens := fun t id hid => (ht.listens t id hid).spared (hs t id hid) (hown t id hid) }

theorem Tracks.of_streams (ht : Tracks r own h n c M) (hid : c'.identity = c.identity)
    (hst : ∀ t id, c'.streams t = some id → c.streams t = some id) : Tracks r own h n c' M where
  identity := by rw [hid]; exact ht.identity
  orderly := by rw [hid]; exact ht.orderly
  listens t id hs := by rw [hid]; exact ht.listens t id (hst t id hs)

theorem identity_append
    (hi : ∃ fresh f M', M = .opened fresh f :: M' ∧ who = Identity.settle fresh f) (L : List Mark) :
    ∃ fresh f M', M ++ L = .opened fresh f :: M' ∧ who = Identity.settle fresh f := by
  obtain ⟨fresh, f, M', rfl, hf⟩ := hi
  exact ⟨fresh, f, M' ++ L, rfl, hf⟩

theorem Tracks.mark (ht : Tracks r own h n c M) (hm : ∀ e, m ≠ .sent e)
    (hl : ∀ t id, c.streams t = some id → Listens r own h n c.identity (M ++ [m]) t id) :
    Tracks r own h n c (M ++ [m]) where
  identity := identity_append ht.identity [m]
  orderly := ht.orderly.snoc fun e he => absurd he (hm e)
  listens := hl

theorem tracks_new (r : Registry) (own : Owners) (h : Hub) (n : Nat) (fresh : String) (f : Filter) :
    Tracks r own h n (.new (Identity.settle fresh f)) [.opened fresh f] where
  identity := ⟨fresh, f, [], rfl, rfl⟩
  orderly := Mark.orderly_nil.snoc fun e he => by simp at he
  listens t id hid := by simp [Connection.new, PerTopic.none] at hid

namespace Connection

/-- The events queued for the stream's own subscription. -/
def waiting (c : Connection) (h : Hub) (t : Topic) : List Event :=
  match c.streams t with
  | some id => h.queue id
  | none => []

theorem waiting_some (hid : c.streams t = some id) : c.waiting h t = h.queue id := by
  simp [waiting, hid]

end Connection

theorem Listens.addressed (hl : Listens r own h n who M t id) {f : Filter}
    (hd : h.delivers u f id = true) : u = t ∧ f.admits who = true := by
  simp only [Hub.delivers, Hub.takes, Hub.addressed, Bool.and_eq_true, List.any_eq_true,
    decide_eq_true_eq] at hd
  obtain ⟨_, s, hs, hid, ⟨⟨htopic, hadm⟩, _⟩, _⟩ := hd
  obtain ⟨ht, hwho⟩ := hl.slot s hs hid
  exact ⟨htopic.symm.trans ht, hwho ▸ hadm⟩

/-- Whether the queue of the stream's own subscription has grown between two states. -/
def Connection.grows (c : Connection) (h h' : Hub) (t : Topic) : Bool :=
  (c.waiting h t).length < (c.waiting h' t).length

theorem Connection.grows_publish (hid : c.streams t = some id) (hv : h.Valid) (f : Filter)
    (e : Event) : c.grows h (h.publish t f e).2 t = h.delivers t f id := by
  have hq := Hub.queue_publish hv.nodup t f e id
  rw [Connection.grows, Connection.waiting_some hid, Connection.waiting_some hid, hq]
  cases h.delivers t f id <;> simp

theorem Listens.publish (hl : Listens r own h n c.identity M t id) (hid : c.streams t = some id)
    (hv : h.Valid) (hr : r.contains e.topic = true) :
    Listens r own (h.publish e.topic (Filter.ofEvent e) e).2 n c.identity
      (M ++ [.published e (c.grows h (h.publish e.topic (Filter.ofEvent e) e).2 e.topic)]) t id := by
  have hq := Hub.queue_publish hv.nodup e.topic (Filter.ofEvent e) e id
  obtain ⟨P, hP, hbalance⟩ := hl.period
  refine ⟨hl.owner, ?_, fun s hs => hl.slot s (Hub.mem_slots_publish hs), fun x hx => ?_,
    _, Mark.period_other hP rfl, ?_⟩
  · rw [Hub.length_publish]
    exact hl.made
  · rw [hq] at hx
    rcases List.mem_append.mp hx with hx | hx
    · exact hl.waiting x hx
    · cases hd : h.delivers e.topic (Filter.ofEvent e) id with
      | false => simp [hd] at hx
      | true =>
        obtain rfl : x = e := by simpa [hd] using hx
        obtain ⟨htopic, hadm⟩ := hl.addressed hd
        exact ⟨htopic, hr, hadm⟩
  · rw [hq, Mark.sentOn_append, Mark.queuedOn_append, ← hbalance, Mark.queuedOn_singleton,
      Mark.queuedOn?_published]
    by_cases ht : e.topic = t
    · rw [Connection.grows_publish (ht ▸ hid) hv]
      cases h.delivers e.topic (Filter.ofEvent e) id <;> simp [Mark.sentOn?, ht]
    · have hd : h.delivers e.topic (Filter.ofEvent e) id = false := by
        cases hd : h.delivers e.topic (Filter.ofEvent e) id with
        | false => rfl
        | true => exact absurd (hl.addressed hd).1 ht
      simp [hd, ht, Mark.sentOn?]

theorem Tracks.spread (ht : Tracks r own h n c M) (hv : h.Valid) (e : Event) :
    Tracks r own (r.spread e h) n c (M ++ [.published e (c.grows h (r.spread e h) e.topic)]) := by
  cases hr : r.contains e.topic with
  | false =>
    rw [spread_refused hr]
    refine ht.mark (fun x hx => by simp at hx) fun t id hid => ?_
    refine (ht.listens t id hid).mark rfl rfl ?_
    simp [Mark.queuedOn?_published, Connection.grows]
  | true =>
    rw [spread_served hr]
    exact ⟨identity_append ht.identity _, ht.orderly.snoc fun x hx => by simp at hx,
      fun t id hid => (ht.listens t id hid).publish hid hv hr⟩

end EventGateway
