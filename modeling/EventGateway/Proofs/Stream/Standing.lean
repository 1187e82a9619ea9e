import EventGateway.Proofs.Hub.Closing
import EventGateway.Proofs.Stream.Census

/-! While nobody else gives up the subscriptions of a stream, each that it listens to stays
registered and held until the hub closes. No step of another stream reaches it, and none of its own
for another topic. -/

namespace EventGateway

/-- The subscription that the call unregisters or lets go of. -/
def HubOp.givesUp? : HubOp → Option SubscriptionId
  | .unsubscribe _ id => some id
  | .drop id => some id
  | _ => none

namespace Hub

variable {h h₁ : Hub} {s : Slot} {t : Topic}

/-- Unless the hub is closed, the slot is registered and its subscription held. -/
def Stands (h : Hub) (s : Slot) : Prop := h.closed = false → s ∈ h.slots ∧ h.held s.id = true

theorem Stands.perform (hs : h.Stands s) (hv : h.Valid) (op : HubOp)
    (hop : op.givesUp? ≠ some s.id) : (h.perform op).2.Stands s := by
  intro hopen
  obtain ⟨hbefore, hcloses⟩ : h.closed = false ∧ op.closes = false := by simpa using hopen
  obtain ⟨hmem, hheld⟩ := hs hbefore
  have hmade := hv.slot_lt hmem
  have hends : op.ends s = false := by
    cases op with
    | unsubscribe t id =>
      have hid : id ≠ s.id := fun heq => hop (congrArg some heq)
      simp [HubOp.ends, hid.symm]
    | close => simp [HubOp.closes] at hcloses
    | subscribe | publish | receive | drop => rfl
  have hdrops : op.drops s.id = false := by
    cases op with
    | drop id =>
      have hid : id ≠ s.id := fun heq => hop (congrArg some heq)
      simp [HubOp.drops, hid]
    | subscribe | publish | receive | unsubscribe | close => rfl
  exact ⟨(mem_slots_perform hv hmade op).mpr ⟨hmem, hends, .inl hheld⟩,
    by simp [held_perform hv hmade, hheld, hdrops]⟩

theorem Stands.subscribe (hs : h.Stands s) (hv : h.Valid) {who : Filter} {id : SubscriptionId}
    (hok : h.subscribe t who = (.ok id, h₁)) : h₁.Stands s := by
  have hafter := hs.perform hv (.subscribe t who) nofun
  rwa [Hub.perform, hok] at hafter

theorem Stands.receive (hs : h.Stands s) (hv : h.Valid) (id : SubscriptionId) :
    (h.receive id).2.Stands s :=
  hs.perform hv (.receive id) nofun

theorem Stands.spread (hs : h.Stands s) (hv : h.Valid) (r : Registry) (e : Event) :
    (r.spread e h).Stands s := by
  cases hr : r.contains e.topic with
  | false => rwa [spread_refused hr]
  | true =>
    rw [spread_served hr]
    exact hs.perform hv (.publish e.topic (Filter.ofEvent e) e) nofun

theorem stands_subscribed {who : Filter} {id : SubscriptionId}
    (hok : h.subscribe t who = (.ok id, h₁)) : h₁.Stands ⟨id, t, who⟩ :=
  fun _ => subscribe_lists hok

end Hub

namespace Connection

variable {h : Hub} {s : Slot} {t : Topic} {id : Option SubscriptionId} {c : Connection}

theorem stands_unregister (hs : h.Stands s) (hid : ¬(s.topic = t ∧ id = some s.id)) :
    (unregister h t id).Stands s := by
  cases id with
  | none => exact hs
  | some j =>
    intro hopen
    obtain ⟨hmem, hheld⟩ := hs hopen
    exact ⟨mem_slots_unregister.mpr ⟨hmem, hid⟩, hheld⟩

theorem stands_letGo (hs : h.Stands s) (hid : id ≠ some s.id) : (letGo h id).Stands s := by
  cases id with
  | none => exact hs
  | some j =>
    intro hopen
    obtain ⟨hmem, hheld⟩ := hs hopen
    have hj : j ≠ s.id := fun heq => hid (congrArg some heq)
    exact ⟨hmem, by simp [letGo, hheld, hj]⟩

theorem stands_foldl {f : Hub → Topic → Hub} (hf : ∀ {h} t, Hub.Stands h s → (f h t).Stands s)
    (hs : h.Stands s) (ts : List Topic) : (ts.foldl f h).Stands s := by
  induction ts generalizing h with
  | nil => exact hs
  | cons t ts ih => exact ih (hf t hs)

/-- What a stream does with the hub leaves the slots alone that it does not name. -/
theorem Step.stands {p : Connection × Hub} (hp : c.Step h p) (hv : h.Valid) (hs : h.Stands s)
    (hids : ∀ t, c.ids t ≠ some s.id) (hstreams : ∀ t, c.streams t ≠ some s.id) :
    p.2.Stands s := by
  have hunnamed (t : Topic) : ¬(s.topic = t ∧ c.ids t = some s.id) := fun hid => hids t hid.2
  cases hp with
  | idle | sends _ | collects => exact hs
  | subscribes _ _ hok => exact stands_unregister (hs.subscribe hv hok) (hunnamed _)
  | unsubscribes t => exact stands_unregister (stands_letGo hs (hstreams t)) (hunnamed t)
  | releases =>
    have hunregistered := stands_foldl (fun t hs => stands_unregister hs (hunnamed t)) hs Topic.all
    exact stands_foldl (fun t hs => stands_letGo hs (hstreams t)) hunregistered Topic.all
  | @forwards t id e _ _ => exact hs.receive hv id
  | @lets t id hid _ =>
    refine hs.perform hv (.drop id) fun heq => ?_
    exact hstreams t (hid.trans heq)

/-- Every topic that the stream listens to has a slot with its identity. -/
def Seated (c : Connection) (h : Hub) : Prop :=
  ∀ t id, c.streams t = some id → h.Stands ⟨id, t, c.identity⟩

variable {made : Makers} {k : Nat}

/-- The slot of a topic that a stream listens to is named by it for this topic alone. -/
theorem Seated.named (hc : c.Seated h) (hr : Records made h k c) (hopen : h.closed = false)
    {u : Topic} {j : SubscriptionId} (hj : c.streams u = some j) (ht : c.ids t = some j) : u = t :=
  (hr.own t j ht).2 _ (hc u j hj hopen).1 rfl

theorem Seated.subscribes (hc : c.Seated h) (hr : Records made h k c) (hu : Unmade made h)
    (hv : h.Valid) {new : SubscriptionId} {h₁ : Hub}
    (hok : h.subscribe t c.identity = (.ok new, h₁)) :
    Seated { c with streams := c.streams.put t (some new), ids := c.ids.put t (some new) }
      (unregister h₁ t (c.ids t)) := by
  intro u j hj
  by_cases ht : u = t
  · subst ht
    obtain rfl : new = j := by simpa using hj
    refine stands_unregister (Hub.stands_subscribed hok) fun hstale => ?_
    have hlt := hu.lt (hr.own u new hstale.2).1
    exact Nat.ne_of_lt hlt (Hub.subscribe_ok hok).1
  · simp only [PerTopic.put_other _ _ ht] at hj
    exact stands_unregister ((hc u j hj).subscribe hv hok) fun hstale => ht hstale.1

/-- What it listens to for one topic is let go of without the others. -/
theorem Seated.letGo (hc : c.Seated h) (hr : Records made h k c) {u : Topic} {j : SubscriptionId}
    (ht : u ≠ t) (hj : c.streams u = some j) :
    (Connection.letGo h (c.streams t)).Stands ⟨j, u, c.identity⟩ := by
  intro hopen
  have hbefore : h.closed = false := by
    cases hid : c.streams t <;> simpa [Connection.letGo, Hub.drop, hid] using hopen
  have hother : c.streams t ≠ some j := fun hid =>
    ht (hc.named hr hbefore hj (hr.listens t j hid))
  exact stands_letGo (hc u j hj) hother hopen

theorem Seated.unsubscribes (hc : c.Seated h) (hr : Records made h k c) (t : Topic) :
    Seated (c.unsubscribe h t).1 (c.unsubscribe h t).2 := by
  intro u j hj
  by_cases ht : u = t
  · simp [unsubscribe, ht] at hj
  · simp only [unsubscribe, PerTopic.put_other _ _ ht] at hj
    exact stands_unregister (hc.letGo hr ht hj) fun hstale => ht hstale.1

theorem Seated.lets (hc : c.Seated h) (hr : Records made h k c) {id : SubscriptionId}
    (hid : c.streams t = some id) :
    Seated { c with streams := c.streams.put t none } (h.drop id) := by
  intro u j hj
  by_cases ht : u = t
  · simp [ht] at hj
  · simp only [PerTopic.put_other _ _ ht] at hj
    have hstands := hc.letGo hr ht hj
    rwa [hid] at hstands

/-- A stream keeps the slots of the topics that it listens to. -/
theorem Seated.step {p : Connection × Hub} (hc : c.Seated h) (hr : Records made h k c)
    (hu : Unmade made h) (hv : h.Valid) (hp : c.Step h p) : p.1.Seated p.2 := by
  cases hp with
  | idle | sends _ | collects => exact hc
  | subscribes _ _ hok => exact hc.subscribes hr hu hv hok
  | unsubscribes t => exact hc.unsubscribes hr t
  | releases =>
    intro t id hid
    simp [release, PerTopic.none] at hid
  | @forwards t id e _ _ => exact fun u j hj => (hc u j hj).receive hv id
  | lets hid _ => exact hc.lets hr hid

/-- What another stream does leaves the slots of this one alone. -/
theorem Seated.elsewhere {d : Connection} {p : Connection × Hub} {n : Nat} (hd : d.Seated h)
    (hrd : Records made h n d) (hr : Records made h k c) (hv : h.Valid) (hp : c.Step h p)
    (hn : n ≠ k) : d.Seated p.2 := by
  intro t id hid
  have hmade : made id = some n := (hrd.own t id (hrd.listens t id hid)).1
  have hother (u : Topic) : c.ids u ≠ some id := fun hids =>
    hn (Option.some.inj (hmade.symm.trans (hr.own u id hids).1))
  exact hp.stands hv (hd t id hid) hother fun u hs => hother u (hr.listens u id hs)

end Connection

namespace Move

/-- Nothing that a stream made is given up from elsewhere. -/
def Spares (made : Makers) : Move → Prop
  | .act _ => True
  | .hub op => ∀ id, op.givesUp? = some id → made id = none

end Move

namespace Census

variable {verify : Verifier} {w : Census} {m : Move}

/-- The streams alone give up what they have made. -/
def Undisturbed (verify : Verifier) : Census → List Move → Prop
  | _, [] => True
  | w, m :: ms => m.Spares w.made ∧ Undisturbed verify (w.step verify m) ms

def Seated (w : Census) : Prop := ∀ c ∈ w.gateway.connections, c.Seated w.hub

theorem Seated.service (hs : w.Seated) (hsound : w.Sound) {g : Gateway}
    (hconnections : g.connections = w.gateway.connections)
    (hhub : ∀ s k, w.made s.id = some k → w.hub.Stands s → g.service.hub.Stands s)
    (made : Makers) : Seated ⟨g, made⟩ := by
  intro c hc t id hid
  have hc' : c ∈ w.gateway.connections := hconnections ▸ hc
  obtain ⟨k, hk⟩ := List.mem_iff_getElem?.mp hc'
  have hr := hsound.records k c hk
  exact hhub _ k (hr.own t id (hr.listens t id hid)).1 (hs c hc' t id hid)

theorem Seated.stream (hs : w.Seated) (hsound : w.Sound) {n : Nat} {g : Gateway}
    (hg : w.gateway.Change (some n) g) (made : Makers) : Seated ⟨g, made⟩ := by
  cases hg with
  | idle _ => exact hs
  | @stream _ c p hc hp =>
    intro d hd
    obtain ⟨k, hk⟩ := List.mem_iff_getElem?.mp hd
    have hr := hsound.records n c hc
    have hlt := (List.getElem?_eq_some_iff.mp hc).1
    by_cases hkn : k = n
    · subst hkn
      obtain rfl : p.1 = d := by simpa [List.getElem?_set_self hlt] using hk
      exact (hs c (List.mem_of_getElem? hc)).step hr hsound.unmade hsound.valid hp
    · rw [List.getElem?_set_ne (Ne.symm hkn)] at hk
      exact (hs d (List.mem_of_getElem? hk)).elsewhere (hsound.records k d hk) hr hsound.valid hp hkn

theorem Seated.act (hs : w.Seated) (hsound : w.Sound) (verify : Verifier) (a : Act) :
    (w.step verify (.act a)).Seated := by
  have hchange := Gateway.change_act verify w.gateway a
  have hafter (s : Service) (e : Option Event)
      (hact : w.gateway.act verify a = ⟨s, w.gateway.connections⟩)
      (hhub : s.hub = w.gateway.service.hubAfter e) : (w.step verify (.act a)).Seated := by
    refine hs.service hsound (g := w.gateway.act verify a) (by rw [hact])
      (fun slot _ _ hslot => ?_) _
    rw [hact, hhub]
    cases e with
    | none => exact hslot
    | some e => exact hslot.spread hsound.valid _ e
  cases a with
  | handle q => exact hafter _ _ rfl (Service.handle_publishes verify w.gateway.service q).1
  | reload runtime => exact hafter _ _ rfl (w.gateway.service.reload_publishes runtime).1
  | publish e => exact hafter _ (some e) rfl rfl
  | connect fresh query =>
    simp only [Census.step, Gateway.move, Gateway.act, Gateway.connect]
    cases Identity.ofQuery query with
    | error e => exact hs
    | ok f =>
      intro c hc t id hid
      rcases List.mem_append.mp hc with hc | hc
      · exact hs c hc t id hid
      · rw [List.mem_singleton.mp hc] at hid
        simp [Connection.new, PerTopic.none] at hid
  | receive n m => exact hs.stream hsound hchange _
  | poll n t => exact hs.stream hsound hchange _
  | disconnect n => exact hs.stream hsound hchange _
  | collect n => exact hs.stream hsound hchange _
  | close =>
    refine hs.service hsound (g := w.gateway.act verify .close) rfl (fun slot _ _ _ hopen => ?_) _
    cases (Hub.closed_close _).symm.trans hopen

theorem Seated.step (hs : w.Seated) (hsound : w.Sound) (verify : Verifier) (hm : m.Spares w.made) :
    (w.step verify m).Seated := by
  cases m with
  | act a => exact hs.act hsound verify a
  | hub op =>
    refine hs.service hsound (g := w.gateway.move verify (.hub op)) rfl
      (fun slot k hmade hslot => ?_) _
    refine hslot.perform hsound.valid op fun hop => ?_
    exact nomatch hmade.symm.trans (hm _ hop)

theorem seated_ofRun (verify : Verifier) (runtime : Runtime) (r : Registry) (positions : Positions)
    (capacity : Nat) {moves : List Move}
    (hmoves : Undisturbed verify
      ⟨Gateway.start (Service.start runtime r positions capacity), fun _ => none⟩ moves) :
    (ofRun verify (Gateway.start (Service.start runtime r positions capacity)) moves).Seated := by
  suffices ∀ w : Census, w.Sound → w.Seated → Undisturbed verify w moves →
      (moves.foldl (Census.step verify) w).Seated from
    this _ (sound_start runtime r positions capacity) (fun c hc => nomatch hc) hmoves
  clear hmoves
  induction moves with
  | nil => exact fun _ _ hs _ => hs
  | cons m moves ih =>
    exact fun w hsound hs hmoves =>
      ih _ (hsound.step verify m) (hs.step hsound verify hmoves.1) hmoves.2

/-- A stream that listens to a topic of an open hub has one slot there, which carries its identity
and is held. -/
theorem Seated.only_slot (hs : w.Seated) (hsound : w.Sound) (hopen : w.hub.closed = false) {n : Nat}
    {c : Connection} (hc : w.gateway.connections[n]? = some c) {t : Topic} {id : SubscriptionId}
    (hid : c.streams t = some id) :
    ((w.hub.slotsOf t).filter fun s => w.made s.id = some n) = [⟨id, t, c.identity⟩] ∧
      w.hub.held id = true := by
  have hr := hsound.records n c hc
  obtain ⟨hmem, hheld⟩ := hs c (List.mem_of_getElem? hc) t id hid hopen
  have hmade : w.made id = some n := (hr.own t id (hr.listens t id hid)).1
  have hslot : (⟨id, t, c.identity⟩ : Slot) ∈
      (w.hub.slotsOf t).filter fun s => w.made s.id = some n :=
    List.mem_filter.mpr ⟨List.mem_filter.mpr ⟨hmem, by simp⟩, by simp [hmade]⟩
  have hsingle := hr.single hsound.valid t
  refine ⟨?_, hheld⟩
  obtain ⟨s, hs⟩ := List.length_eq_one_iff.mp
    (Nat.le_antisymm hsingle (List.length_pos_of_mem hslot))
  rw [hs] at hslot ⊢
  rw [List.mem_singleton.mp hslot]

end Census

end EventGateway
