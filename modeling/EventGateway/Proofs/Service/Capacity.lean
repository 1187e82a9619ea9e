import EventGateway.Proofs.Config.Loading
import EventGateway.Proofs.Stream.Changes

/-! The buffer that is loaded is the capacity of the hub for as long as the service runs, and it
decides whether an open hub takes any subscription or none. -/

namespace EventGateway

namespace Hub

variable {h : Hub}

theorem subscribe_registers (hopen : h.closed = false) (hcap : h.capacity ≤ greatestCapacity)
    (t : Topic) (identity : Filter) :
    h.subscribe t identity = (.ok h.mailboxes.length, { h with
      slots := h.slots ++ [⟨h.mailboxes.length, t, identity⟩]
      mailboxes := h.mailboxes ++ [⟨t, [], true⟩] }) := by
  have hok := subscribe_of_open hopen hcap t identity
  rcases subscribe_cases h t identity with ⟨e, he⟩ | ⟨_, _, he⟩
  · simp [he] at hok
  · exact he

theorem subscribe_too_large (hopen : h.closed = false) (hcap : greatestCapacity < h.capacity)
    (t : Topic) (identity : Filter) : h.subscribe t identity = (.error .capacity, h) := by
  simp [subscribe, hopen, hcap]

end Hub

namespace Connection

variable {h h' : Hub} {c c' : Connection}

/-- The subscriptions that a stream names are made, and it listens to those that are registered. -/
def Named (c : Connection) (h : Hub) : Prop :=
  ∀ t id, c.ids t = some id → id < h.mailboxes.length ∧
    (c.streams t = some id ∨ ∀ s ∈ h.slots, s.id ≠ id)

theorem Named.grows (hn : c.Named h) (hg : h.Grows h') : c.Named h' := by
  intro t id hid
  obtain ⟨hlt, hgone⟩ := hn t id hid
  refine ⟨Nat.lt_of_lt_of_le hlt hg.mailboxes, hgone.imp_right fun hgone s hs hsid => ?_⟩
  rcases hg.slots s hs with hs | hs
  · exact hgone s hs hsid
  · exact absurd (hsid ▸ hs) (Nat.not_le_of_lt hlt)

theorem unregister_unnamed (hn : c.Named h) {t : Topic} (hnone : c.streams t = none)
    (identity : Filter) (ms : List Mailbox) :
    unregister { h with slots := h.slots ++ [⟨h.mailboxes.length, t, identity⟩], mailboxes := ms }
      t (c.ids t) =
      { h with slots := h.slots ++ [⟨h.mailboxes.length, t, identity⟩], mailboxes := ms } := by
  cases hid : c.ids t with
  | none => rfl
  | some id =>
    obtain ⟨hlt, hlistens⟩ := hn t id hid
    have hgone := hlistens.resolve_left (by simp [hnone])
    have hkeep : ∀ s ∈ h.slots ++ [(⟨h.mailboxes.length, t, identity⟩ : Slot)], s.id ≠ id := by
      intro s hs
      rcases List.mem_append.mp hs with hs | hs
      · exact hgone s hs
      · rw [List.mem_singleton.mp hs]
        exact (Nat.ne_of_lt hlt).symm
    simp only [unregister, Hub.unsubscribe]
    rw [List.filter_eq_self.mpr fun s hs => by simp [hkeep s hs]]

/-- A stream that does not listen yet takes exactly one new registration. -/
theorem Named.subscribe_registers (hn : c.Named h) (hopen : h.closed = false)
    (hcap : h.capacity ≤ Hub.greatestCapacity) {t : Topic} (hnone : c.streams t = none) :
    c.subscribe h t =
      (.ok { c with
        streams := c.streams.put t (some h.mailboxes.length)
        ids := c.ids.put t (some h.mailboxes.length) },
      { h with
        slots := h.slots ++ [⟨h.mailboxes.length, t, c.identity⟩]
        mailboxes := h.mailboxes ++ [⟨t, [], true⟩] }) := by
  simp only [subscribe, hnone, Hub.subscribe_registers hopen hcap t c.identity,
    unregister_unnamed hn hnone]

theorem Named.put {id : SubscriptionId} (hn : c.Named h) (hid : id < h.mailboxes.length)
    (t : Topic) :
    Named { c with streams := c.streams.put t (some id), ids := c.ids.put t (some id) } h := by
  intro u j hj
  by_cases hu : u = t
  · subst hu
    have hj' : id = j := by simpa using hj
    exact ⟨hj' ▸ hid, .inl (by simpa using hj')⟩
  · simp only [PerTopic.put_other _ _ hu] at hj ⊢
    exact hn u j hj

theorem Named.unsubscribe (hn : c.Named h) (t : Topic) :
    (c.unsubscribe h t).1.Named (c.unsubscribe h t).2 := by
  have hgrows := Hub.Grows.leads (c.leads_unsubscribe h t)
  intro u j hj
  by_cases hu : u = t
  · simp [Connection.unsubscribe, hu] at hj
  · simp only [Connection.unsubscribe, PerTopic.put_other _ _ hu] at hj ⊢
    exact hn.grows hgrows u j hj

/-- A stream stops listening to a subscription that has ended, and keeps its name. -/
theorem Named.ended (hn : c.Named h) {t : Topic} {id : SubscriptionId} (hs : c.streams t = some id)
    (hgone : ∀ s ∈ h.slots, s.id ≠ id) : Named { c with streams := c.streams.put t none } h := by
  intro u j hj
  obtain ⟨hlt, hlistens⟩ := hn u j hj
  refine ⟨hlt, ?_⟩
  by_cases hu : u = t
  · rcases hlistens with hsame | hother
    · obtain rfl : id = j := by simpa [hu, hs] using hsame
      exact .inr hgone
    · exact .inr hother
  · simpa only [PerTopic.put_other _ _ hu] using hlistens

theorem Named.step {p : Connection × Hub} (hn : c.Named h) (hp : c.Step h p) : p.1.Named p.2 := by
  have hgrows := Hub.Grows.leads hp.leads
  cases hp with
  | idle | sends _ | collects => exact hn
  | @subscribes t id h₁ _ _ hok =>
    obtain ⟨rfl, rfl⟩ := Hub.subscribe_ok hok
    refine (hn.grows hgrows).put ?_ t
    cases c.ids t <;> simp [unregister, Hub.unsubscribe]
  | unsubscribes t => exact hn.unsubscribe t
  | releases =>
    intro t id hid
    simp [release, PerTopic.none] at hid
  | forwards _ _ => exact hn.grows hgrows
  | lets hs hgone => exact (hn.ended hs hgone).grows hgrows

end Connection

namespace Gateway

variable {verify : Verifier} {g g' : Gateway}

/-- A run of the service from its start, with a hub of the given capacity. -/
structure Runs (r : Registry) (capacity : Nat) (g : Gateway) : Prop where
  registry : g.service.registry = r
  capacity : g.service.hub.capacity = max capacity 1
  named : ∀ c ∈ g.connections, c.Named g.service.hub

theorem Runs.change {r : Registry} {capacity : Nat} {who : Option Nat} (h : g.Runs r capacity)
    (hg : g.Change who g') : g'.Runs r capacity := by
  have hgrows := Hub.Grows.leads hg.leads
  refine ⟨hg.registry.trans h.registry, hgrows.capacity.trans h.capacity, fun d hd => ?_⟩
  cases hg with
  | idle _ => exact h.named d hd
  | service _ _ => exact (h.named d hd).grows hgrows
  | opens identity =>
    rcases List.mem_append.mp hd with hd | hd
    · exact h.named d hd
    · rw [List.mem_singleton.mp hd]
      intro t id hid
      simp [Connection.new, PerTopic.none] at hid
  | stream hc hp =>
    rcases List.mem_or_eq_of_mem_set hd with hd | rfl
    · exact (h.named d hd).grows hgrows
    · exact (h.named _ (List.mem_of_getElem? hc)).step hp

theorem Becomes.runs {runtime : Runtime} {r : Registry} {positions : Positions} {capacity : Nat}
    (h : (Gateway.start (Service.start runtime r positions capacity)).Becomes verify g) :
    g.Runs r capacity := by
  induction h with
  | start => exact ⟨rfl, rfl, by simp [Gateway.start]⟩
  | act h a ih => exact ih.change (change_act verify _ a)
  | hub h op ih => exact ih.change (.service rfl (Hub.leads_perform _ op))

theorem receive_subscribe {n : Nat} {c : Connection} {text name : String} {t : Topic}
    (hc : g.connections[n]? = some c) (hopen : c.isOpen = true)
    (hm : ClientMessage.ofJson text = .ok (.subscribe name))
    (hname : g.service.registry.resolve name = .ok t) {c' : Connection} {h' : Hub}
    (hsub : c.subscribe g.service.hub t = (.ok c', h')) :
    g.act verify (.receive n (.text text)) =
      ⟨{ g.service with hub := h' }, g.connections.set n c'⟩ := by
  have hisOpen : g.isOpen n = true := by simp [isOpen, hc, hopen]
  have htopic : g.service.registry.resolve (ClientMessage.subscribe name).topicId = .ok t := hname
  have hreceive : c.receive g.service.positions.message g.service.registry g.service.hub
      (.text text) = (c', h') := by
    simp only [Connection.receive, Connection.receiveText, hm, Connection.apply, htopic, hsub]
  simp only [act, hisOpen, if_true]
  rw [withConnection_some hc, hreceive]

/-- With a buffer that a queue can have, each subscribe to the open hub registers one slot, and so
does a client's message for a served topic that its stream does not listen to yet; with a larger
one, which loads as well, no subscription can ever be made. -/
theorem buffer_decides_subscribing {hash : String → String} {l : Loader} {d d' : Directory}
    {x : Loaded} (hload : l.load hash d = (.ok x, d'))
    (hg : (Gateway.start (Service.start x.runtime x.registry positions
      x.subscriberBuffer)).Becomes verify g)
    (hopen : g.service.hub.closed = false) :
    let hub := g.service.hub
    let registered (t : Topic) (identity : Filter) : Hub := { hub with
      slots := hub.slots ++ [⟨hub.mailboxes.length, t, identity⟩]
      mailboxes := hub.mailboxes ++ [⟨t, [], true⟩] }
    1 ≤ x.subscriberBuffer ∧ hub.capacity = x.subscriberBuffer ∧
    (x.subscriberBuffer ≤ Hub.greatestCapacity →
      (∀ t identity, hub.subscribe t identity = (.ok hub.mailboxes.length, registered t identity)) ∧
      ∀ n c text name t, g.connections[n]? = some c → c.isOpen = true →
        ClientMessage.ofJson text = .ok (.subscribe name) → x.registry.resolve name = .ok t →
        g.act verify (.receive n (.text text)) =
          match c.streams t with
          | some _ => g
          | none => ⟨{ g.service with hub := registered t c.identity }, g.connections.set n { c with
              streams := c.streams.put t (some hub.mailboxes.length)
              ids := c.ids.put t (some hub.mailboxes.length) }⟩) ∧
    (Hub.greatestCapacity < x.subscriberBuffer →
      ∀ t identity, hub.subscribe t identity = (.error .capacity, hub)) := by
  intro hub registered
  have hruns := hg.runs
  have hpos := Loader.buffer_of_load hload
  have hcapacity : hub.capacity = x.subscriberBuffer := hruns.capacity.trans (Nat.max_eq_left hpos)
  refine ⟨hpos, hcapacity, fun hfits => ?_, fun hlarge => ?_⟩
  · have hcap : hub.capacity ≤ Hub.greatestCapacity := hcapacity ▸ hfits
    refine ⟨Hub.subscribe_registers hopen hcap, fun n c text name t hc hcopen hm hname => ?_⟩
    rw [← hruns.registry] at hname
    cases hs : c.streams t with
    | some id =>
      have hset : g.connections.set n c = g.connections := by
        obtain ⟨hlt, rfl⟩ := List.getElem?_eq_some_iff.mp hc
        exact List.set_getElem_self hlt
      have hsame := Connection.subscribe_listening hs hub
      rw [receive_subscribe hc hcopen hm hname hsame, hset]
    | none =>
      have hnamed := hruns.named c (List.mem_of_getElem? hc)
      exact receive_subscribe hc hcopen hm hname (hnamed.subscribe_registers hopen hcap hs)
  · exact Hub.subscribe_too_large hopen (hcapacity ▸ hlarge)

/-- A file with nothing but a stored secret and a buffer. -/
def bufferFile (buffer : Nat) : Directory :=
  ⟨[("gateway.toml", .file (Text.toUtf8
    ("[admin]\nsecret = \"$argon2\"\n[events]\nsubscriber_buffer = " ++ toString buffer ++ "\n")))]⟩

theorem buffer_decides_subscribing_one : ∃ x d',
    (⟨"gateway.toml", none⟩ : Loader).load id (bufferFile 1) = (.ok x, d') ∧
    (Hub.new x.subscriberBuffer).subscribe .session ⟨none, none⟩ =
      (.ok 0, ⟨1, false, [⟨0, .session, ⟨none, none⟩⟩], [⟨.session, [], true⟩]⟩) := by
  obtain ⟨x, d', hload, hone⟩ := Loader.exists_loaded ⟨"gateway.toml", none⟩ id (bufferFile 1)
    Loaded.subscriberBuffer (a := 1) (by decide +kernel)
  have hstart : (Gateway.start
    (Service.start x.runtime x.registry .silent x.subscriberBuffer)).Becomes (fun _ _ => true) _ :=
    .start
  have hdecides := buffer_decides_subscribing hload hstart rfl
  have hfits : x.subscriberBuffer ≤ Hub.greatestCapacity := by simp [hone, Hub.greatestCapacity]
  have hsubscribe := (hdecides.2.2.1 hfits).1 .session ⟨none, none⟩
  refine ⟨x, d', hload, hsubscribe.trans ?_⟩
  simp [Gateway.start, Service.start, Hub.new, hone]

/-- The smallest buffer that loads and that no queue can have. -/
theorem loads_buffer_too_large : ∃ x d',
    (⟨"gateway.toml", none⟩ : Loader).load id (bufferFile 2305843009213693952) = (.ok x, d') ∧
    (Service.start x.runtime x.registry .silent x.subscriberBuffer).hub.closed = false ∧
    ((Service.start x.runtime x.registry .silent x.subscriberBuffer).hub.subscribe .session
      ⟨none, none⟩).1 = .error .capacity := by
  obtain ⟨x, d', hload, hbuffer⟩ := Loader.exists_loaded ⟨"gateway.toml", none⟩ id
    (bufferFile 2305843009213693952) Loaded.subscriberBuffer (a := 2305843009213693952)
    (by decide +kernel)
  have hlarge : Hub.greatestCapacity < max x.subscriberBuffer 1 := by
    rw [hbuffer]
    decide
  exact ⟨x, d', hload, rfl, by rw [Hub.subscribe_too_large rfl hlarge]⟩

end Gateway

end EventGateway
