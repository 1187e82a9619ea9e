import EventGateway.Proofs.Hub.Calls
import EventGateway.Proofs.Stream.Run

/-! What can become of a stream, and of the service with its streams, said once for everything that
is proved of their runs. All that they do with the hub is to call it. -/

namespace EventGateway

theorem leads_spread (r : Registry) (e : Event) (h : Hub) : h.Leads (r.spread e h) := by
  cases hr : r.contains e.topic with
  | false => rw [spread_refused hr]
  | true =>
    rw [spread_served hr]
    exact h.leads_perform (.publish e.topic (Filter.ofEvent e) e)

theorem Service.leads_hubAfter (s : Service) (e : Option Event) : s.hub.Leads (s.hubAfter e) := by
  cases e with
  | none => exact .refl
  | some e => exact leads_spread s.registry e s.hub

namespace Connection

variable {c : Connection} {h : Hub} {t : Topic}

theorem leads_unregister (h : Hub) (t : Topic) (id : Option SubscriptionId) :
    h.Leads (unregister h t id) := by
  cases id with
  | none => exact .refl
  | some id => exact h.leads_perform (.unsubscribe t id)

theorem leads_letGo (h : Hub) (id : Option SubscriptionId) : h.Leads (letGo h id) := by
  cases id with
  | none => exact .refl
  | some id => exact h.leads_perform (.drop id)

theorem leads_foldl {f : Hub → Topic → Hub} (hf : ∀ h t, Hub.Leads h (f h t)) (ts : List Topic)
    (h : Hub) : h.Leads (ts.foldl f h) := by
  induction ts generalizing h with
  | nil => exact .refl
  | cons t ts ih => exact (hf h t).trans (ih (f h t))

theorem leads_unsubscribe (c : Connection) (h : Hub) (t : Topic) :
    h.Leads (c.unsubscribe h t).2 :=
  (leads_letGo h (c.streams t)).trans (leads_unregister _ t (c.ids t))

theorem leads_release (c : Connection) (h : Hub) : h.Leads (c.release h).2 :=
  (leads_foldl (fun h t => leads_unregister h t (c.ids t)) Topic.all h).trans
    (leads_foldl (fun h t => leads_letGo h (c.streams t)) Topic.all _)

theorem subscribe_listening {id : SubscriptionId} (hid : c.streams t = some id) (h : Hub) :
    c.subscribe h t = (.ok c, h) := by
  simp [subscribe, hid]

/-- What a message, a poll or the end can make of a stream and the hub. -/
inductive Step (c : Connection) (h : Hub) : Connection × Hub → Prop
  | idle : Step c h (c, h)
  | sends (o : Outgoing) : Step c h (c.send o, h)
  | collects : Step c h (c.collect.2, h)
  | subscribes {t : Topic} {id : SubscriptionId} {h₁ : Hub} (hopen : c.isOpen = true)
    (hs : c.streams t = none) (hok : h.subscribe t c.identity = (.ok id, h₁)) :
    Step c h ({ c with streams := c.streams.put t (some id), ids := c.ids.put t (some id) },
      unregister h₁ t (c.ids t))
  | unsubscribes (t : Topic) : Step c h (c.unsubscribe h t)
  | releases : Step c h (c.release h)
  | forwards {t : Topic} {id : SubscriptionId} {e : Event} (hs : c.streams t = some id)
    (he : (h.receive id).1 = .event e) :
    Step c h (c.send (.frame (.event e)), (h.receive id).2)
  | lets {t : Topic} {id : SubscriptionId} (hs : c.streams t = some id)
    (hgone : ∀ s ∈ h.slots, s.id ≠ id) :
    Step c h ({ c with streams := c.streams.put t none }, h.drop id)

theorem Step.leads {p : Connection × Hub} (hp : c.Step h p) : h.Leads p.2 := by
  cases hp with
  | idle | sends | collects => exact .refl
  | @subscribes t id h₁ _ _ hok =>
    have hfirst : h.Leads h₁ := by
      have hcall := h.leads_perform (.subscribe t c.identity)
      simpa only [Hub.perform, hok] using hcall
    exact hfirst.trans (leads_unregister h₁ t (c.ids t))
  | unsubscribes t => exact c.leads_unsubscribe h t
  | releases => exact c.leads_release h
  | forwards _ _ => exact h.leads_perform (.receive _)
  | lets _ _ => exact h.leads_perform (.drop _)

/-- Only its end closes a stream. -/
theorem Step.isOpen {p : Connection × Hub} (hp : c.Step h p) :
    p = c.release h ∨ p.1.isOpen = c.isOpen := by
  cases hp with
  | releases => exact .inl rfl
  | _ => exact .inr rfl

theorem step_refuse (c : Connection) (h : Hub) (f : ClientFault) : c.Step h (c.refuse h f) := by
  unfold refuse
  split
  · exact .releases
  · exact .sends _

theorem step_receiveText (hopen : c.isOpen = true) (position : String → Json.Error → String)
    (r : Registry) (h : Hub) (s : String) : c.Step h (c.receiveText position r h s) := by
  unfold receiveText
  split
  · exact step_refuse c h _
  next m hm =>
    cases hr : r.resolve m.topicId with
    | error e =>
      simp only [apply, hr]
      exact step_refuse c h _
    | ok t =>
      cases m with
      | unsubscribe name =>
        simp only [apply, hr]
        exact .unsubscribes t
      | subscribe name =>
        simp only [apply, hr]
        rcases hsub : c.subscribe h t with ⟨f | c', h'⟩
        · rw [subscribe_refused hsub]
          exact step_refuse c h f
        · cases hs : c.streams t with
          | some id =>
            obtain ⟨rfl, rfl⟩ : c = c' ∧ h = h' := by simpa [subscribe_listening hs] using hsub
            exact .idle
          | none =>
            obtain ⟨id, h₁, hok, rfl, rfl⟩ := subscribe_new hs hsub
            exact .subscribes hopen hs hok

theorem step_receive (hopen : c.isOpen = true) (position : String → Json.Error → String)
    (r : Registry) (h : Hub) (m : Incoming) : c.Step h (c.receive position r h m) := by
  cases m with
  | text s => exact step_receiveText hopen position r h s
  | binary bytes => exact .idle
  | close => exact .releases
  | pong bytes =>
    simp only [receive]
    split
    · exact .releases
    · exact .idle
  | ping bytes =>
    simp only [receive]
    split
    · exact .releases
    · exact .sends _

theorem step_poll (c : Connection) (h : Hub) (t : Topic) : c.Step h (c.poll h t) := by
  cases hs : c.streams t with
  | none =>
    simp only [poll, hs]
    exact .idle
  | some id =>
    rcases hr : h.receive id with ⟨answer, h'⟩
    simp only [poll, hs, hr]
    cases answer with
    | event e =>
      have hforward := Step.forwards (c := c) (h := h) hs (congrArg Prod.fst hr)
      simpa only [hr] using hforward
    | pending =>
      obtain rfl := Hub.receive_pending hr
      exact .idle
    | ended =>
      obtain ⟨rfl, hgone⟩ := Hub.receive_ended hr
      exact .lets hs hgone

end Connection

/-- The stream that acts. -/
def Act.stream? : Act → Option Nat
  | .receive n _ | .poll n _ | .disconnect n | .collect n => some n
  | _ => none

namespace Gateway

variable {verify : Verifier} {g g' : Gateway}

/-- What can become of the service with its streams when one of them acts, or none. -/
inductive Change (g : Gateway) : Option Nat → Gateway → Prop
  | idle (who : Option Nat) : Change g who g
  | service {s : Service} (hr : s.registry = g.service.registry)
    (hl : g.service.hub.Leads s.hub) : Change g none ⟨s, g.connections⟩
  | opens (identity : Filter) :
    Change g none ⟨g.service, g.connections ++ [.new identity]⟩
  | stream {n : Nat} {c : Connection} {p : Connection × Hub} (hc : g.connections[n]? = some c)
    (hp : c.Step g.service.hub p) :
    Change g (some n) ⟨{ g.service with hub := p.2 }, g.connections.set n p.1⟩

theorem change_withConnection (g : Gateway) (n : Nat) {f : Connection → Hub → Connection × Hub}
    (hf : ∀ c, g.connections[n]? = some c → c.Step g.service.hub (f c g.service.hub)) :
    g.Change (some n) (g.withConnection n f) := by
  cases hc : g.connections[n]? with
  | none =>
    rw [withConnection_none hc]
    exact .idle _
  | some c =>
    rw [withConnection_some hc]
    exact .stream hc (hf c hc)

theorem collect_eq (g : Gateway) (n : Nat) :
    (g.collect n).2 = g.withConnection n fun c h => (c.collect.2, h) := by
  simp only [collect, withConnection]
  cases g.connections[n]? <;> rfl

@[simp] theorem length_withConnection (g : Gateway) (n : Nat)
    (f : Connection → Hub → Connection × Hub) :
    (g.withConnection n f).connections.length = g.connections.length := by
  unfold withConnection
  split <;> simp

theorem length_act (verify : Verifier) (g : Gateway) (a : Act) :
    (g.act verify a).connections.length = g.connections.length + a.opens?.toList.length := by
  cases a with
  | handle | reload | publish | close => rfl
  | connect fresh query =>
    simp only [act, connect, Act.opens?]
    cases Identity.ofQuery query with
    | error e => rfl
    | ok f => simp [Except.toOption]
  | receive n m =>
    simp only [act]
    split <;> simp [Act.opens?]
  | poll n t => simp [act, Act.opens?]
  | disconnect n => simp [act, Act.opens?]
  | collect n =>
    rw [act, collect_eq]
    simp [Act.opens?]

theorem change_act (verify : Verifier) (g : Gateway) (a : Act) :
    g.Change a.stream? (g.act verify a) := by
  cases a with
  | handle r =>
    obtain ⟨hhub, hregistry⟩ := Service.handle_publishes verify g.service r
    refine .service hregistry ?_
    rw [hhub]
    exact g.service.leads_hubAfter _
  | reload r =>
    obtain ⟨hhub, hregistry⟩ := g.service.reload_publishes r
    refine .service hregistry ?_
    rw [hhub]
    exact g.service.leads_hubAfter _
  | publish e => exact .service rfl (leads_spread g.service.registry e g.service.hub)
  | connect fresh query =>
    simp only [act, connect]
    cases Identity.ofQuery query with
    | error e => exact .idle _
    | ok f => exact .opens _
  | receive n m =>
    simp only [act]
    split
    next hopen =>
      refine g.change_withConnection n fun c hc => Connection.step_receive ?_ _ _ _ m
      simpa [isOpen, hc] using hopen
    · exact .idle _
  | poll n t =>
    exact g.change_withConnection (f := fun c h => c.poll h t) n fun c _ => c.step_poll _ t
  | disconnect n => exact g.change_withConnection n fun _ _ => .releases
  | collect n =>
    rw [act, collect_eq]
    exact g.change_withConnection n fun _ _ => .collects
  | close => exact .service rfl (g.service.hub.leads_perform .close)

theorem Change.leads {who : Option Nat} (hg : g.Change who g') :
    g.service.hub.Leads g'.service.hub := by
  cases hg with
  | idle | opens => exact .refl
  | service _ hl => exact hl
  | stream _ hp => exact hp.leads

theorem Change.registry {who : Option Nat} (hg : g.Change who g') :
    g'.service.registry = g.service.registry := by
  cases hg with
  | service hr _ => exact hr
  | _ => rfl

/-- What can become of the service with its streams, whatever else is done with its hub. -/
inductive Becomes (verify : Verifier) (g : Gateway) : Gateway → Prop
  | start : Becomes verify g g
  | act {g' : Gateway} (h : Becomes verify g g') (a : Act) : Becomes verify g (g'.act verify a)
  | hub {g' : Gateway} (h : Becomes verify g g') (op : HubOp) :
    Becomes verify g ⟨{ g'.service with hub := (g'.service.hub.perform op).2 }, g'.connections⟩

theorem Becomes.run (hg : g.Becomes verify g') (acts : List Act) :
    g.Becomes verify (g'.run verify acts) := by
  induction acts generalizing g' with
  | nil => exact hg
  | cons a acts ih => exact ih (hg.act a)

theorem Becomes.leads (hg : g.Becomes verify g') : g.service.hub.Leads g'.service.hub := by
  induction hg with
  | start => exact .refl
  | act _ a ih => exact ih.trans (change_act verify _ a).leads
  | hub _ op ih => exact ih.trans (Hub.leads_perform _ op)

theorem Becomes.valid {runtime : Runtime} {r : Registry} {positions : Positions} {capacity : Nat}
    (hg : (Gateway.start (Service.start runtime r positions capacity)).Becomes verify g) :
    g.service.hub.Valid :=
  (Hub.valid_new capacity).leads hg.leads

end Gateway

end EventGateway
