import EventGateway.Proofs.Service.Capacity
import EventGateway.Proofs.Service.Topics
import EventGateway.Proofs.Stream.Standing

/-! What a stream answers to its client. A text that is rejected has one notice and no effect, for
every check comes before the first change. Whatever else the client sends has no notice. -/

namespace EventGateway

namespace Connection

variable {position : String → Json.Error → String} {r : Registry} {c : Connection} {h : Hub}
  {s : String} {t : Topic}

/-- Why a text of the client is rejected: it is no message, it names none of the enabled topics, or
it asks a closed hub for a topic that the stream does not listen to. -/
def rejection? (position : String → Json.Error → String) (r : Registry) (c : Connection) (h : Hub)
    (s : String) : Option ClientFault :=
  match ClientMessage.ofJson s with
  | .error e => some (.message e (position s e))
  | .ok m =>
    match r.topics.find? fun t => t.name = m.topicId with
    | none => some (.topic ⟨m.topicId⟩)
    | some t =>
      match m with
      | .subscribe _ => if h.closed && (c.streams t).isNone then some (.subscribe .closed) else none
      | .unsubscribe _ => none

theorem receiveText_malformed {e : Json.Error} (hm : ClientMessage.ofJson s = .error e) :
    c.receiveText position r h s = c.refuse h (.message e (position s e)) := by
  simp only [receiveText, hm]

theorem receiveText_unserved {m : ClientMessage} {e : InvalidTopic}
    (hm : ClientMessage.ofJson s = .ok m) (hr : r.resolve m.topicId = .error e) :
    c.receiveText position r h s = c.refuse h (.topic e) := by
  simp only [receiveText, hm, apply, hr]

theorem receiveText_unsubscribe {name : String}
    (hm : ClientMessage.ofJson s = .ok (.unsubscribe name))
    (hr : r.resolve name = .ok t) : c.receiveText position r h s = c.unsubscribe h t := by
  have htopic : r.resolve (ClientMessage.unsubscribe name).topicId = .ok t := hr
  simp only [receiveText, hm, apply, htopic]

theorem receiveText_subscribe {name : String} (hm : ClientMessage.ofJson s = .ok (.subscribe name))
    (hr : r.resolve name = .ok t) : c.receiveText position r h s =
      match c.subscribe h t with
      | (.error f, h) => c.refuse h f
      | (.ok c, h) => (c, h) := by
  have htopic : r.resolve (ClientMessage.subscribe name).topicId = .ok t := hr
  rcases hsub : c.subscribe h t with ⟨_ | _, _⟩ <;>
    simp only [receiveText, hm, apply, htopic, hsub]

theorem subscribe_closed (hclosed : h.closed = true) (hnone : c.streams t = none) :
    c.subscribe h t = (.error (.subscribe .closed), h) := by
  simp [subscribe, hnone, Hub.subscribe, hclosed]

/-- An open hub refuses a stream only when it can make no queue, and then the stream ends. -/
theorem subscribe_open (hopen : h.closed = false) {f : ClientFault} {h' : Hub}
    (hsub : c.subscribe h t = (.error f, h')) : f = .subscribe .capacity := by
  unfold subscribe at hsub
  split at hsub
  · simp at hsub
  · by_cases hcap : h.capacity ≤ Hub.greatestCapacity
    · simp [Hub.subscribe_registers hopen hcap] at hsub
    · rw [Hub.subscribe_too_large hopen (by omega)] at hsub
      exact (Except.error.inj (Prod.mk.inj hsub).1).symm

theorem receiveText_rejected {f : ClientFault} (hf : c.rejection? position r h s = some f) :
    c.receiveText position r h s = (c.send (.frame (.notice f.notice)), h) := by
  unfold rejection? at hf
  cases hm : ClientMessage.ofJson s with
  | error e =>
    rw [hm] at hf
    obtain rfl := Option.some.inj hf
    rw [receiveText_malformed hm]
    rfl
  | ok m =>
    simp only [hm] at hf
    have hresolve := r.resolve_eq m.topicId
    cases hr : r.topics.find? fun t => t.name = m.topicId with
    | none =>
      rw [hr] at hf hresolve
      obtain rfl := Option.some.inj hf
      rw [receiveText_unserved hm hresolve]
      rfl
    | some t =>
      simp only [hr] at hf hresolve
      cases m with
      | unsubscribe name => exact nomatch hf
      | subscribe name =>
        obtain ⟨⟨hclosed, hnone⟩, rfl⟩ :
            (h.closed = true ∧ c.streams t = none) ∧ ClientFault.subscribe .closed = f := by
          simpa using hf
        rw [receiveText_subscribe hm hresolve, subscribe_closed hclosed hnone]
        rfl

/-- A text that is not rejected has no answer, whatever it does. -/
theorem receiveText_accepted (hf : c.rejection? position r h s = none) :
    (c.receiveText position r h s).1.sent = c.sent := by
  unfold rejection? at hf
  cases hm : ClientMessage.ofJson s with
  | error e => simp [hm] at hf
  | ok m =>
    simp only [hm] at hf
    have hresolve := r.resolve_eq m.topicId
    cases hr : r.topics.find? fun t => t.name = m.topicId with
    | none => simp [hr] at hf
    | some t =>
      simp only [hr] at hf hresolve
      cases m with
      | unsubscribe name =>
        rw [receiveText_unsubscribe hm hresolve]
        rfl
      | subscribe name =>
        rw [receiveText_subscribe hm hresolve]
        rcases hsub : c.subscribe h t with ⟨f | c', h'⟩
        · have hopen : h.closed = false := by
            refine Bool.eq_false_iff.mpr fun hclosed => ?_
            have hnone : c.streams t = none := by
              cases hs : c.streams t with
              | none => rfl
              | some id => simp [subscribe_listening hs] at hsub
            simp [hclosed, hnone] at hf
          obtain rfl := subscribe_open hopen hsub
          rfl
        · exact sent_subscribe hsub

/-- The notices with which a stream answers its client. -/
def answers (position : String → Json.Error → String) (r : Registry) (c : Connection) (h : Hub) :
    Incoming → List Notice
  | .text s => (c.rejection? position r h s).toList.map ClientFault.notice
  | _ => []

theorem notices_receive (position : String → Json.Error → String) (r : Registry) (c : Connection)
    (h : Hub) (m : Incoming) :
    (c.receive position r h m).1.sent.filterMap Outgoing.notice? =
      c.sent.filterMap Outgoing.notice? ++ c.answers position r h m := by
  cases m with
  | text s =>
    cases hf : c.rejection? position r h s with
    | some f => simp [receive, receiveText_rejected hf, answers, hf, send, Outgoing.notice?]
    | none => simp [receive, receiveText_accepted hf, answers, hf]
  | binary bytes => simp [receive, answers]
  | close => simp [receive, answers, release]
  | pong bytes =>
    simp only [receive, answers]
    split <;> simp [release]
  | ping bytes =>
    simp only [receive, answers]
    split <;> simp [release, send, Outgoing.notice?]

theorem notices_poll (c : Connection) (h : Hub) (t : Topic) :
    (c.poll h t).1.sent.filterMap Outgoing.notice? = c.sent.filterMap Outgoing.notice? := by
  unfold poll
  split
  · rfl
  · split
    · simp [send, Outgoing.notice?]
    · rfl
    · rfl

end Connection

namespace Gateway

variable {verify : Verifier} {g : Gateway} {n k : Nat} {c : Connection}

/-- What stands ready for the client of a stream. -/
def pending (g : Gateway) (n : Nat) : List Outgoing :=
  (g.connections[n]?.map Connection.sent).getD []

/-- What the client of a stream takes by the move. -/
def taken (g : Gateway) (n : Nat) : Move → List Outgoing
  | .act (.collect k) => if k = n then g.pending n else []
  | _ => []

/-- All that a stream sends in a run, taken or not. -/
def output (verify : Verifier) (n : Nat) : Gateway → List Move → List Outgoing
  | g, [] => g.pending n
  | g, m :: ms => g.taken n m ++ output verify n (g.move verify m) ms

/-- The notices that a stream owes its client for a message, which it reads while it is open. -/
def answers (g : Gateway) (n : Nat) (m : Incoming) : List Notice :=
  match g.connections[n]? with
  | some c =>
    if c.isOpen then c.answers g.service.positions.message g.service.registry g.service.hub m
    else []
  | none => []

/-- The notices that a stream owes its client for a move. -/
def owed (g : Gateway) (n : Nat) : Move → List Notice
  | .act (.receive k m) => if k = n then g.answers n m else []
  | _ => []

def owedIn (verify : Verifier) (n : Nat) : Gateway → List Move → List Notice
  | _, [] => []
  | g, m :: ms => g.owed n m ++ owedIn verify n (g.move verify m) ms

theorem pending_eq (hc : g.connections[n]? = some c) : g.pending n = c.sent := by
  simp [pending, hc]

theorem pending_withConnection (hc : g.connections[n]? = some c)
    (f : Connection → Hub → Connection × Hub) :
    (g.withConnection n f).pending n = (f c g.service.hub).1.sent := by
  have hlt := (List.getElem?_eq_some_iff.mp hc).1
  rw [withConnection_some hc]
  simp [pending, List.getElem?_set_self hlt]

/-- What is done elsewhere leaves a stream with what it has. -/
theorem Change.pending {g' : Gateway} {who : Option Nat} (hg : g.Change who g')
    (hwho : who ≠ some n) : g'.pending n = g.pending n := by
  cases hg with
  | idle | service _ _ => rfl
  | opens identity =>
    rcases Nat.lt_trichotomy n g.connections.length with hlt | rfl | hgt
    · simp [Gateway.pending, List.getElem?_append_left hlt]
    · simp [Gateway.pending, Connection.new]
    · have hnone : g.connections[n]? = none := List.getElem?_eq_none (Nat.le_of_lt hgt)
      have hnew : (g.connections ++ [Connection.new identity])[n]? = none :=
        List.getElem?_eq_none (List.length_append ▸ hgt)
      rw [Gateway.pending, Gateway.pending, hnew, hnone]
  | @stream k c p hc hp =>
    have hk : k ≠ n := fun heq => hwho (congrArg some heq)
    simp [Gateway.pending, List.getElem?_set_ne hk]

theorem notices_receive (verify : Verifier) (g : Gateway) (n : Nat) (m : Incoming) :
    ((g.act verify (.receive n m)).pending n).filterMap Outgoing.notice? =
      (g.pending n).filterMap Outgoing.notice? ++ g.answers n m := by
  cases hc : g.connections[n]? with
  | none => simp [act, isOpen, answers, hc]
  | some c =>
    cases hopen : c.isOpen with
    | false => simp [act, isOpen, answers, hc, hopen]
    | true =>
      have hact : g.act verify (.receive n m) =
          g.withConnection n fun c h =>
            c.receive g.service.positions.message g.service.registry h m := by
        simp [act, isOpen, hc, hopen]
      rw [hact, pending_withConnection hc, Connection.notices_receive, pending_eq hc]
      simp [answers, hc, hopen]

theorem notices_poll (verify : Verifier) (g : Gateway) (n : Nat) (t : Topic) :
    ((g.act verify (.poll n t)).pending n).filterMap Outgoing.notice? =
      (g.pending n).filterMap Outgoing.notice? := by
  cases hc : g.connections[n]? with
  | none => rw [act, withConnection_none hc]
  | some c => rw [act, pending_withConnection hc, Connection.notices_poll, pending_eq hc]

theorem pending_disconnect (verify : Verifier) (g : Gateway) (n : Nat) :
    (g.act verify (.disconnect n)).pending n = g.pending n := by
  cases hc : g.connections[n]? with
  | none => rw [act, withConnection_none hc]
  | some c =>
    rw [act, pending_withConnection hc, pending_eq hc]
    rfl

theorem pending_collect (verify : Verifier) (g : Gateway) (n : Nat) :
    (g.act verify (.collect n)).pending n = [] := by
  rw [act, collect_eq]
  cases hc : g.connections[n]? with
  | none =>
    rw [withConnection_none hc]
    simp [pending, hc]
  | some c => exact pending_withConnection hc _

/-- By a move a stream sends, of notices, just those that it owes. -/
theorem notices_move (verify : Verifier) (g : Gateway) (n : Nat) (m : Move) :
    (g.taken n m ++ (g.move verify m).pending n).filterMap Outgoing.notice? =
      (g.pending n).filterMap Outgoing.notice? ++ g.owed n m := by
  by_cases hm : m.stream? = some n
  · cases m with
    | hub op => cases hm
    | act a =>
      cases a with
      | receive k m =>
        obtain rfl := Option.some.inj hm
        simpa [taken, owed, move] using notices_receive verify g k m
      | poll k t =>
        obtain rfl := Option.some.inj hm
        simpa [taken, owed, move] using notices_poll verify g k t
      | disconnect k =>
        obtain rfl := Option.some.inj hm
        simpa [taken, owed, move] using congrArg _ (pending_disconnect verify g k)
      | collect k =>
        obtain rfl := Option.some.inj hm
        have hnone := pending_collect verify g k
        simp [taken, owed, move, hnone]
      | handle | reload | publish | connect | close => cases hm
  · have hpending := (g.change_move verify m).pending hm
    have htaken : g.taken n m = [] := by
      unfold taken
      split
      · exact if_neg fun hk => hm (congrArg some hk)
      · rfl
    have howed : g.owed n m = [] := by
      unfold owed
      split
      · exact if_neg fun hk => hm (congrArg some hk)
      · rfl
    rw [hpending, htaken, howed, List.nil_append, List.append_nil]

theorem notices_output (verify : Verifier) (g : Gateway) (n : Nat) (moves : List Move) :
    (output verify n g moves).filterMap Outgoing.notice? =
      (g.pending n).filterMap Outgoing.notice? ++ owedIn verify n g moves := by
  induction moves generalizing g with
  | nil => simp [output, owedIn]
  | cons m moves ih =>
    have hstep := notices_move verify g n m
    rw [List.filterMap_append] at hstep
    rw [output, List.filterMap_append, ih, ← List.append_assoc, hstep, owedIn, List.append_assoc]

end Gateway

namespace Census

variable {verify : Verifier} {w : Census} {n : Nat} {c : Connection} {r : Registry} {capacity : Nat}
  {s name : String} {t : Topic}

theorem becomes_ofRun (verify : Verifier) (g : Gateway) (moves : List Move) :
    g.Becomes verify (ofRun verify g moves).gateway := by
  suffices ∀ w : Census, g.Becomes verify w.gateway →
      g.Becomes verify (moves.foldl (Census.step verify) w).gateway from this _ .start
  induction moves with
  | nil => exact fun _ hw => hw
  | cons m moves ih =>
    refine fun w hw => ih _ ?_
    cases m with
    | act a => exact hw.act a
    | hub op => exact hw.hub op

/-- The client of the stream sends a text. -/
def hears (verify : Verifier) (w : Census) (n : Nat) (s : String) : Census :=
  w.step verify (.act (.receive n (.text s)))

/-- The slots that the stream has on a topic. -/
def slotsFor (w : Census) (n : Nat) (t : Topic) : List Slot :=
  (w.hub.slotsOf t).filter fun s => w.made s.id = some n

theorem hears_eq (verify : Verifier) (hc : w.gateway.connections[n]? = some c)
    (hopen : c.isOpen = true) (s : String) :
    (w.hears verify n s).gateway =
      ⟨{ w.gateway.service with
          hub := (c.receiveText w.gateway.service.positions.message w.gateway.service.registry w.hub
            s).2 },
        w.gateway.connections.set n (c.receiveText w.gateway.service.positions.message
          w.gateway.service.registry w.hub s).1⟩ := by
  have hisOpen : w.gateway.isOpen n = true := by simp [Gateway.isOpen, hc, hopen]
  rw [hears, Census.step, Gateway.move, Gateway.act, if_pos hisOpen, Gateway.withConnection_some hc]
  rfl

theorem connection_hears (verify : Verifier) (hc : w.gateway.connections[n]? = some c)
    (hopen : c.isOpen = true) (s : String) : (w.hears verify n s).gateway.connections[n]? =
      some (c.receiveText w.gateway.service.positions.message w.gateway.service.registry w.hub
        s).1 := by
  rw [hears_eq verify hc hopen]
  exact List.getElem?_set_self (List.getElem?_eq_some_iff.mp hc).1

theorem hears_rejected (hc : w.gateway.connections[n]? = some c) (hopen : c.isOpen = true)
    {f : ClientFault} (hf : c.rejection? w.gateway.service.positions.message
      w.gateway.service.registry w.hub s = some f) :
    (w.hears verify n s).gateway = ⟨w.gateway.service,
      w.gateway.connections.set n (c.send (.frame (.notice f.notice)))⟩ := by
  rw [hears_eq verify hc hopen, Connection.receiveText_rejected hf]
  rfl

theorem hears_unsubscribe (hs : w.Sound) (hc : w.gateway.connections[n]? = some c)
    (hopen : c.isOpen = true) (hm : ClientMessage.ofJson s = .ok (.unsubscribe name))
    (hr : w.gateway.service.registry.resolve name = .ok t) :
    ∃ c', (w.hears verify n s).gateway.connections[n]? = some c' ∧ c'.isOpen = true ∧
      c'.sent = c.sent ∧ c'.streams t = none ∧ c'.ids t = none ∧
      (w.hears verify n s).slotsFor n t = [] := by
  have hc' := connection_hears verify hc hopen s
  rw [Connection.receiveText_unsubscribe hm hr] at hc'
  have hr' := (hs.step verify _).records n _ hc'
  refine ⟨_, hc', hopen, rfl, PerTopic.put_same _ _ _, PerTopic.put_same _ _ _, ?_⟩
  refine List.filter_eq_nil_iff.mpr fun slot hslot hmade => ?_
  obtain ⟨hmem, htopic⟩ : slot ∈ (w.hears verify n s).hub.slots ∧ slot.topic = t := by
    simpa [Hub.slotsOf] using hslot
  have hrec := hr'.recorded slot hmem (of_decide_eq_true hmade)
  simp [htopic, Connection.unsubscribe] at hrec

/-- A subscribe to a topic that the stream listens to changes nothing at all. -/
theorem hears_repeated (hc : w.gateway.connections[n]? = some c) (hopen : c.isOpen = true)
    (hm : ClientMessage.ofJson s = .ok (.subscribe name))
    (hr : w.gateway.service.registry.resolve name = .ok t) {id : SubscriptionId}
    (hid : c.streams t = some id) : (w.hears verify n s).gateway = w.gateway := by
  have hact : w.gateway.act verify (.receive n (.text s)) =
      ⟨{ w.gateway.service with hub := w.hub }, w.gateway.connections.set n c⟩ :=
    Gateway.receive_subscribe hc hopen hm hr (Connection.subscribe_listening hid w.hub)
  have hset : w.gateway.connections.set n c = w.gateway.connections := by
    obtain ⟨hlt, rfl⟩ := List.getElem?_eq_some_iff.mp hc
    exact List.set_getElem_self hlt
  rw [hset] at hact
  exact hact

/-- Once a subscribe has made the stream listen, it has the one slot, and a second makes none. -/
theorem hears_subscribed (verify : Verifier) (hs : w.Sound) (hseated : w.Seated)
    (hc : w.gateway.connections[n]? = some c) (hopen : c.isOpen = true)
    (hm : ClientMessage.ofJson s = .ok (.subscribe name))
    (hr : w.gateway.service.registry.resolve name = .ok t) {c' : Connection} {h' : Hub}
    {id : SubscriptionId} (hsub : c.subscribe w.hub t = (.ok c', h')) (hopen' : c'.isOpen = true)
    (hid : c'.streams t = some id) (hhub : h'.closed = false) :
    (w.hears verify n s).gateway.connections[n]? = some c' ∧
      (w.hears verify n s).slotsFor n t = [⟨id, t, c'.identity⟩] ∧
      (w.hears verify n s).hub.held id = true ∧
      ((w.hears verify n s).hears verify n s).gateway = (w.hears verify n s).gateway := by
  have hgateway := hears_eq verify hc hopen s
  have hc' := connection_hears verify hc hopen s
  rw [Connection.receiveText_subscribe hm hr, hsub] at hgateway hc'
  have hhub' : (w.hears verify n s).hub.closed = false := by rwa [hub, hgateway]
  have hr' : (w.hears verify n s).gateway.service.registry.resolve name = .ok t := by rwa [hgateway]
  have hseated' : (w.hears verify n s).Seated := hseated.step hs verify trivial
  obtain ⟨hslots, hheld⟩ := hseated'.only_slot (hs.step verify _) hhub' hc' hid
  exact ⟨hc', hslots, hheld, hears_repeated hc' hopen' hm hr' hid⟩

/-- On an open hub a subscribe is accepted unless no queue can be made. -/
theorem hears_subscribe (hs : w.Sound) (hseated : w.Seated) (hruns : w.gateway.Runs r capacity)
    (hc : w.gateway.connections[n]? = some c) (hopen : c.isOpen = true)
    (hm : ClientMessage.ofJson s = .ok (.subscribe name))
    (hr : w.gateway.service.registry.resolve name = .ok t) (hhub : w.hub.closed = false) :
    (max capacity 1 ≤ Hub.greatestCapacity → (w.hears verify n s).gateway.isOpen n = true) ∧
    ((w.hears verify n s).gateway.isOpen n = true → ∃ c' id,
      (w.hears verify n s).gateway.connections[n]? = some c' ∧ c'.sent = c.sent ∧
      c'.streams t = some id ∧ (w.hears verify n s).slotsFor n t = [⟨id, t, c.identity⟩] ∧
      (w.hears verify n s).hub.held id = true ∧
      ((w.hears verify n s).hears verify n s).gateway = (w.hears verify n s).gateway) := by
  cases hid : c.streams t with
  | some id =>
    obtain ⟨hc', hslots, hheld, hagain⟩ := hears_subscribed verify hs hseated hc hopen hm hr
      (Connection.subscribe_listening hid w.hub) hopen hid hhub
    exact ⟨fun _ => by simp [Gateway.isOpen, hc', hopen],
      fun _ => ⟨c, id, hc', rfl, hid, hslots, hheld, hagain⟩⟩
  | none =>
    have hnamed := hruns.named c (List.mem_of_getElem? hc)
    by_cases hcap : w.hub.capacity ≤ Hub.greatestCapacity
    · obtain ⟨hc', hslots, hheld, hagain⟩ := hears_subscribed verify hs hseated hc hopen hm hr
        (hnamed.subscribe_registers hhub hcap hid) hopen (PerTopic.put_same _ _ _) hhub
      exact ⟨fun _ => by simp [Gateway.isOpen, hc', hopen],
        fun _ => ⟨_, _, hc', rfl, PerTopic.put_same _ _ _, hslots, hheld, hagain⟩⟩
    · have hc' := connection_hears verify hc hopen s
      have hrefused : c.subscribe w.hub t = (.error (.subscribe .capacity), w.hub) := by
        simp [Connection.subscribe, hid, Hub.subscribe_too_large hhub (Nat.lt_of_not_le hcap)]
      have hended : (w.hears verify n s).gateway.isOpen n = false := by
        rw [Connection.receiveText_subscribe hm hr, hrefused] at hc'
        simp [Gateway.isOpen, hc', Connection.refuse, ClientFault.breaks, Connection.release]
      exact ⟨fun hfits => absurd (hruns.capacity ▸ hfits) hcap,
        fun hstays => absurd (hended.symm.trans hstays) Bool.false_ne_true⟩

/-- Texts that are rejected have no effect and are answered one for one. The notices that a stream
sends in a run are, in order, those of the rejected texts among the messages that it has read. Such a
text leaves everything else as it was, the stream open. An unsubscribe for a topic that is enabled
leaves the stream without slots there, even when it had none; a subscribe for one that it listens to
changes nothing. If nobody else gives up what the streams have made, a subscribe to an open hub that
the stream survives leaves it with one slot on the topic, with its identity, and a second changes
nothing; it does survive if a queue of the capacity can be made. -/
theorem answers_exact (verify : Verifier) (runtime : Runtime) (r : Registry) (positions : Positions)
    (capacity : Nat) (moves : List Move) (n : Nat) :
    let start := Gateway.start (Service.start runtime r positions capacity)
    let w := ofRun verify start moves
    (Gateway.output verify n start moves).filterMap Outgoing.notice? =
      Gateway.owedIn verify n start moves ∧
    ∀ c, w.gateway.connections[n]? = some c → c.isOpen = true →
      (∀ s f, c.rejection? w.gateway.service.positions.message r w.hub s = some f →
        (w.hears verify n s).gateway =
          ⟨w.gateway.service, w.gateway.connections.set n (c.send (.frame (.notice f.notice)))⟩) ∧
      ∀ s t, r.contains t = true →
        (ClientMessage.ofJson s = .ok (.unsubscribe t.name) →
          ∃ c', (w.hears verify n s).gateway.connections[n]? = some c' ∧ c'.isOpen = true ∧
            c'.sent = c.sent ∧ c'.streams t = none ∧ c'.ids t = none ∧
            (w.hears verify n s).slotsFor n t = []) ∧
        (∀ id, ClientMessage.ofJson s = .ok (.subscribe t.name) → c.streams t = some id →
          (w.hears verify n s).gateway = w.gateway) ∧
        (ClientMessage.ofJson s = .ok (.subscribe t.name) → w.hub.closed = false →
          Undisturbed verify ⟨start, fun _ => none⟩ moves →
          (max capacity 1 ≤ Hub.greatestCapacity →
            (w.hears verify n s).gateway.isOpen n = true) ∧
          ((w.hears verify n s).gateway.isOpen n = true → ∃ c' id,
            (w.hears verify n s).gateway.connections[n]? = some c' ∧ c'.sent = c.sent ∧
            c'.streams t = some id ∧ (w.hears verify n s).slotsFor n t = [⟨id, t, c.identity⟩] ∧
            (w.hears verify n s).hub.held id = true ∧
            ((w.hears verify n s).hears verify n s).gateway = (w.hears verify n s).gateway)) := by
  intro start w
  have hs : w.Sound := sound_ofRun verify runtime r positions capacity moves
  have hruns : w.gateway.Runs r capacity := (becomes_ofRun verify start moves).runs
  refine ⟨Gateway.notices_output verify start n moves, fun c hc hopen => ⟨fun s f hf => ?_,
    fun s t ht => ?_⟩⟩
  · exact hears_rejected hc hopen (hruns.registry ▸ hf)
  · have hr : w.gateway.service.registry.resolve t.name = .ok t :=
      Registry.resolve_ok.mpr ⟨hruns.registry ▸ ht, rfl⟩
    refine ⟨fun hm => hears_unsubscribe hs hc hopen hm hr,
      fun id hm hid => hears_repeated hc hopen hm hr hid, fun hm hhub hmoves => ?_⟩
    have hseated : w.Seated := seated_ofRun verify runtime r positions capacity hmoves
    exact hears_subscribe hs hseated hruns hc hopen hm hr hhub

def subscribing (name : String) : String :=
  "\x7b\"id\":\"cb_client_topic_subscribe\",\"topicId\":\"" ++ name ++ "\"\x7d"

/-- A stream that listens to one topic, and two texts that it rejects. -/
def answering : List Move :=
  [.act (.connect "F1" "sessionId=S1"), .act (.receive 0 (.text "?")),
    .act (.receive 0 (.text (subscribing "cb_session"))),
    .hub (.publish .session {} (.new .sessionExpired)),
    .act (.receive 0 (.text (subscribing "cb_bogus"))), .act (.receive 0 (.binary []))]

def answeringStart : Gateway :=
  Gateway.start (Service.start ⟨.v4 127 0 0 1 8080, ""⟩ .all
    ⟨fun _ _ => " at line 1 column 1", fun _ _ => ""⟩ 4)

def answered : Census := ofRun (fun _ _ => true) answeringStart answering

theorem answers_exact_answering :
    (Gateway.output (fun _ _ => true) 0 answeringStart answering).filterMap Outgoing.notice? =
      [⟨"invalid client message: expected value at line 1 column 1"⟩,
        ⟨"invalid topic: cb_bogus"⟩] ∧
    (answered.hears (fun _ _ => true) 0 (subscribing "cb_session")).gateway = answered.gateway ∧
    ∃ id, (answered.hears (fun _ _ => true) 0 (subscribing "cb_session_task")).slotsFor 0
      .sessionTask = [⟨id, .sessionTask, ⟨some "S1", none⟩⟩] := by
  have howed : Gateway.owedIn (fun _ _ => true) 0 answeringStart answering =
      [⟨"invalid client message: expected value at line 1 column 1"⟩,
        ⟨"invalid topic: cb_bogus"⟩] := by decide +kernel
  have hstate : answered.gateway.connections[0]?.map
      (fun c => (c.isOpen, c.identity, c.streams .session)) =
        some (true, ⟨some "S1", none⟩, some 0) := by decide +kernel
  have hhub : answered.hub.closed = false := by decide +kernel
  have hmoves : Undisturbed (fun _ _ => true) ⟨answeringStart, fun _ => none⟩ answering :=
    ⟨trivial, trivial, trivial, nofun, trivial, trivial, trivial⟩
  obtain ⟨c, hc, hfields⟩ := Option.map_eq_some_iff.mp hstate
  obtain ⟨hopen, hidentity, hlistens⟩ : c.isOpen = true ∧ c.identity = ⟨some "S1", none⟩ ∧
      c.streams .session = some 0 := by simpa using hfields
  have hsession : ClientMessage.ofJson (subscribing "cb_session") =
      .ok (.subscribe Topic.session.name) := by decide +kernel
  have htask : ClientMessage.ofJson (subscribing "cb_session_task") =
      .ok (.subscribe Topic.sessionTask.name) := by decide +kernel
  obtain ⟨hnotices, hafter⟩ := answers_exact (fun _ _ => true) ⟨.v4 127 0 0 1 8080, ""⟩ .all
    ⟨fun _ _ => " at line 1 column 1", fun _ _ => ""⟩ 4 answering 0
  obtain ⟨-, htopics⟩ := hafter c hc hopen
  obtain ⟨-, hrepeated, -⟩ := htopics _ .session rfl
  obtain ⟨-, -, hsubscribe⟩ := htopics _ .sessionTask rfl
  obtain ⟨hstays, haccepted⟩ := hsubscribe htask hhub hmoves
  obtain ⟨c', id, -, -, -, hslots, -⟩ := haccepted (hstays (by decide))
  exact ⟨hnotices.trans howed, hrepeated 0 hsession hlistens, id, hidentity ▸ hslots⟩

end Census

end EventGateway
