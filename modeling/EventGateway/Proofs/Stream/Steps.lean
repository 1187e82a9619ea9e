import EventGateway.Proofs.Stream.Listening

/-! What a stream does with the hub: it takes on and gives up subscriptions, sends on what they
give, and ends. No step of it touches what another stream owns. -/

namespace EventGateway

variable {r : Registry} {own own' : Owners} {h h' : Hub} {k : Nat} {c c' : Connection}
  {M : List Mark} {t : Topic} {id : SubscriptionId}

/-- The stream `k` has become `c'` and the hub `h'`; what others own is as it was. -/
structure Proceeds (r : Registry) (own own' : Owners) (h h' : Hub) (k : Nat) (c' : Connection)
    (M : List Mark) : Prop where
  valid : h'.Valid
  owners : ∀ id : SubscriptionId, id < h.mailboxes.length → own' id = own id
  spares : ∀ id : SubscriptionId, id < h.mailboxes.length → (own id).1 ≠ k → h.Spares h' id
  tracks : Tracks r own' h' k c' M

theorem Tracks.proceeds (ht : Tracks r own h k c M) (hv : h.Valid) :
    Proceeds r own own h h k c M :=
  ⟨hv, fun _ _ => rfl, fun id _ _ => .refl h id, ht⟩

/-- What one stream does is nothing to another. -/
theorem Tracks.elsewhere {n : Nat} {x : Connection} {L : List Mark} (ht : Tracks r own h n x L)
    (hp : Proceeds r own own' h h' k c' M) (hn : n ≠ k) : Tracks r own' h' n x L := by
  refine ht.spared (fun t id hid => ?_) fun t id hid => hp.owners id (ht.listens t id hid).made
  have hl := ht.listens t id hid
  exact hp.spares id hl.made (by rwa [hl.owner])

theorem Tracks.not_mine (ht : Tracks r own h k c M) (hid : own id ≠ (k, t)) :
    c.streams t ≠ some id :=
  fun hs => hid (ht.listens t id hs).owner

theorem Connection.subscribe_new (hnone : c.streams t = none)
    (hsub : c.subscribe h t = (.ok c', h')) :
    ∃ id h₁, h.subscribe t c.identity = (.ok id, h₁) ∧
      c' = { c with streams := c.streams.put t (some id), ids := c.ids.put t (some id) } ∧
      h' = unregister h₁ t (c.ids t) := by
  simp only [Connection.subscribe, hnone] at hsub
  cases hs : h.subscribe t c.identity with
  | mk answer h₁ =>
    cases answer with
    | error e => simp [hs] at hsub
    | ok id =>
      simp only [hs, Prod.mk.injEq, Except.ok.injEq] at hsub
      exact ⟨id, h₁, rfl, hsub.1.symm, hsub.2.symm⟩

theorem Connection.subscribe_refused {f : ClientFault} (hsub : c.subscribe h t = (.error f, h')) :
    h' = h := by
  unfold Connection.subscribe at hsub
  split at hsub
  · simp at hsub
  · rcases Hub.subscribe_cases h t c.identity with ⟨e, he⟩ | ⟨_, _, he⟩
    · simp only [he, Prod.mk.injEq] at hsub
      exact hsub.2.symm
    · simp [he] at hsub

theorem Tracks.subscribe (ht : Tracks r own h k c M) (hv : h.Valid) (hnone : c.streams t = none)
    (hsub : c.subscribe h t = (.ok c', h')) :
    ∃ own', Proceeds r own own' h h' k c' (M ++ [.subscribed t]) := by
  obtain ⟨new, h₁, hok, rfl, rfl⟩ := Connection.subscribe_new hnone hsub
  obtain ⟨hnew, hmade, hempty, hslot⟩ := hv.subscribe_fresh hok
  have hv₁ : h₁.Valid := by
    have hvalid := hv.subscribe t c.identity
    rwa [hok] at hvalid
  have hrest := Connection.spares_unregister h₁ t (c.ids t)
  have hspares : ∀ id < h.mailboxes.length,
      h.Spares (Connection.unregister h₁ t (c.ids t)) id := by
    intro id hlt
    have hs := Hub.spares_subscribe hlt t c.identity
    rw [hok] at hs
    exact hs.trans (hrest id)
  have hown : ∀ id < h.mailboxes.length, own.grant new k t id = own id :=
    fun id hlt => if_neg (hnew ▸ Nat.ne_of_lt hlt)
  refine ⟨own.grant new k t, Connection.valid_unregister hv₁ t (c.ids t), hown,
    fun id hlt _ => hspares id hlt, identity_append ht.identity _,
    ht.orderly.snoc fun e he => by simp at he, fun u id hid => ?_⟩
  by_cases hu : u = t
  · subst hu
    obtain rfl : new = id := by simpa using hid
    refine ⟨if_pos rfl, Nat.lt_of_lt_of_le hmade (hrest new).length,
      fun s hs hsid => hslot s ((hrest new).slots s hs hsid) hsid, fun e he => ?_,
      [], Mark.period_subscribed u M, ?_⟩
    · rw [(hrest new).queue, hempty] at he
      simp at he
    · rw [(hrest new).queue, hempty]
      rfl
  · simp only [PerTopic.put_other _ _ hu] at hid
    have hl := ht.listens u id hid
    have hends : (Mark.subscribed t).ends u = false := by simp [Mark.ends, Ne.symm hu]
    exact (hl.mark hends rfl rfl).spared (hspares id hl.made) (hown id hl.made)

theorem Tracks.unsubscribe (ht : Tracks r own h k c M) (hv : h.Valid) (t : Topic) :
    Proceeds r own own h (c.unsubscribe h t).2 k (c.unsubscribe h t).1
      (M ++ [.unsubscribed t]) := by
  have hspares : ∀ id, own id ≠ (k, t) → h.Spares (c.unsubscribe h t).2 id := fun id hid =>
    (Connection.spares_letGo (ht.not_mine hid)).trans
      (Connection.spares_unregister _ t (c.ids t) id)
  refine ⟨Connection.valid_unregister (Connection.valid_letGo hv (c.streams t)) t (c.ids t),
    fun _ _ => rfl, fun id _ hid => hspares id fun heq => hid (by rw [heq]),
    identity_append ht.identity _, ht.orderly.snoc fun e he => by simp at he, fun u id hid => ?_⟩
  by_cases hu : u = t
  · subst hu
    simp [Connection.unsubscribe] at hid
  · simp only [Connection.unsubscribe, PerTopic.put_other _ _ hu] at hid
    have hl := ht.listens u id hid
    have hends : (Mark.unsubscribed t).ends u = false := by simp [Mark.ends, Ne.symm hu]
    exact (hl.mark hends rfl rfl).spared (hspares id (hl.other hu)) rfl

/-- What a client's message asks for, once it is read and its topic is known to be served. -/
def Incoming.wish? (r : Registry) : Incoming → Option (ClientMessage × Topic)
  | .text s =>
    match ClientMessage.ofJson s with
    | .error _ => none
    | .ok m =>
      match r.resolve m.topicId with
      | .error _ => none
      | .ok t => some (m, t)
  | _ => none

namespace Connection

/-- The marks of a message that has turned the stream `c` into `c'`. A repeated subscribe leaves
none. -/
def heard (r : Registry) (m : Incoming) (c c' : Connection) : List Mark :=
  match m.wish? r with
  | some (.subscribe _, t) =>
    if (c.streams t).isNone && (c'.streams t).isSome then [.subscribed t] else []
  | some (.unsubscribe _, t) => [.unsubscribed t]
  | none => []

def ending (c c' : Connection) : List Mark := if c.isOpen && !c'.isOpen then [.released] else []

def output (c c' : Connection) : List Mark :=
  ((c'.sent.drop c.sent.length).filterMap Outgoing.event?).map .sent

/-- The marks that any step of a stream may leave. -/
def marks (c c' : Connection) : List Mark := c.ending c' ++ c.output c'

theorem ending_same (hopen : c'.isOpen = c.isOpen) : c.ending c' = [] := by
  cases hc : c.isOpen <;> simp [ending, hopen, hc]

theorem output_same (hsent : c'.sent = c.sent) : c.output c' = [] := by
  simp [output, hsent]

theorem marks_same (hopen : c'.isOpen = c.isOpen) (hsent : c'.sent = c.sent) : c.marks c' = [] := by
  rw [marks, ending_same hopen, output_same hsent]
  rfl

theorem marks_send (c : Connection) (o : Outgoing) :
    c.marks (c.send o) = o.event?.toList.map .sent := by
  have hend : c.ending (c.send o) = [] := ending_same rfl
  rw [marks, hend]
  cases ho : o.event? <;> simp [output, send, ho]

theorem heard_none {m : Incoming} (hw : m.wish? r = none) (c c' : Connection) :
    c.heard r m c' = [] := by
  simp [heard, hw]

end Connection

/-- Whatever else a stream sends, it is not an event of the hub. -/
theorem Tracks.send (ht : Tracks r own h k c M) (hv : h.Valid) {o : Outgoing}
    (ho : o.event? = none) : Proceeds r own own h h k (c.send o) (M ++ c.marks (c.send o)) := by
  have hsend : Tracks r own h k (c.send o) M := by
    refine ht.of_streams ?_ ?_
    · rfl
    · exact fun _ _ hs => hs
  rw [Connection.marks_send, ho]
  simpa using hsend.proceeds hv

theorem Tracks.release (ht : Tracks r own h k c M) (hv : h.Valid) :
    Proceeds r own own h (c.release h).2 k (c.release h).1 (M ++ c.marks (c.release h).1) := by
  obtain ⟨hvalid, hspares⟩ := Connection.spares_release hv c
  have hmine : ∀ id, (own id).1 ≠ k → ∀ t, c.streams t ≠ some id :=
    fun id hid t => ht.not_mine fun heq => hid (by rw [heq])
  have hempty : ∀ t id, (c.release h).1.streams t ≠ some id := by
    intro t id hs
    simp [Connection.release, PerTopic.none] at hs
  have hnone : Tracks r own (c.release h).2 k (c.release h).1 M :=
    ⟨ht.identity, ht.orderly, fun t id hs => absurd hs (hempty t id)⟩
  refine ⟨hvalid, fun _ _ => rfl, fun id _ hid => hspares id (hmine id hid), ?_⟩
  have hout : c.output (c.release h).1 = [] := Connection.output_same rfl
  rw [Connection.marks, hout, List.append_nil]
  cases hc : c.isOpen with
  | false => simpa [Connection.ending, hc] using hnone
  | true =>
    have hend : c.ending (c.release h).1 = [.released] := by
      simp [Connection.ending, hc, Connection.release]
    rw [hend]
    exact hnone.mark (fun e he => by simp at he) fun t id hs => absurd hs (hempty t id)

theorem Tracks.refuse (ht : Tracks r own h k c M) (hv : h.Valid) (f : ClientFault) :
    Proceeds r own own h (c.refuse h f).2 k (c.refuse h f).1 (M ++ c.marks (c.refuse h f).1) := by
  unfold Connection.refuse
  split
  · exact ht.release hv
  · exact ht.send hv rfl

theorem Connection.streams_refuse (hnone : c.streams t = none) (h : Hub) (f : ClientFault) :
    (c.refuse h f).1.streams t = none := by
  unfold Connection.refuse
  split
  · rfl
  · exact hnone

theorem Tracks.apply (ht : Tracks r own h k c M) (hv : h.Valid) {m : Incoming} {w : ClientMessage}
    (hw : m.wish? r = some (w, t)) (hr : r.resolve w.topicId = .ok t) :
    (∃ f, c.apply r h w = (.error f, h) ∧ c.heard r m (c.refuse h f).1 = []) ∨
    ∃ c' h' own', c.apply r h w = (.ok c', h') ∧
      Proceeds r own own' h h' k c' (M ++ (c.heard r m c' ++ c.marks c')) := by
  simp only [Connection.apply, hr]
  cases w with
  | unsubscribe topicId =>
    have hheard : ∀ c', c.heard r m c' = [.unsubscribed t] := fun c' => by
      simp [Connection.heard, hw]
    refine .inr ⟨_, _, own, rfl, ?_⟩
    have hmarks : c.marks (c.unsubscribe h t).1 = [] := Connection.marks_same rfl rfl
    rw [hheard, hmarks]
    exact ht.unsubscribe hv t
  | subscribe topicId =>
    cases hst : c.streams t with
    | some id =>
      refine .inr ⟨c, h, own, by simp [Connection.subscribe, hst], ?_⟩
      have hheard : c.heard r m c = [] := by simp [Connection.heard, hw, hst]
      rw [hheard, Connection.marks_same rfl rfl]
      simpa using ht.proceeds hv
    | none =>
      cases hsub : c.subscribe h t with
      | mk answer h' =>
        cases answer with
        | error f =>
          obtain rfl := Connection.subscribe_refused hsub
          refine .inl ⟨f, rfl, ?_⟩
          simp [Connection.heard, hw, hst, Connection.streams_refuse hst]
        | ok c' =>
          obtain ⟨own', hp⟩ := ht.subscribe hv hst hsub
          obtain ⟨id, h₁, _, hc', _⟩ := Connection.subscribe_new hst hsub
          have hheard : c.heard r m c' = [.subscribed t] := by
            simp [Connection.heard, hw, hst, hc']
          refine .inr ⟨c', h', own', rfl, ?_⟩
          rw [hheard, Connection.marks_same (by rw [hc']) (by rw [hc'])]
          exact hp

theorem Tracks.receiveText (ht : Tracks r own h k c M) (hv : h.Valid)
    (position : String → Json.Error → String) (s : String) :
    let p := c.receiveText position r h s
    ∃ own', Proceeds r own own' h p.2 k p.1 (M ++ (c.heard r (.text s) p.1 ++ c.marks p.1)) := by
  unfold Connection.receiveText
  cases hread : ClientMessage.ofJson s with
  | error e =>
    have hw : (Incoming.text s).wish? r = none := by simp [Incoming.wish?, hread]
    refine ⟨own, ?_⟩
    rw [Connection.heard_none hw]
    exact ht.refuse hv _
  | ok w =>
    cases hres : r.resolve w.topicId with
    | error e =>
      have hw : (Incoming.text s).wish? r = none := by simp [Incoming.wish?, hread, hres]
      refine ⟨own, ?_⟩
      simp only [Connection.apply, hres]
      rw [Connection.heard_none hw]
      exact ht.refuse hv _
    | ok t =>
      have hw : (Incoming.text s).wish? r = some (w, t) := by simp [Incoming.wish?, hread, hres]
      rcases ht.apply hv hw hres with ⟨f, happly, hheard⟩ | ⟨c', h', own', happly, hp⟩
      · refine ⟨own, ?_⟩
        simp only [happly]
        rw [hheard]
        exact ht.refuse hv f
      · refine ⟨own', ?_⟩
        simp only [happly]
        exact hp

/-- Whatever the client sends, the stream goes on in order. -/
theorem Tracks.receive (ht : Tracks r own h k c M) (hv : h.Valid)
    (position : String → Json.Error → String) (m : Incoming) :
    let p := c.receive position r h m
    ∃ own', Proceeds r own own' h p.2 k p.1 (M ++ (c.heard r m p.1 ++ c.marks p.1)) := by
  cases m with
  | text s => exact ht.receiveText hv position s
  | binary bytes =>
    refine ⟨own, ?_⟩
    simp only [Connection.receive]
    rw [Connection.heard_none rfl, Connection.marks_same rfl rfl, List.append_nil, List.append_nil]
    exact ht.proceeds hv
  | pong bytes =>
    refine ⟨own, ?_⟩
    simp only [Connection.receive]
    rw [Connection.heard_none rfl, List.nil_append]
    split
    · exact ht.release hv
    · rw [Connection.marks_same rfl rfl, List.append_nil]
      exact ht.proceeds hv
  | ping bytes =>
    refine ⟨own, ?_⟩
    simp only [Connection.receive]
    rw [Connection.heard_none rfl, List.nil_append]
    split
    · exact ht.release hv
    · exact ht.send hv rfl
  | close =>
    refine ⟨own, ?_⟩
    simp only [Connection.receive]
    rw [Connection.heard_none rfl, List.nil_append]
    exact ht.release hv

theorem Tracks.ended (ht : Tracks r own h k c M) (hv : h.Valid) (hid : c.streams t = some id) :
    Proceeds r own own h (h.drop id) k { c with streams := c.streams.put t none } M := by
  have hspares : ∀ j, own j ≠ (k, t) → h.Spares (h.drop id) j :=
    fun j hj => Hub.spares_drop fun heq => ht.not_mine hj (heq ▸ hid)
  refine ⟨hv.drop id, fun _ _ => rfl, fun j _ hj => hspares j fun heq => hj (by rw [heq]),
    ht.identity, ht.orderly, fun u j hj => ?_⟩
  by_cases hu : u = t
  · subst hu
    simp at hj
  · simp only [PerTopic.put_other _ _ hu] at hj
    have hl := ht.listens u j hj
    exact hl.spared (hspares j (hl.other hu)) rfl

/-- What a stream sends is the next event that was queued in the period of its topic. -/
theorem Tracks.forward (ht : Tracks r own h k c M) (hv : h.Valid) (hid : c.streams t = some id)
    {e : Event} {q : List Event} (hq : h.queue id = e :: q) :
    Proceeds r own own h (h.receive id).2 k (c.send (.frame (.event e))) (M ++ [.sent e]) := by
  have hl := ht.listens t id hid
  obtain ⟨htopic, hreach⟩ := hl.waiting e (by simp [hq])
  obtain ⟨P, hP, hbalance⟩ := hl.period
  rw [hq] at hbalance
  have hspares : ∀ j, own j ≠ (k, t) → h.Spares (h.receive id).2 j :=
    fun j hj => Hub.spares_receive fun heq => ht.not_mine hj (heq ▸ hid)
  have hrest : (h.receive id).2.queue id = q := by simp [hq]
  -- The event goes from the head of the queue to the end of what was sent.
  refine ⟨hv.receive id, fun _ _ => rfl, fun j _ hj => hspares j fun heq => hj (by rw [heq]),
    identity_append ht.identity _, ht.orderly.snoc fun x hx => ?_, fun u j hj => ?_⟩
  · obtain rfl : e = x := by simpa using hx
    refine ⟨hreach, P, htopic ▸ hP, ?_⟩
    rw [htopic, ← hbalance]
    exact ⟨q, by simp⟩
  · by_cases hu : u = t
    · subst hu
      obtain rfl : id = j := by simpa [Connection.send, hid] using hj
      refine ⟨hl.owner, by simpa using hl.made, fun s hs => hl.slot s (by simpa using hs),
        fun x hx => hl.waiting x ?_, P ++ [.sent e], Mark.period_other hP rfl, ?_⟩
      · rw [hrest] at hx
        simp [hq, hx]
      · rw [hrest]
        simpa [Mark.sentOn?, Mark.queuedOn?, htopic] using hbalance
    · have hlu := ht.listens u j hj
      have hsent : (Mark.sent e).sentOn? u = none := by
        simp [Mark.sentOn?, htopic, Ne.symm hu]
      exact (hlu.mark rfl hsent rfl).spared (hspares j (hlu.other hu)) rfl

theorem Tracks.poll (ht : Tracks r own h k c M) (hv : h.Valid) (t : Topic) :
    Proceeds r own own h (c.poll h t).2 k (c.poll h t).1 (M ++ c.marks (c.poll h t).1) := by
  have hsame : c.marks c = [] := Connection.marks_same rfl rfl
  unfold Connection.poll
  cases hid : c.streams t with
  | none => simpa [hsame] using ht.proceeds hv
  | some id =>
    cases hq : h.queue id with
    | nil =>
      cases hreg : h.registered id with
      | true => simpa [Hub.receive, hq, hreg, hsame] using ht.proceeds hv
      | false =>
        have hmarks : c.marks { c with streams := c.streams.put t none } = [] :=
          Connection.marks_same rfl rfl
        simpa [Hub.receive, hq, hreg, hmarks] using ht.ended hv hid
    | cons e q =>
      have hmarks := Connection.marks_send c (.frame (.event e))
      have hp := ht.forward hv hid hq
      obtain ⟨h₁, hreceive⟩ : ∃ h₁, h.receive id = (.event e, h₁) :=
        ⟨_, Prod.ext (Hub.receive_event_iff.mpr (by simp [hq])) rfl⟩
      rw [hreceive] at hp
      simp only [hreceive]
      rw [hmarks]
      exact hp

end EventGateway
