import EventGateway.Publisher
import EventGateway.Proofs.Outcome
import EventGateway.Proofs.Stream.Steps

/-! The registry decides, and everyone who asks it is told the same: the publisher for an event, a
stream for the name that its client gives, the program at its start for a kind of event. -/

namespace EventGateway

/-- A transport that notes each call that is made on it. -/
def Transport.noting {σ : Type} (send : Transport σ) :
    Transport (σ × List (Topic × Filter × Event)) :=
  fun t f e w => ((send t f e w.1).1, (send t f e w.1).2, w.2 ++ [(t, f, e)])

namespace Registry

variable {r : Registry} {ks : List Kind} {k : Kind} {t : Topic}

theorem resolve_ok {name : String} :
    r.resolve name = .ok t ↔ r.contains t = true ∧ t.name = name := by
  rw [← Topic.ofName_ok, resolve]
  cases Topic.ofName name with
  | error e => exact iff_of_false nofun fun h => nomatch h.2
  | ok u =>
    by_cases hu : r.contains u = true
    · simp only [hu, if_true, Except.ok.injEq]
      exact ⟨fun h => ⟨h ▸ hu, h⟩, And.right⟩
    · simp only [hu, Except.ok.injEq]
      exact iff_of_false nofun fun h => hu (h.2 ▸ h.1)

/-- A name fails to resolve exactly when no enabled topic has it. -/
theorem resolve_error {name : String} {x : InvalidTopic} : r.resolve name = .error x ↔
    (∀ t, r.contains t = true → t.name ≠ name) ∧ x = ⟨name⟩ := by
  cases h : r.resolve name with
  | ok t =>
    obtain ⟨ht, hname⟩ := resolve_ok.mp h
    exact iff_of_false nofun fun hno => hno.1 t ht hname
  | error y =>
    have hno (t : Topic) (ht : r.contains t = true) : t.name ≠ name :=
      fun hname => nomatch h.symm.trans (resolve_ok.mpr ⟨ht, hname⟩)
    obtain rfl : y = ⟨name⟩ := by
      unfold resolve at h
      split at h
      next e he =>
        obtain ⟨hname, _⟩ := Topic.ofName_error.mp he
        rw [← Except.error.inj h, ← hname]
      next t he =>
        split at h
        · exact nomatch h
        · exact (Except.error.inj h).symm
    exact ⟨fun h => ⟨hno, (Except.error.inj h).symm⟩, fun h => congrArg Except.error h.2.symm⟩

/-- To resolve a name is to search the enabled topics for it. -/
theorem resolve_eq (r : Registry) (name : String) :
    r.resolve name = match r.topics.find? fun t => t.name = name with
      | some t => .ok t
      | none => .error ⟨name⟩ := by
  cases hf : r.topics.find? fun t => t.name = name with
  | none =>
    refine resolve_error.mpr ⟨fun t ht => ?_, rfl⟩
    simpa using List.find?_eq_none.mp hf t (mem_topics.mpr ht)
  | some t =>
    have hname : t.name = name := by simpa using List.find?_some hf
    exact resolve_ok.mpr ⟨mem_topics.mp (List.mem_of_find?_eq_some hf), hname⟩

theorem resolve_name (r : Registry) (t : Topic) :
    r.resolve t.name = if r.contains t then .ok t else .error ⟨t.name⟩ := by
  simp [resolve, Topic.ofName]

theorem resolve_fails : (∃ x, r.resolve t.name = .error x) ↔ r.contains t = false := by
  rw [resolve_name]
  cases r.contains t <;> simp

theorem ofNames_names (ts : List Topic) : ofNames (ts.map Topic.name) = .ok (ofTopics ts) := by
  have hnames : (ts.map Topic.name).mapM Topic.ofName = .ok ts := by
    induction ts with
    | nil => rfl
    | cons t ts ih =>
      rw [List.map_cons, List.mapM_cons, ih]
      simp [Topic.ofName, bind, Except.bind, pure, Except.pure]
  rw [ofNames, hnames]
  rfl

section Publishing

variable {σ : Type} {send : Transport σ} {e : Event}

theorem publish_enabled (hr : r.contains e.topic = true) (send : Transport σ) (s : σ) :
    r.publish send e s = ((send e.topic (Filter.ofEvent e) e s).1.mapError .delivery,
      (send e.topic (Filter.ofEvent e) e s).2) := by
  simp [publish, hr]

theorem publish_disabled (hr : r.contains e.topic = false) (send : Transport σ) (s : σ) :
    r.publish send e s = (.error (.unknownTopic e.topic), s) := by
  simp [publish, hr]

/-- A transport has no way to say that a topic is unknown. -/
theorem publish_unknown {s : σ} :
    (∃ u, (r.publish send e s).1 = .error (.unknownTopic u)) ↔ r.contains e.topic = false := by
  cases hr : r.contains e.topic with
  | false => simp [publish_disabled hr]
  | true =>
    rw [publish_enabled hr]
    cases (send e.topic (Filter.ofEvent e) e s).1 <;> simp [Except.mapError]

end Publishing

/-- Some event of the kind can be refused for its topic. -/
def CanRefuse (r : Registry) (k : Kind) : Prop :=
  ∃ (e : Event) (σ : Type) (send : Transport σ) (s : σ) (u : Topic),
    e.kind = k ∧ (r.publish send e s).1 = .error (.unknownTopic u)

theorem exists_payload (k : Kind) : ∃ p : Payload, p.kind = k := by
  cases k with
  | configurationChanged => exact ⟨.configurationChanged, rfl⟩
  | taskInfoUpdated => exact ⟨.taskInfo ⟨"T", none, true, by decide⟩, rfl⟩
  | sessionExpired => exact ⟨.sessionExpired, rfl⟩
  | sessionState => exact ⟨.sessionState ⟨0, 0, true⟩, rfl⟩
  | sessionLogUpdated => exact ⟨.sessionLogUpdated, rfl⟩

theorem canRefuse_iff : r.CanRefuse k ↔ r.contains k.topic = false := by
  constructor
  · rintro ⟨e, σ, send, s, u, rfl, hrefused⟩
    exact publish_unknown.mp ⟨u, hrefused⟩
  · intro hr
    obtain ⟨p, rfl⟩ := exists_payload k
    have hrefused : r.publish Hub.transport (.new p) (Hub.new 1) =
        (.error (.unknownTopic p.kind.topic), Hub.new 1) := publish_disabled hr _ _
    exact ⟨.new p, Hub, Hub.transport, Hub.new 1, p.kind.topic, rfl, congrArg Prod.fst hrefused⟩

theorem ensureKinds_ok : r.ensureKinds ks = .ok () ↔ ∀ k ∈ ks, r.contains k.topic = true := by
  unfold ensureKinds
  split
  next k hk =>
    have hfound := List.find?_some hk
    refine iff_of_false (by simp) fun hall => ?_
    simp [hall k (List.mem_of_find?_eq_some hk)] at hfound
  next hnone => simpa using hnone

/-- The check names the first kind whose topic is missing. -/
theorem ensureKinds_error {x : InvalidTopic} : r.ensureKinds ks = .error x ↔
    ∃ before k after, ks = before ++ k :: after ∧ (∀ j ∈ before, r.contains j.topic = true) ∧
      r.contains k.topic = false ∧ x = ⟨k.topic.name ++ " (required by " ++ k.id ++ ")"⟩ := by
  unfold ensureKinds
  constructor
  · intro herror
    split at herror
    next k hk =>
      obtain rfl := Except.error.inj herror
      obtain ⟨hmissing, before, after, hks, hbefore⟩ := List.find?_eq_some_iff_append.mp hk
      exact ⟨before, k, after, hks, by simpa using hbefore, by simpa using hmissing, rfl⟩
    next => exact nomatch herror
  · rintro ⟨before, k, after, hks, hbefore, hmissing, rfl⟩
    have hfind : ks.find? (fun k => !r.contains k.topic) = some k :=
      List.find?_eq_some_iff_append.mpr ⟨by simpa using hmissing, before, after, hks,
        by simpa using hbefore⟩
    rw [hfind]

end Registry

namespace Connection

variable {c : Connection} {h : Hub} {r : Registry} {t : Topic}

theorem sent_subscribe {c' : Connection} {h' : Hub} (hsub : c.subscribe h t = (.ok c', h')) :
    c'.sent = c.sent := by
  cases hs : c.streams t with
  | some id =>
    simp only [subscribe, hs, Prod.mk.injEq, Except.ok.injEq] at hsub
    rw [← hsub.1]
  | none =>
    obtain ⟨id, h₁, -, rfl, -⟩ := subscribe_new hs hsub
    rfl

theorem subscribe_fault {f : ClientFault} {h' : Hub} (hsub : c.subscribe h t = (.error f, h')) :
    ∃ e, f = .subscribe e := by
  unfold subscribe at hsub
  split at hsub
  · simp at hsub
  · split at hsub
    next e _ _ => exact ⟨e, (Except.error.inj (Prod.mk.inj hsub).1).symm⟩
    next => simp at hsub

/-- What a stream does with a message that names a topic. -/
inductive Answered (r : Registry) (c : Connection) (h : Hub) (t : Topic) : Connection × Hub → Prop
  | unknown (hr : r.contains t = false) :
    Answered r c h t (c.send (.frame (.notice (ClientFault.topic ⟨t.name⟩).notice)), h)
  | refused (hr : r.contains t = true) (h' : Hub) :
    Answered r c h t (c.send (.frame (.notice (ClientFault.subscribe .closed).notice)), h')
  | silent (hr : r.contains t = true) {c' : Connection} (hsent : c'.sent = c.sent) (h' : Hub) :
    Answered r c h t (c', h')

theorem answered_receiveText {text : String} {m : ClientMessage}
    (hm : ClientMessage.ofJson text = .ok m) (hname : m.topicId = t.name)
    (position : String → Json.Error → String) (r : Registry) (c : Connection) (h : Hub) :
    Answered r c h t (c.receiveText position r h text) := by
  have hresolve : r.resolve m.topicId = if r.contains t then .ok t else .error ⟨t.name⟩ :=
    hname ▸ r.resolve_name t
  cases hr : r.contains t with
  | false =>
    simp only [receiveText, hm, apply, hresolve, hr]
    exact .unknown hr
  | true =>
    simp only [receiveText, hm, apply, hresolve, hr, if_true]
    cases m with
    | unsubscribe name =>
      have hsent : (c.unsubscribe h t).1.sent = c.sent := rfl
      exact .silent hr hsent (c.unsubscribe h t).2
    | subscribe name =>
      rcases hsub : c.subscribe h t with ⟨f | c', h'⟩
      · obtain ⟨e, rfl⟩ := subscribe_fault hsub
        cases e with
        | closed => exact .refused hr h'
        | capacity =>
          have hsent : (c.release h').1.sent = c.sent := rfl
          exact .silent hr hsent (c.release h').2
      · exact .silent hr (sent_subscribe hsub) h'

theorem text_subscribe_ne (e : SubscribeError) (x : InvalidTopic) :
    (ClientFault.subscribe e).text ≠ x.message := by
  intro h
  have hhead : "transport is closed".toList.head? = ("invalid topic: " ++ x.name).toList.head? :=
    congrArg (fun s => s.toList.head?) h
  have hfirst : "transport is closed".toList.head? = some 't' := by decide
  have hsecond : "invalid topic: ".toList.head? = some 'i' := by decide
  rw [String.toList_append, List.head?_append, hfirst, hsecond] at hhead
  simp at hhead

/-- A client is told that its topic is invalid if and only if the name does not resolve. -/
theorem Answered.told {p : Connection × Hub} (hp : Answered r c h t p) :
    (∃ x : InvalidTopic, p.1.sent = c.sent ++ [.frame (.notice ⟨x.message⟩)]) ↔
      r.contains t = false := by
  cases hp with
  | unknown hr => exact iff_of_true ⟨⟨t.name⟩, rfl⟩ hr
  | refused hr h' =>
    refine iff_of_false ?_ (by simp [hr])
    rintro ⟨x, hx⟩
    have hlast := List.append_cancel_left hx
    simp only [List.cons.injEq, Outgoing.frame.injEq, Frame.notice.injEq, and_true] at hlast
    exact text_subscribe_ne .closed x (congrArg Notice.message hlast)
  | silent hr hsent h' =>
    refine iff_of_false ?_ (by simp [hr])
    rintro ⟨x, hx⟩
    simp [hsent] at hx

theorem Answered.disabled {p : Connection × Hub} (hp : Answered r c h t p)
    (hr : r.contains t = false) :
    p = (c.send (.frame (.notice (ClientFault.topic ⟨t.name⟩).notice)), h) := by
  cases hp with
  | unknown _ => rfl
  | refused hr' | silent hr' => exact absurd (hr.symm.trans hr') Bool.false_ne_true

end Connection

end EventGateway
