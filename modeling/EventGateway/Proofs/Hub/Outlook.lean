import EventGateway.Proofs.Hub.Seat

/-! Subscribers do not interfere. What a subscription can be told depends on the hub's limit and its
close, and on the subscription's own seat. Calls of others and events that it is not to have leave
all of these alone. -/

namespace EventGateway

/-- A call in a run where subscriptions go by names, each given once. -/
inductive NamedOp
  | subscribe (name : String) (t : Topic) (who : Filter)
  | publish (t : Topic) (f : Filter) (e : Event)
  | receive (name : String)
  | unsubscribe (name : String) (t : Topic)
  | drop (name : String)
  | close
  deriving DecidableEq

namespace NamedOp

/-- The subscription that the call is made on. -/
def name? : NamedOp → Option String
  | subscribe name _ _ | receive name | unsubscribe name _ | drop name => some name
  | publish _ _ _ | close => none

/-- Whether the call is one on the subscription `me` to the topic for the given listener, a publish
that it is addressed by, or the close. -/
def concerns (me : String) (t : Topic) (who : Filter) : NamedOp → Bool
  | subscribe name _ _ | receive name | unsubscribe name _ | drop name => name = me
  | publish u f _ => u = t && f.admits who
  | close => true

variable {op : NamedOp} {me : String} {t : Topic} {who : Filter}

theorem concerns_of_name (hname : op.name? = some me) : op.concerns me t who = true := by
  cases op <;> simp_all [name?, concerns]

theorem name_of_concerns (hop : op.concerns me t who = true) :
    op.name? = some me ∨ op.name? = none := by
  cases op <;> simp_all [name?, concerns]

theorem name_of_unconcerned (hop : op.concerns me t who = false) :
    (∃ u f e, op = .publish u f e ∧ (u = t && f.admits who) = false) ∨
      ¬(op.name? = some me ∨ op.name? = none) := by
  cases op <;> simp_all [name?, concerns]

end NamedOp

/-- An answer without the number that a subscription happens to have. -/
def HubResult.unnumbered : HubResult → HubResult
  | .subscribed r => .subscribed (r.map fun _ => 0)
  | r => r

/-- A hub, and the numbers of the subscriptions that have a name. -/
structure Desk where
  hub : Hub
  ids : String → Option SubscriptionId

namespace Desk

def new (b : Nat) : Desk := ⟨Hub.new b, fun _ => none⟩

def make (D : Desk) (call : HubOp) : Option HubResult × Desk :=
  (some (D.hub.perform call).1, ⟨(D.hub.perform call).2, D.ids⟩)

/-- Nothing is called on a name that is not given. -/
def makeOn (D : Desk) (name : String) (call : SubscriptionId → HubOp) : Option HubResult × Desk :=
  match D.ids name with
  | some id => D.make (call id)
  | none => (none, D)

def step (D : Desk) : NamedOp → Option HubResult × Desk
  | .subscribe name t who =>
    match D.ids name, D.hub.subscribe t who with
    | some _, _ => (none, D)
    | none, (.error e, h) => (some (.subscribed (.error e)), ⟨h, D.ids⟩)
    | none, (.ok id, h) =>
      (some (.subscribed (.ok id)), ⟨h, fun n => if n = name then some id else D.ids n⟩)
  | .publish t f e => D.make (.publish t f e)
  | .receive name => D.makeOn name .receive
  | .unsubscribe name t => D.makeOn name (.unsubscribe t)
  | .drop name => D.makeOn name .drop
  | .close => D.make .close

/-- What the calls on the subscription `me` are answered. -/
def answers (me : String) (D : Desk) : List NamedOp → List (Option HubResult)
  | [] => []
  | op :: ops =>
    if op.name? = some me then
      (D.step op).1.map HubResult.unnumbered :: answers me (D.step op).2 ops
    else answers me (D.step op).2 ops

/-- The names are given to subscriptions that were made, no two to the same. -/
structure Sound (D : Desk) : Prop where
  valid : D.hub.Valid
  made : ∀ n id, D.ids n = some id → id < D.hub.mailboxes.length
  apart : ∀ n m id, D.ids n = some id → D.ids m = some id → n = m

variable {D : Desk} {op : NamedOp} {me name : String} {t : Topic} {who : Filter}

theorem sound_new (b : Nat) : (new b).Sound where
  valid := Hub.valid_new b
  made := by simp [new]
  apart := by simp [new]

theorem Sound.make (hD : D.Sound) (call : HubOp) : (D.make call).2.Sound where
  valid := hD.valid.perform call
  made n id hn := Nat.lt_of_lt_of_le (hD.made n id hn) (Hub.grows_perform D.hub call).mailboxes
  apart := hD.apart

theorem Sound.makeOn (hD : D.Sound) (name : String) (call : SubscriptionId → HubOp) :
    (D.makeOn name call).2.Sound := by
  unfold Desk.makeOn
  cases D.ids name with
  | none => exact hD
  | some id => exact hD.make (call id)

theorem step_subscribe (D : Desk) (name : String) (t : Topic) (who : Filter) :
    ((D.ids name).isSome ∧ D.step (.subscribe name t who) = (none, D)) ∨
    (∃ e, D.ids name = none ∧ D.hub.subscribe t who = (.error e, D.hub) ∧
      D.step (.subscribe name t who) = (some (.subscribed (.error e)), D)) ∨
    ∃ h, D.ids name = none ∧ D.hub.subscribe t who = (.ok D.hub.mailboxes.length, h) ∧
      D.step (.subscribe name t who) = (some (.subscribed (.ok D.hub.mailboxes.length)),
        ⟨h, fun n => if n = name then some D.hub.mailboxes.length else D.ids n⟩) := by
  cases hn : D.ids name with
  | some id => exact .inl ⟨rfl, by simp [step, hn]⟩
  | none =>
    rcases Hub.subscribe_cases D.hub t who with ⟨e, he⟩ | ⟨_, _, he⟩
    · exact .inr (.inl ⟨e, rfl, he, by simp [step, hn, he]⟩)
    · exact .inr (.inr ⟨_, rfl, he, by simp [step, hn, he]⟩)

theorem Sound.subscribe (hD : D.Sound) (name : String) (t : Topic) (who : Filter) :
    (D.step (.subscribe name t who)).2.Sound := by
  rcases step_subscribe D name t who with ⟨_, hs⟩ | ⟨e, _, _, hs⟩ | ⟨h, hn, hsub, hs⟩
  · simpa only [hs] using hD
  · simpa only [hs] using hD
  · have hv := hD.valid.subscribe t who
    have hlt := (hD.valid.subscribe_fresh hsub).2.1
    have hmade := hD.made
    have hapart := hD.apart
    rw [hsub] at hv
    rw [hs]
    refine ⟨hv, fun n id hid => ?_, fun n m id hn hm => ?_⟩
    · change (if n = name then _ else _) = _ at hid
      grind
    · change (if n = name then _ else _) = _ at hn
      change (if m = name then _ else _) = _ at hm
      grind

theorem Sound.step (hD : D.Sound) (op : NamedOp) : (D.step op).2.Sound := by
  cases op with
  | subscribe name t who => exact hD.subscribe name t who
  | publish t f e => exact hD.make (.publish t f e)
  | receive name => exact hD.makeOn name .receive
  | unsubscribe name t => exact hD.makeOn name (.unsubscribe t)
  | drop name => exact hD.makeOn name .drop
  | close => exact hD.make .close

end Desk

/-- What can be told to one subscription, seen from where it is. -/
structure Outlook where
  limit : Nat
  closed : Bool
  seat : Option Seat

namespace Outlook

def admission (o : Outlook) : Except SubscribeError SubscriptionId :=
  if o.closed then .error .closed
  else if Hub.greatestCapacity < o.limit then .error .capacity
  else .ok 0

/-- The answer to a call on the subscription itself. -/
def answer (o : Outlook) : NamedOp → Option HubResult
  | .subscribe _ _ _ => if o.seat.isSome then none else some (.subscribed o.admission)
  | .receive _ => o.seat.map fun s => .received s.next
  | .unsubscribe _ t => o.seat.map fun s => .unsubscribed (s.listed t)
  | .drop _ => o.seat.map fun _ => .done
  | .publish _ _ _ | .close => none

/-- What is left after such a call, a publish, or the close. -/
def after (o : Outlook) : NamedOp → Outlook
  | .subscribe _ t who =>
    if o.seat.isNone && o.admission.isOk then { o with seat := some (.opened t who) } else o
  | .publish t f e =>
    { o with seat := o.seat.map fun s => if o.closed then s else s.offered o.limit t f e }
  | .receive _ => { o with seat := o.seat.map .rest }
  | .unsubscribe _ t => { o with seat := o.seat.map fun s => s.without t }
  | .drop _ => { o with seat := o.seat.map .dropped }
  | .close => { o with closed := true, seat := o.seat.map .unlisted }

def answers (me : String) (o : Outlook) : List NamedOp → List (Option HubResult)
  | [] => []
  | op :: ops =>
    if op.name? = some me then o.answer op :: answers me (o.after op) ops
    else answers me (o.after op) ops

/-- The subscription is on no other topic, and for no one else. -/
def Listed (o : Outlook) (t : Topic) (who : Filter) : Prop :=
  ∀ s ∈ o.seat, ∀ p ∈ s.entries, p = (t, who)

end Outlook

namespace Desk

variable {D : Desk} {op : NamedOp} {me name : String} {t : Topic} {who : Filter}

def outlook (me : String) (D : Desk) : Outlook :=
  ⟨D.hub.capacity, D.hub.closed, (D.ids me).map D.hub.seat⟩

theorem outlook_make (D : Desk) (call : HubOp) (me : String) :
    (D.make call).2.outlook me = ⟨D.hub.capacity, D.hub.closed || call.closes,
      (D.ids me).map (D.hub.perform call).2.seat⟩ := by
  simp [outlook, make]

theorem outlook_makeOn (hD : D.Sound) (call : SubscriptionId → HubOp) (k : Seat → Seat)
    (hopen : ∀ j, (call j).closes = false)
    (hseat : ∀ j id, (D.hub.perform (call j)).2.seat id =
      if j = id then k (D.hub.seat id) else D.hub.seat id) (name me : String) :
    (D.makeOn name call).2.outlook me =
      if name = me then { D.outlook me with seat := (D.outlook me).seat.map k }
      else D.outlook me := by
  unfold Desk.makeOn
  cases hname : D.ids name with
  | none => by_cases hn : name = me <;> simp_all [outlook]
  | some j =>
    simp only [outlook_make, hopen, Bool.or_false]
    by_cases hn : name = me
    · simp [← hn, hname, hseat, outlook]
    · cases hme : D.ids me with
      | none => simp [outlook, hme, hn]
      | some id =>
        have hne : j ≠ id := fun h => hn (hD.apart _ _ _ (h ▸ hname) hme)
        simp [outlook, hme, hn, hseat, hne]

theorem subscribe_admission (h : Hub) (seat : Option Seat) (t : Topic) (who : Filter) :
    (h.subscribe t who).1.map (fun _ => 0) = (Outlook.mk h.capacity h.closed seat).admission := by
  unfold Hub.subscribe Outlook.admission
  split
  · rfl
  · split <;> rfl

theorem outlook_subscribe (hD : D.Sound) (name me : String) (t : Topic) (who : Filter) :
    (D.step (.subscribe name t who)).2.outlook me =
      if name = me then (D.outlook me).after (.subscribe name t who) else D.outlook me := by
  have hadm := subscribe_admission D.hub ((D.ids me).map D.hub.seat) t who
  rcases step_subscribe D name t who with ⟨hn, hs⟩ | ⟨e, hn, hsub, hs⟩ | ⟨h, hn, hsub, hs⟩
  · have hkept : name = me → (D.outlook me).after (.subscribe name t who) = D.outlook me := by
      rintro rfl
      simp [Outlook.after, outlook, Option.isSome_iff_ne_none.mp hn]
    rw [hs]
    split
    next hme => rw [hkept hme]
    next => rfl
  · have hkept : (D.outlook me).after (.subscribe name t who) = D.outlook me := by
      have hrefused : (D.outlook me).admission.isOk = false := by
        rw [hsub] at hadm
        exact congrArg Except.isOk hadm.symm
      simp [Outlook.after, hrefused]
    rw [hs, hkept, ite_self]
  · have hcap : h.capacity = D.hub.capacity := by
      have hcap := Hub.capacity_perform D.hub (.subscribe t who)
      rwa [Hub.perform, hsub] at hcap
    have hclosed : h.closed = D.hub.closed := by
      have hclosed := Hub.closed_perform D.hub (.subscribe t who)
      simpa [Hub.perform, hsub, HubOp.closes] using hclosed
    rw [hs]
    split
    next hme =>
      subst hme
      have hgranted : (D.outlook name).admission.isOk = true := by
        rw [hsub] at hadm
        exact congrArg Except.isOk hadm.symm
      have hseat := Hub.seat_subscribed hD.valid hsub
      simp only [Outlook.after, hgranted]
      simp [outlook, hn, hcap, hclosed, hseat]
    next hme =>
      have hseat id (hid : D.ids me = some id) : h.seat id = D.hub.seat id := by
        have hseat := Hub.seat_subscribe (hD.made me id hid) t who
        rwa [hsub] at hseat
      have hmap : (D.ids me).map h.seat = (D.ids me).map D.hub.seat :=
        Option.map_congr fun id hid => hseat id hid
      simp [outlook, Ne.symm hme, hcap, hclosed, hmap]

theorem outlook_step (hD : D.Sound) (op : NamedOp) (me : String) :
    (D.step op).2.outlook me =
      if op.name? = some me ∨ op.name? = none then (D.outlook me).after op else D.outlook me := by
  cases op with
  | subscribe name t who => simpa [NamedOp.name?] using outlook_subscribe hD name me t who
  | publish t f e =>
    have hseat : (D.hub.publish t f e).2.seat = fun id => if D.hub.closed then D.hub.seat id
        else (D.hub.seat id).offered D.hub.capacity t f e :=
      funext (Hub.seat_publish hD.valid t f e)
    have hmade := outlook_make D (.publish t f e) me
    simp only [Hub.perform, HubOp.closes, hseat, Bool.or_false] at hmade
    refine hmade.trans ?_
    simp only [NamedOp.name?, reduceCtorEq, or_true, if_true, Outlook.after, outlook,
      Option.map_map]
    rfl
  | receive name =>
    have hmade := outlook_makeOn hD .receive .rest (fun _ => rfl) (Hub.seat_receive D.hub) name me
    simp only [NamedOp.name?, reduceCtorEq, or_false, Option.some.injEq]
    exact hmade
  | unsubscribe name t =>
    have hmade := outlook_makeOn hD (.unsubscribe t) (fun s => s.without t) (fun _ => rfl)
      (Hub.seat_unsubscribe D.hub t) name me
    simp only [NamedOp.name?, reduceCtorEq, or_false, Option.some.injEq]
    exact hmade
  | drop name =>
    have hmade := outlook_makeOn hD .drop .dropped (fun _ => rfl) (Hub.seat_drop D.hub) name me
    simp only [NamedOp.name?, reduceCtorEq, or_false, Option.some.injEq]
    exact hmade
  | close =>
    have hseat : D.hub.close.seat = fun id => (D.hub.seat id).unlisted :=
      funext (Hub.seat_close hD.valid)
    have hmade := outlook_make D .close me
    simp only [Hub.perform, HubOp.closes, hseat, Bool.or_true] at hmade
    refine hmade.trans ?_
    simp [NamedOp.name?, Outlook.after, outlook, Function.comp_def]

theorem answer_makeOn (name : String) (call : SubscriptionId → HubOp) (r : Seat → HubResult)
    (hanswer : ∀ id, (D.hub.perform (call id)).1.unnumbered = r (D.hub.seat id)) :
    (D.makeOn name call).1.map HubResult.unnumbered = (D.outlook name).seat.map r := by
  unfold Desk.makeOn
  cases hname : D.ids name with
  | none => simp [outlook, hname]
  | some id => simp [outlook, hname, make, hanswer]

theorem answer_step (hop : op.name? = some me) :
    (D.step op).1.map HubResult.unnumbered = (D.outlook me).answer op := by
  cases op with
  | subscribe name t who =>
    obtain rfl : name = me := Option.some.inj hop
    have hadm := subscribe_admission D.hub ((D.ids name).map D.hub.seat) t who
    rcases step_subscribe D name t who with ⟨hn, hs⟩ | ⟨e, hn, hsub, hs⟩ | ⟨h, hn, hsub, hs⟩
    · simp [hs, Outlook.answer, outlook, hn]
    · rw [hsub] at hadm
      rw [hs, Outlook.answer, outlook, ← hadm]
      simp [hn, HubResult.unnumbered]
    · rw [hsub] at hadm
      rw [hs, Outlook.answer, outlook, ← hadm]
      simp [hn, HubResult.unnumbered]
  | receive name =>
    obtain rfl : name = me := Option.some.inj hop
    exact answer_makeOn name .receive (fun s => .received s.next) fun id =>
      congrArg HubResult.received (Hub.receive_seat D.hub id)
  | unsubscribe name t =>
    obtain rfl : name = me := Option.some.inj hop
    exact answer_makeOn name (.unsubscribe t) (fun s => .unsubscribed (s.listed t)) fun id =>
      congrArg HubResult.unsubscribed (Hub.unsubscribe_seat D.hub t id)
  | drop name =>
    obtain rfl : name = me := Option.some.inj hop
    exact answer_makeOn name .drop (fun _ => .done) fun _ => rfl
  | publish t f e => cases hop
  | close => cases hop

end Desk

namespace Outlook

variable {o : Outlook} {op : NamedOp} {me : String} {t : Topic} {who : Filter}

theorem Listed.map (ho : o.Listed t who) {k : Seat → Seat}
    (hk : ∀ s, ∀ p ∈ (k s).entries, p ∈ s.entries) (limit : Nat) (closed : Bool) :
    (Outlook.mk limit closed (o.seat.map k)).Listed t who := by
  intro s' hs' p hp
  obtain ⟨s, hs, rfl⟩ := Option.map_eq_some_iff.mp hs'
  exact ho s hs p (hk s p hp)

theorem Listed.after (ho : o.Listed t who)
    (hop : ∀ n u f, op = .subscribe n u f → u = t ∧ f = who) : (o.after op).Listed t who := by
  cases op with
  | subscribe n u f =>
    obtain ⟨rfl, rfl⟩ := hop n u f rfl
    simp only [Outlook.after]
    split
    · intro s hs p hp
      obtain rfl : Seat.opened u f = s := Option.some.inj hs
      exact List.mem_singleton.mp hp
    · exact ho
  | publish u f e =>
    refine ho.map (fun s p hp => ?_) _ _
    split at hp
    · exact hp
    · exact (List.mem_filter.mp hp).1
  | receive _ => exact ho.map (k := Seat.rest) (fun _ _ hp => hp) _ _
  | unsubscribe _ u =>
    exact ho.map (k := fun s => s.without u) (fun _ _ hp => (List.mem_filter.mp hp).1) _ _
  | drop _ => exact ho.map (k := Seat.dropped) (fun _ _ hp => hp) _ _
  | close => exact ho.map (k := Seat.unlisted) (fun _ _ hp => absurd hp List.not_mem_nil) _ _

/-- A publish that the subscription is not addressed by does nothing to it. -/
theorem after_unaddressed (ho : o.Listed t who) {u : Topic} {f : Filter} (e : Event)
    (hu : (u = t && f.admits who) = false) : o.after (.publish u f e) = o := by
  have hseat : (o.seat.map fun s => if o.closed then s else s.offered o.limit u f e) = o.seat := by
    cases hs : o.seat with
    | none => rfl
    | some s =>
      -- No registration is addressed, so that none is delivered to or pruned.
      have hno : ∀ p ∈ s.entries, Seat.addressed u f p = false := by
        intro p hp
        rw [ho s hs p hp, ← hu]
        simp [Seat.addressed, eq_comm]
      have hany : s.entries.any (Seat.addressed u f) = false := by simpa using hno
      have hkept : (s.entries.filter fun p => s.held || !Seat.addressed u f p) = s.entries :=
        List.filter_eq_self.mpr fun p hp => by simp [hno p hp]
      simp [Seat.offered, hany, hkept]
  simp only [Outlook.after, hseat]

end Outlook

namespace Desk

variable {D : Desk} {op : NamedOp} {me name : String} {t : Topic} {who : Filter}

theorem outlook_unconcerned (hD : D.Sound) (ho : (D.outlook me).Listed t who)
    (hop : op.concerns me t who = false) : (D.step op).2.outlook me = D.outlook me := by
  rw [outlook_step hD]
  rcases NamedOp.name_of_unconcerned hop with ⟨u, f, e, rfl, hu⟩ | hother
  · rw [if_pos (.inr rfl), Outlook.after_unaddressed ho e hu]
  · exact if_neg hother

/-- The answers are read off the calls that concern the subscription. -/
theorem answers_outlook (hD : D.Sound) (ho : (D.outlook me).Listed t who) {ops : List NamedOp}
    (hme : ∀ u f, .subscribe me u f ∈ ops → u = t ∧ f = who) :
    answers me D ops = (D.outlook me).answers me (ops.filter (·.concerns me t who)) := by
  -- Along the run the desk stays sound and the seat stays listed for this topic and listener alone.
  induction ops generalizing D with
  | nil => rfl
  | cons op ops ih =>
    have hrest u f (hmem : .subscribe me u f ∈ ops) := hme u f (List.mem_cons_of_mem _ hmem)
    cases hop : op.concerns me t who with
    | false =>
      have hkept := outlook_unconcerned hD ho hop
      have hname : op.name? ≠ some me := fun hname =>
        Bool.false_ne_true (hop.symm.trans (NamedOp.concerns_of_name hname))
      rw [answers, if_neg hname, List.filter_cons_of_neg (hop ▸ Bool.false_ne_true),
        ih (hD.step op) (hkept ▸ ho) hrest, hkept]
    | true =>
      have hstep : (D.step op).2.outlook me = (D.outlook me).after op := by
        rw [outlook_step hD, if_pos (NamedOp.name_of_concerns hop)]
      have hlisted : ((D.outlook me).after op).Listed t who := by
        refine ho.after fun n u f hsub => ?_
        subst hsub
        obtain rfl : n = me := by simpa [NamedOp.concerns] using hop
        exact hme u f List.mem_cons_self
      rw [List.filter_cons_of_pos hop, answers, Outlook.answers]
      split
      next hname => rw [answer_step hname, ih (hD.step op) (hstep ▸ hlisted) hrest, hstep]
      next => rw [ih (hD.step op) (hstep ▸ hlisted) hrest, hstep]

/-- Two runs that do not differ in what concerns a subscription answer its calls alike. -/
theorem answers_undisturbed (b : Nat) {A B : List NamedOp}
    (hme : ∀ u f, .subscribe me u f ∈ A → u = t ∧ f = who)
    (hsame : A.filter (·.concerns me t who) = B.filter (·.concerns me t who)) :
    answers me (new b) A = answers me (new b) B := by
  have hlisted : ((new b).outlook me).Listed t who := by simp [Outlook.Listed, outlook, new]
  have hme' u f (hmem : .subscribe me u f ∈ B) : u = t ∧ f = who := by
    have hfilter : .subscribe me u f ∈ B.filter (·.concerns me t who) :=
      List.mem_filter.mpr ⟨hmem, by simp [NamedOp.concerns]⟩
    rw [← hsame] at hfilter
    exact hme u f (List.mem_filter.mp hfilter).1
  rw [answers_outlook (sound_new b) hlisted hme, answers_outlook (sound_new b) hlisted hme', hsame]

def inSession (session : String) : Filter := ⟨some session, none⟩

def alone : List NamedOp :=
  [.subscribe "me" .session (inSession "S1"), .publish .session {} (.new .sessionExpired),
    .receive "me", .close, .receive "me"]

/-- The neighbour never takes anything, and is dropped before the close. -/
def crowded : List NamedOp :=
  [.subscribe "neighbour" .session (inSession "S2"),
    .publish .session (inSession "S2") (.scopedTo .sessionExpired (some "S2") none),
    .subscribe "me" .session (inSession "S1"),
    .publish .session (inSession "S2") (.scopedTo .sessionExpired (some "S2") none),
    .publish .session {} (.new .sessionExpired), .drop "neighbour",
    .publish .serverConfig {} (.new .configurationChanged), .receive "me",
    .publish .session (inSession "S2") (.scopedTo .sessionExpired (some "S2") none), .close,
    .receive "me"]

theorem answers_undisturbed_crowded :
    (∀ u f, .subscribe "me" u f ∈ alone → u = .session ∧ f = inSession "S1") ∧
    alone.filter (·.concerns "me" .session (inSession "S1")) =
      crowded.filter (·.concerns "me" .session (inSession "S1")) ∧
    answers "me" (new 1) crowded = [some (.subscribed (.ok 0)),
      some (.received (.event (.new .sessionExpired))), some (.received .ended)] := by
  have hme : ∀ u f, .subscribe "me" u f ∈ alone → u = .session ∧ f = inSession "S1" := by
    simp [alone]
  have hsame : alone.filter (·.concerns "me" .session (inSession "S1")) =
      crowded.filter (·.concerns "me" .session (inSession "S1")) := by
    decide
  have halone : answers "me" (new 1) alone = [some (.subscribed (.ok 0)),
      some (.received (.event (.new .sessionExpired))), some (.received .ended)] := by
    decide
  exact ⟨hme, hsame, (answers_undisturbed 1 hme hsame).symm.trans halone⟩

end Desk

end EventGateway
