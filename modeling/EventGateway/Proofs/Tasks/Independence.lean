import EventGateway.Proofs.Service.Ledger

/-! Operations on different tasks do not know of each other. All of them draw on one counter of
generations, so that two orders of the same operations leave different tables, but of a task nothing
is ever told besides its owner. -/

namespace EventGateway

def QuietOp.id : QuietOp → String
  | started id _ _ | info id _ _ | owner id | sessionOf id | abandon id => id

/-- The task that an operation is about, which a publish is not. -/
def TaskOp.id? : TaskOp → Option String
  | quiet op => some op.id
  | publish _ => none
  | start id _ _ _ | report id _ _ => some id

variable {σ : Type}

/-- What the transport answers goes by the event alone, and it does not touch the tasks. Of its own
state it may do with what it likes. -/
structure Impartial (answer : Event → Except DeliveryError Accepted)
    (send : Transport (σ × Tasks)) : Prop where
  answers : ∀ topic f e w, (send topic f e w).1 = answer e
  keeps : ∀ topic f e w, (send topic f e w).2.2 = w.2

namespace Registry

def answer (g : Registry) (answer : Event → Except DeliveryError Accepted) (e : Event) :
    Except PublishError Accepted :=
  if g.contains e.topic then (answer e).mapError .delivery else .error (.unknownTopic e.topic)

theorem publish_impartial {answer : Event → Except DeliveryError Accepted}
    {send : Transport (σ × Tasks)} (hsend : Impartial answer send) (g : Registry) (e : Event)
    (w : σ × Tasks) : ∃ s, g.publish send e w = (g.answer answer e, s, w.2) := by
  have hanswer := hsend.answers e.topic (Filter.ofEvent e) e w
  have hkeeps := hsend.keeps e.topic (Filter.ofEvent e) e w
  unfold publish Registry.answer
  split
  · exact ⟨(send e.topic (Filter.ofEvent e) e w).2.1, by rw [← hanswer, ← hkeeps]⟩
  · exact ⟨w.1, rfl⟩

end Registry

/-- The run is about one task. By the owner of the task it is settled what comes of it and who owns
the task then, and the other tasks keep their owners. -/
def Local {α : Type} (id : String) (run : σ × Tasks → α × σ × Tasks) : Prop :=
  ∀ before, ∃ result after, ∀ w, w.2.owner? id = before →
    (run w).1 = result ∧ (run w).2.2.owner? = TaskMap.put w.2.owner? id after

namespace Tasks

/-- Why a task may not be registered. -/
def refusal? (id sessionId : String) (owner : Option Owner) : Option TaskError :=
  if id = "" then some .emptyTaskId
  else if sessionId = "" then some .emptySessionId
  else owner.map fun o => .stale id o.sessionId

theorem free_of_refusal? {id sessionId : String} {owner : Option Owner}
    (h : refusal? id sessionId owner = none) : id ≠ "" ∧ sessionId ≠ "" ∧ owner = none := by
  unfold refusal? at h
  split at h
  · exact nomatch h
  next hid =>
    split at h
    · exact nomatch h
    next hs => exact ⟨hid, hs, Option.map_eq_none_iff.mp h⟩

theorem find?_of_owner? {t : Tasks} {id : String} {o : Owner} (h : t.owner? id = some o) :
    ∃ r, t.find? id = some r ∧ r.owner = o := Option.map_eq_some_iff.mp h

theorem find?_of_free {t : Tasks} {id : String} (h : t.owner? id = none) : t.find? id = none :=
  Option.map_eq_none_iff.mp h

theorem register_refused {t : Tasks} {id sessionId : String} {e : TaskError}
    (h : refusal? id sessionId (t.owner? id) = some e) (userId : Option String) :
    t.register id sessionId userId = (.error e, t) := by
  unfold refusal? at h
  unfold register
  split at h
  next hid =>
    obtain rfl := Option.some.inj h
    rw [if_pos hid]
  next hid =>
    rw [if_neg hid]
    split at h
    next hs =>
      obtain rfl := Option.some.inj h
      rw [if_pos hs]
    next hs =>
      rw [if_neg hs]
      obtain ⟨o, ho, rfl⟩ := Option.map_eq_some_iff.mp h
      obtain ⟨r, hf, rfl⟩ := find?_of_owner? ho
      rw [hf]

theorem register_free {t : Tasks} {id sessionId : String}
    (h : refusal? id sessionId (t.owner? id) = none) (userId : Option String) :
    t.register id sessionId userId = (.ok ⟨⟨sessionId, nonEmpty? userId⟩, t.next⟩,
      ⟨(id, ⟨⟨sessionId, nonEmpty? userId⟩, t.next⟩) :: t.entries, t.next + 1⟩) := by
  obtain ⟨hid, hs, ho⟩ := free_of_refusal? h
  rw [register, if_neg hid, if_neg hs, find?_of_free ho]

theorem put_owner? {t : Tasks} {id : String} {before : Option Owner} (h : t.owner? id = before) :
    t.owner? = TaskMap.put t.owner? id before := by
  funext j
  unfold TaskMap.put
  split
  next hj => rw [hj, h]
  next => rfl

theorem local_quiet (op : QuietOp) :
    Local op.id fun w : σ × Tasks => ((w.2.quiet op).1, w.1, (w.2.quiet op).2) := by
  intro before
  cases op with
  | started id sessionId userId =>
    cases hr : refusal? id sessionId before with
    | some e =>
      refine ⟨.started (.error e), before, fun w ho => ?_⟩
      have hregister := register_refused (ho.symm ▸ hr) userId
      simp only [quiet, hregister]
      exact ⟨rfl, put_owner? ho⟩
    | none =>
      refine ⟨.started (.ok ()), some ⟨sessionId, nonEmpty? userId⟩, fun w ho => ?_⟩
      have hregister := register_free (ho.symm ▸ hr) userId
      simp only [quiet, hregister]
      exact ⟨rfl, funext fun j => owner?_made w.2 id _ _ j⟩
  | info id statusName running =>
    cases before with
    | none =>
      refine ⟨.info (.error (.unknown id)), none, fun w ho => ⟨?_, put_owner? ho⟩⟩
      have hf : w.2.find? id = none := find?_of_free ho
      simp only [quiet, taskInfo, hf]
    | some o =>
      refine ⟨.info (statusEvent id o statusName running), some o, fun w ho => ⟨?_, put_owner? ho⟩⟩
      obtain ⟨r, hf, rfl⟩ : ∃ r, w.2.find? id = some r ∧ r.owner = o := find?_of_owner? ho
      simp only [quiet, taskInfo, hf]
  | owner id =>
    exact ⟨.owner before, before, fun w ho => ⟨congrArg QuietResult.owner ho, put_owner? ho⟩⟩
  | sessionOf id =>
    refine ⟨.session (before.map Owner.sessionId), before, fun w ho => ⟨?_, put_owner? ho⟩⟩
    exact congrArg (fun o => QuietResult.session (o.map Owner.sessionId)) ho
  | abandon id =>
    refine ⟨.abandoned before, none, fun w ho => ⟨congrArg QuietResult.abandoned ho, ?_⟩⟩
    exact funext fun j => owner?_erase w.2 id j

variable {answer : Event → Except DeliveryError Accepted} {send : Transport (σ × Tasks)}

theorem local_start (hsend : Impartial answer send) (g : Registry) (id sessionId : String)
    (userId statusName : Option String) : Local id fun w : σ × Tasks =>
      start (g.publish send) id sessionId userId statusName w.1 w.2 := by
  intro before
  cases hr : refusal? id sessionId before with
  | some e =>
    refine ⟨.error e, before, fun w ho => ?_⟩
    have hregister := register_refused (ho.symm ▸ hr) userId
    simp only [start, beginStart, hregister]
    exact ⟨trivial, put_owner? ho⟩
  | none =>
    obtain ⟨hid, _, rfl⟩ := free_of_refusal? hr
    obtain ⟨e, he, _⟩ := statusEvent_ok hid ⟨sessionId, nonEmpty? userId⟩ statusName true
    cases ha : g.answer answer e with
    | ok a =>
      refine ⟨.ok a, some ⟨sessionId, nonEmpty? userId⟩, fun w ho => ?_⟩
      have hregister := register_free (ho.symm ▸ hr) userId
      obtain ⟨s, hp⟩ := g.publish_impartial hsend e (w.1, (w.2.register id sessionId userId).2)
      rw [hregister] at hp
      simp only [start, beginStart, hregister, he, Except.map, hp, ha, endStart]
      exact ⟨trivial, funext fun j => owner?_made w.2 id _ _ j⟩
    | error x =>
      refine ⟨.error (.publish x), none, fun w ho => ?_⟩
      have hregister := register_free (ho.symm ▸ hr) userId
      obtain ⟨s, hp⟩ := g.publish_impartial hsend e (w.1, (w.2.register id sessionId userId).2)
      rw [hregister] at hp
      simp only [start, beginStart, hregister, he, Except.map, hp, ha, endStart]
      refine ⟨trivial, ?_⟩
      rw [← put_owner? ho]
      exact funext fun j => owner?_taken_back (find?_of_free ho) _ _ j

theorem local_report (hsend : Impartial answer send) (g : Registry) (id : String)
    (statusName : Option String) (running : Bool) : Local id fun w : σ × Tasks =>
      report (g.publish send) id statusName running w.1 w.2 := by
  intro before
  cases before with
  | none =>
    refine ⟨.error (.unknown id), none, fun w ho => ?_⟩
    simp only [report, beginReport, find?_of_free ho]
    exact ⟨trivial, put_owner? ho⟩
  | some o =>
    cases hevent : statusEvent id o statusName running with
    | error e =>
      refine ⟨.error e, some o, fun w ho => ?_⟩
      obtain ⟨r, hf, rfl⟩ := find?_of_owner? ho
      simp only [report, beginReport, hf, hevent, Except.map]
      exact ⟨trivial, put_owner? ho⟩
    | ok e =>
      cases ha : g.answer answer e with
      | error x =>
        refine ⟨.error (.publish x), some o, fun w ho => ?_⟩
        obtain ⟨r, hf, rfl⟩ := find?_of_owner? ho
        obtain ⟨s, hp⟩ := g.publish_impartial hsend e w
        simp only [report, beginReport, hf, hevent, Except.map, hp, ha, endReport]
        exact ⟨trivial, put_owner? ho⟩
      | ok a =>
        refine ⟨.ok a, if running then some o else none, fun w ho => ?_⟩
        obtain ⟨r, hf, rfl⟩ := find?_of_owner? ho
        obtain ⟨s, hp⟩ := g.publish_impartial hsend e w
        simp only [report, beginReport, hf, hevent, Except.map, hp, ha, endReport]
        refine ⟨trivial, ?_⟩
        cases running with
        | true => exact put_owner? ho
        | false => exact funext fun j => owner?_released hf j

end Tasks

namespace TaskOp

variable {answer : Event → Except DeliveryError Accepted} {send : Transport (σ × Tasks)}

theorem local_via (hsend : Impartial answer send) (g : Registry) {op : TaskOp} {id : String}
    (hop : op.id? = some id) : Local id (op.via g send) := by
  have hmap {α β : Type} {run : σ × Tasks → α × σ × Tasks} (f : α → β) (h : Local id run) :
      Local id fun w => (f (run w).1, (run w).2) := by
    intro before
    obtain ⟨result, after, h⟩ := h before
    exact ⟨f result, after, fun w ho => ⟨congrArg f (h w ho).1, (h w ho).2⟩⟩
  cases op with
  | publish e => exact nomatch hop
  | quiet op =>
    obtain rfl := Option.some.inj hop
    exact hmap TaskResult.quiet (Tasks.local_quiet op)
  | start i s u st =>
    obtain rfl : i = id := Option.some.inj hop
    exact hmap TaskResult.published (Tasks.local_start hsend g i s u st)
  | report i st running =>
    obtain rfl : i = id := Option.some.inj hop
    exact hmap TaskResult.published (Tasks.local_report hsend g i st running)

end TaskOp

namespace Local

variable {α β : Type} {id id' : String} {run : σ × Tasks → α × σ × Tasks}
  {run' : σ × Tasks → β × σ × Tasks} {w w' : σ × Tasks}

theorem alike (h : Local id run) (hw : w.2.owner? id = w'.2.owner? id) :
    (run w).1 = (run w').1 ∧ (run w).2.2.owner? id = (run w').2.2.owner? id := by
  obtain ⟨result, after, h⟩ := h (w'.2.owner? id)
  obtain ⟨hresult, howners⟩ := h w hw
  obtain ⟨hresult', howners'⟩ := h w' rfl
  have hself (m : TaskMap) : m.put id after id = after := if_pos rfl
  exact ⟨hresult.trans hresult'.symm, by rw [howners, howners', hself, hself]⟩

theorem others (h : Local id run) (w : σ × Tasks) {j : String} (hj : j ≠ id) :
    (run w).2.2.owner? j = w.2.owner? j := by
  obtain ⟨_, after, h⟩ := h (w.2.owner? id)
  rw [(h w rfl).2]
  exact if_neg hj

/-- Two runs on different tasks give what they give in either order, and leave the same owners. -/
theorem commute (h : Local id run) (h' : Local id' run') (hne : id ≠ id') (w : σ × Tasks) :
    (run' (run w).2).1 = (run' w).1 ∧ (run (run' w).2).1 = (run w).1 ∧
      (run' (run w).2).2.2.owner? = (run (run' w).2).2.2.owner? := by
  obtain ⟨hresult', howner'⟩ := h'.alike (h.others w hne.symm)
  obtain ⟨hresult, howner⟩ := h.alike (h'.others w hne)
  refine ⟨hresult', hresult, funext fun j => ?_⟩
  by_cases hj : j = id
  · subst hj
    rw [h'.others _ hne, howner]
  · rw [h.others _ hj]
    by_cases hj' : j = id'
    · subst hj'
      exact howner'
    · rw [h'.others _ hj', h'.others _ hj', h.others _ hj]

end Local

namespace TaskOp

variable (g : Registry) (send : Transport (σ × Tasks))

/-- Each operation of a run with what came of it. -/
def outcomes : List TaskOp → σ × Tasks → List (TaskOp × TaskResult)
  | [], _ => []
  | op :: ops, w => (op, (op.via g send w).1) :: outcomes ops (op.via g send w).2

def after : List TaskOp → σ × Tasks → σ × Tasks
  | [], w => w
  | op :: ops, w => after ops (op.via g send w).2

def isOn (id : String) (op : TaskOp) : Bool := op.id? = some id

variable {send} {answer : Event → Except DeliveryError Accepted}

theorem others_via (hsend : Impartial answer send) {op : TaskOp} {id : String}
    (hop : op.id? ≠ some id) (w : σ × Tasks) :
    (op.via g send w).2.2.owner? id = w.2.owner? id := by
  cases hid : op.id? with
  | some j =>
    have hne : id ≠ j := fun h => hop (h ▸ hid)
    exact (local_via hsend g hid).others w hne
  | none =>
    cases op with
    | publish e =>
      obtain ⟨s, hp⟩ := g.publish_impartial hsend e w
      simp only [via, hp]
    | quiet | start | report => exact nomatch hid

/-- What a task sees of a run from one table, and of the same run without the operations on other
tasks from another table in which the task has the same owner. -/
theorem outcomes_filter (hsend : Impartial answer send) (ops : List TaskOp) (id : String)
    {w w' : σ × Tasks} (hw : w.2.owner? id = w'.2.owner? id) :
    (outcomes g send ops w).filter (fun x => x.1.isOn id) =
        outcomes g send (ops.filter (isOn id)) w' ∧
      (after g send ops w).2.owner? id = (after g send (ops.filter (isOn id)) w').2.owner? id := by
  induction ops generalizing w w' with
  | nil => exact ⟨rfl, hw⟩
  | cons op ops ih =>
    by_cases hop : op.id? = some id
    · have hon : isOn id op = true := decide_eq_true hop
      obtain ⟨hresult, howner⟩ := (local_via hsend g hop).alike hw
      obtain ⟨hrest, hafter⟩ := ih howner
      rw [outcomes, List.filter_cons_of_pos (p := fun x : TaskOp × TaskResult => x.1.isOn id) hon,
        List.filter_cons_of_pos hon, outcomes, hresult, hrest]
      exact ⟨rfl, hafter⟩
    · have hoff : ¬isOn id op = true := fun h => hop (of_decide_eq_true h)
      have hkept := others_via g hsend hop w
      obtain ⟨hrest, hafter⟩ := ih (hkept.trans hw)
      rw [outcomes, List.filter_cons_of_neg (p := fun x : TaskOp × TaskResult => x.1.isOn id) hoff,
        List.filter_cons_of_neg hoff]
      exact ⟨hrest, hafter⟩

/-- Over a transport that answers by the event, whatever tasks there are: two operations on
different tasks come to the same in either order, each by itself and in who owns which task after
them. In every run the operations on a task come to what they come to in the run without those on
others, and the task has the same owner at its end. -/
theorem tasks_independent (hsend : Impartial answer send) (w : σ × Tasks) :
    (∀ (op op' : TaskOp) (id id' : String), op.id? = some id → op'.id? = some id' → id ≠ id' →
      (op'.via g send (op.via g send w).2).1 = (op'.via g send w).1 ∧
      (op.via g send (op'.via g send w).2).1 = (op.via g send w).1 ∧
      (op'.via g send (op.via g send w).2).2.2.owner? =
        (op.via g send (op'.via g send w).2).2.2.owner?) ∧
    ∀ (ops : List TaskOp) (id : String),
      (outcomes g send ops w).filter (fun x => x.1.isOn id) =
        outcomes g send (ops.filter (isOn id)) w ∧
      (after g send ops w).2.owner? id = (after g send (ops.filter (isOn id)) w).2.owner? id :=
  ⟨fun _ _ _ _ hop hop' hne => (local_via hsend g hop).commute (local_via hsend g hop') hne w,
    fun ops id => outcomes_filter g hsend ops id rfl⟩

/-- Takes what says that a task runs, and counts what it is asked. -/
def takesRunning (e : Event) : Except DeliveryError Accepted :=
  match e.payload with
  | .taskInfo i => if i.running then .ok ⟨1, 0⟩ else .error .closed
  | _ => .ok ⟨0, 0⟩

def counting (answer : Event → Except DeliveryError Accepted) : Transport (Nat × Tasks) :=
  fun _ _ e (n, t) => (answer e, n + 1, t)

theorem tasks_independent_counting :
    let send := counting takesRunning
    let first := start "T1" "S1" none none
    let second := start "T2" "S2" (some "") none
    let run := [first, second, report "T1" none false, quiet (.abandon "T2"), report "T1" none true]
    Impartial takesRunning send ∧
      (after .all send [first, second] (0, .empty)).2.owner? =
        (after .all send [second, first] (0, .empty)).2.owner? ∧
      (outcomes .all send run (0, .empty)).filter (fun x => x.1.isOn "T1") =
        [(first, .published (.ok ⟨1, 0⟩)),
          (report "T1" none false, .published (.error (.publish (.delivery .closed)))),
          (report "T1" none true, .published (.ok ⟨1, 0⟩))] ∧
      (after .all send run (0, .empty)).2.owner? "T1" = some ⟨"S1", none⟩ := by
  intro send first second run
  have hsend : Impartial takesRunning send := ⟨fun _ _ _ _ => rfl, fun _ _ _ _ => rfl⟩
  obtain ⟨hcommute, hrun⟩ := tasks_independent .all hsend (0, .empty)
  obtain ⟨_, _, howners⟩ := hcommute first second "T1" "T2" rfl rfl (by decide)
  obtain ⟨houtcomes, howner⟩ := hrun run "T1"
  exact ⟨hsend, howners, houtcomes, howner⟩

end TaskOp

end EventGateway
