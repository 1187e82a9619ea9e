import EventGateway.Proofs.Tasks.Independence
import EventGateway.Proofs.Tasks.Scoping

/-! Operations on tasks that have not come to their end. A start and a report leave the table alone
while their event is on its way, and until they are answered anything may be done to it, inside their
publish or beside it: other starts and reports as well, which wait for answers of their own. A docket
is the table with the calls that wait, and with what was done to the table so far. -/

namespace EventGateway

namespace Tasks

@[simp] theorem next_erase (t : Tasks) (id : String) : (t.erase id).next = t.next := rfl

@[simp] theorem next_release (t : Tasks) (id : String) (r : Registration) :
    (t.release id r).2.next = t.next := by
  rw [release_table]
  split <;> rfl

/-- A release leaves every other task alone, whatever registration it is given. -/
theorem find?_release (t : Tasks) {id j : String} (r : Registration) (hj : j ≠ id) :
    (t.release id r).2.find? j = t.find? j := by
  rw [release_table]
  split
  · rw [find?_erase, if_neg hj]
  · rfl

end Tasks

/-- What was done to a table of tasks. -/
inductive Deed
  | made (id : String) (r : Registration)
  | abandoned (id : String)
  | released (id : String) (r : Registration)
  deriving DecidableEq

namespace Deed

def registration? : Deed → Option (String × Registration)
  | made id r => some (id, r)
  | _ => none

/-- The registrations that were made, each with its task, in order. -/
def registrations (l : List Deed) : List (String × Registration) := l.filterMap registration?

theorem registrations_concat (l : List Deed) (d : Deed) :
    registrations (l ++ [d]) = registrations l ++ d.registration?.toList := by
  cases d <;> simp [registrations, registration?]

theorem mem_registrations {l : List Deed} {id : String} {r : Registration} :
    (id, r) ∈ registrations l ↔ made id r ∈ l := by
  simp only [registrations, List.mem_filterMap]
  constructor
  · rintro ⟨d, hd, hr⟩
    cases d with
    | made j x =>
      obtain ⟨rfl, rfl⟩ := Prod.mk.inj (Option.some.inj hr)
      exact hd
    | abandoned | released => exact nomatch hr
  · exact fun h => ⟨made id r, h, rfl⟩

end Deed

/-- A start or a report that waits for the answer to its event. -/
inductive Pending
  | start (id : String) (r : Registration)
  | report (id : String) (running : Bool) (r : Registration)

namespace Pending

def id : Pending → String
  | start id _ | report id _ _ => id

def registration : Pending → Registration
  | start _ r | report _ _ r => r

def finish (p : Pending) (answer : Except PublishError Accepted) (t : Tasks) : Tasks :=
  match p with
  | start id r => (t.endStart id r answer).2
  | report id running r => (t.endReport id running r answer).2

/-- Whether its registration is released when it is answered. -/
def releases (p : Pending) (answer : Except PublishError Accepted) : Bool :=
  match p with
  | start _ _ => !answer.isOk
  | report _ running _ => answer.isOk && !running

theorem finish_eq (p : Pending) (answer : Except PublishError Accepted) (t : Tasks) :
    p.finish answer t = if p.releases answer then (t.release p.id p.registration).2 else t := by
  cases p with
  | start id r => cases answer <;> rfl
  | report id running r => cases answer <;> cases running <;> rfl

end Pending

/-- What happens at one moment. A start and a report take two of these, and the calls that wait may be
answered in any order. -/
inductive Moment
  | quiet (op : QuietOp)
  | beginStart (id sessionId : String) (userId statusName : Option String)
  | beginReport (id : String) (statusName : Option String) (running : Bool)
  | answer (k : Nat) (a : Except PublishError Accepted)

/-- The registration that is made, if it is not rejected. -/
def Moment.registration? (t : Tasks) : Moment → Option (String × Registration)
  | .quiet (.started id sessionId userId) | .beginStart id sessionId userId _ =>
    (t.register id sessionId userId).1.toOption.map (id, ·)
  | _ => none

def QuietOp.deeds (t : Tasks) : QuietOp → List Deed
  | .started id sessionId userId =>
    (t.register id sessionId userId).1.toOption.toList.map (.made id)
  | .abandon id => [.abandoned id]
  | _ => []

/-- The deeds are only written down. What happens next does not go by them. -/
structure Docket where
  tasks : Tasks
  pending : List Pending
  deeds : List Deed

namespace Docket

def empty : Docket := ⟨Tasks.empty, [], []⟩

def made (w : Docket) : List (String × Registration) := Deed.registrations w.deeds

def answered (w : Docket) (k : Nat) (p : Pending) (a : Except PublishError Accepted) : Docket where
  tasks := p.finish a w.tasks
  pending := w.pending.eraseIdx k
  deeds := if p.releases a then w.deeds ++ [.released p.id p.registration] else w.deeds

def step (w : Docket) : Moment → Docket
  | .quiet op => { w with tasks := (w.tasks.quiet op).2, deeds := w.deeds ++ op.deeds w.tasks }
  | .beginStart id sessionId userId statusName =>
    match w.tasks.beginStart id sessionId userId statusName with
    | (.error _, t) => { w with tasks := t }
    | (.ok (r, _), t) => ⟨t, .start id r :: w.pending, w.deeds ++ [.made id r]⟩
  | .beginReport id statusName running =>
    match w.tasks.beginReport id statusName running with
    | .error _ => w
    | .ok (r, _) => { w with pending := .report id running r :: w.pending }
  | .answer k a =>
    match w.pending[k]? with
    | none => w
    | some p => w.answered k p a

def run (w : Docket) (moments : List Moment) : Docket := moments.foldl step w

def ofRun (moments : List Moment) : Docket := empty.run moments

theorem run_append (w : Docket) (moments more : List Moment) :
    w.run (moments ++ more) = (w.run moments).run more := List.foldl_append

end Docket

/-- How a table has come about. What is released was registered, though it may be gone by then. -/
inductive History : List Deed → Tasks → Prop
  | empty : History [] Tasks.empty
  | made {l : List Deed} {t : Tasks} (h : History l t) {id : String} {r : Registration}
      (hfree : t.find? id = none) (hnext : r.generation = t.next) :
      History (l ++ [.made id r]) ⟨(id, r) :: t.entries, t.next + 1⟩
  | abandoned {l : List Deed} {t : Tasks} (h : History l t) (id : String) :
      History (l ++ [.abandoned id]) (t.erase id)
  | released {l : List Deed} {t : Tasks} (h : History l t) {id : String} {r : Registration}
      (hmade : .made id r ∈ l) : History (l ++ [.released id r]) (t.release id r).2

namespace History

variable {l : List Deed} {t : Tasks}

theorem made_of_mem (h : History l t) {id : String} {r : Registration} (hr : (id, r) ∈ t.entries) :
    .made id r ∈ l := by
  induction h with
  | empty => exact absurd hr List.not_mem_nil
  | made h hfree hnext ih =>
    rcases List.mem_cons.mp hr with heq | hr
    · obtain ⟨rfl, rfl⟩ := Prod.mk.inj heq
      simp
    · exact List.mem_append_left _ (ih hr)
  | abandoned h j ih => exact List.mem_append_left _ (ih (List.mem_filter.mp hr).1)
  | @released _ t h j x hmade ih =>
    rw [Tasks.release_table] at hr
    split at hr
    · exact List.mem_append_left _ (ih (List.mem_filter.mp hr).1)
    · exact List.mem_append_left _ (ih hr)

theorem quiet (h : History l t) (op : QuietOp) : History (l ++ op.deeds t) (t.quiet op).2 := by
  cases op with
  | started id sessionId userId =>
    rcases Tasks.register_cases t id sessionId userId with ⟨_, _, hfree, ht⟩ | ⟨_, e, ht⟩
    · simpa [QuietOp.deeds, Tasks.quiet, ht, Except.toOption] using h.made hfree rfl
    · simpa [QuietOp.deeds, Tasks.quiet, ht, Except.toOption] using h
  | abandon id => exact h.abandoned id
  | info | owner | sessionOf => simpa [QuietOp.deeds, Tasks.quiet] using h

end History

namespace Docket

variable {w : Docket}

/-- The deeds tell how the table has come about, and the calls that wait hold registrations of the
past. -/
structure Sound (w : Docket) : Prop where
  history : History w.deeds w.tasks
  held : ∀ p ∈ w.pending, .made p.id p.registration ∈ w.deeds

theorem Sound.answered (hw : w.Sound) {k : Nat} {p : Pending} (hp : p ∈ w.pending)
    (a : Except PublishError Accepted) : (w.answered k p a).Sound := by
  refine ⟨?_, fun q hq => ?_⟩
  · simp only [Docket.answered, Pending.finish_eq]
    cases p.releases a with
    | true => exact hw.history.released (hw.held p hp)
    | false => exact hw.history
  · have hmade := hw.held q (List.mem_of_mem_eraseIdx hq)
    simp only [Docket.answered]
    split
    · exact List.mem_append_left _ hmade
    · exact hmade

theorem Sound.step (hw : w.Sound) (x : Moment) : (w.step x).Sound := by
  cases x with
  | quiet op =>
    exact ⟨hw.history.quiet op, fun p hp => List.mem_append_left _ (hw.held p hp)⟩
  | beginStart id sessionId userId statusName =>
    rcases Tasks.beginStart_cases w.tasks id sessionId userId statusName with
      ⟨e, hbegin⟩ | ⟨_, _, hfree, hbegin⟩
    · simpa only [Docket.step, hbegin] using hw
    · simp only [Docket.step, hbegin]
      refine ⟨hw.history.made hfree rfl, List.forall_mem_cons.mpr ⟨?_, fun p hp => ?_⟩⟩
      · simp [Pending.id, Pending.registration]
      · exact List.mem_append_left _ (hw.held p hp)
  | beginReport id statusName running =>
    rcases w.tasks.beginReport_cases id statusName running with
      ⟨e, hbegin⟩ | ⟨_, r, hfind, hbegin⟩
    · simpa only [Docket.step, hbegin] using hw
    -- A report holds what it has found in the table, whoever has registered it.
    · simp only [Docket.step, hbegin]
      exact ⟨hw.history, List.forall_mem_cons.mpr
        ⟨hw.history.made_of_mem (Tasks.mem_of_find? hfind), hw.held⟩⟩
  | answer k a =>
    simp only [Docket.step]
    split
    · exact hw
    next p hp => exact hw.answered (List.mem_of_getElem? hp) a

theorem Sound.run (hw : w.Sound) (moments : List Moment) : (w.run moments).Sound := by
  induction moments generalizing w with
  | nil => exact hw
  | cons x moments ih => exact ih (hw.step x)

theorem sound_ofRun (moments : List Moment) : (ofRun moments).Sound :=
  Sound.run ⟨.empty, fun _ hp => absurd hp List.not_mem_nil⟩ moments

theorem made_answered (w : Docket) (k : Nat) (p : Pending) (a : Except PublishError Accepted) :
    (w.answered k p a).made = w.made := by
  simp only [made, answered]
  split
  · rw [Deed.registrations_concat]
    exact List.append_nil _
  · rfl

theorem next_answered (w : Docket) (k : Nat) (p : Pending) (a : Except PublishError Accepted) :
    (w.answered k p a).tasks.next = w.tasks.next := by
  simp only [answered, Pending.finish_eq]
  split <;> simp

/-- A registration that is not rejected is written down and moves the counter on; nothing else does. -/
theorem step_counts (w : Docket) (x : Moment) :
    (x.registration? w.tasks = none →
      (w.step x).made = w.made ∧ (w.step x).tasks.next = w.tasks.next) ∧
    ∀ m, x.registration? w.tasks = some m →
      (w.step x).made = w.made ++ [m] ∧ (w.step x).tasks.next = w.tasks.next + 1 := by
  cases x with
  | quiet op =>
    cases op with
    | started id sessionId userId =>
      rcases Tasks.register_cases w.tasks id sessionId userId with ⟨_, _, _, ht⟩ | ⟨_, e, ht⟩ <;>
        simp [Moment.registration?, step, QuietOp.deeds, Tasks.quiet, ht, Except.toOption, made,
          Deed.registrations_concat, Deed.registration?]
    | abandon | info | owner | sessionOf =>
      simp [Moment.registration?, step, QuietOp.deeds, Tasks.quiet, Tasks.abandon, made,
        Deed.registrations_concat, Deed.registration?]
  | beginStart id sessionId userId statusName =>
    rcases Tasks.register_cases w.tasks id sessionId userId with ⟨_, _, _, ht⟩ | ⟨_, e, ht⟩
    · obtain ⟨_, e, _, hbegin⟩ := Tasks.beginStart_registered ht statusName
      simp [Moment.registration?, step, hbegin, ht, Except.toOption, made, Deed.registrations_concat,
        Deed.registration?]
    · simp [Moment.registration?, step, Tasks.beginStart, ht, Except.toOption, made]
  | beginReport id statusName running =>
    cases hbegin : w.tasks.beginReport id statusName running <;>
      simp [Moment.registration?, step, hbegin, made]
  | answer k a =>
    cases hp : w.pending[k]? with
    | none => simp [Moment.registration?, step, hp]
    | some p => simp [Moment.registration?, step, hp, made_answered, next_answered]

/-! An operation as a whole, with everything that its transport does meanwhile. -/

/-- Some moments make this table, and leave the calls that wait as they are. -/
def LeadsTo (w : Docket) (t : Tasks) : Prop :=
  ∃ moments, (w.run moments).tasks = t ∧ (w.run moments).pending = w.pending

theorem LeadsTo.refl (w : Docket) : w.LeadsTo w.tasks := ⟨[], rfl, rfl⟩

theorem LeadsTo.trans {t t' : Tasks} (h : w.LeadsTo t)
    (h' : ∀ w' : Docket, w'.tasks = t → w'.LeadsTo t') : w.LeadsTo t' := by
  obtain ⟨moments, htasks, hpending⟩ := h
  obtain ⟨more, htasks', hpending'⟩ := h' (w.run moments) htasks
  refine ⟨moments ++ more, ?_⟩
  rw [run_append]
  exact ⟨htasks', hpending'.trans hpending⟩

theorem LeadsTo.quiet (w : Docket) (op : QuietOp) : w.LeadsTo (w.tasks.quiet op).2 :=
  ⟨[.quiet op], rfl, rfl⟩

theorem LeadsTo.quietly (w : Docket) (ops : List QuietOp) : w.LeadsTo (w.tasks.quietly ops).2 := by
  induction ops generalizing w with
  | nil => exact .refl w
  | cons op ops ih =>
    refine (quiet w op).trans fun w' hw' => ?_
    have hrest := ih w'
    rw [hw'] at hrest
    exact hrest

theorem step_answer_first {p : Pending} {ps : List Pending} (hp : w.pending = p :: ps)
    (a : Except PublishError Accepted) :
    (w.step (.answer 0 a)).tasks = p.finish a w.tasks ∧ (w.step (.answer 0 a)).pending = ps := by
  simp [step, Docket.answered, hp]

/-- A call that begins, what is done while it waits, and its answer. -/
theorem LeadsTo.call {x : Moment} {p : Pending} (hbegin : (w.step x).pending = p :: w.pending)
    {t : Tasks} (h : (w.step x).LeadsTo t) (a : Except PublishError Accepted) :
    w.LeadsTo (p.finish a t) := by
  obtain ⟨moments, rfl, hpending⟩ := h
  refine ⟨x :: moments ++ [.answer 0 a], ?_⟩
  rw [run_append]
  exact step_answer_first (hpending.trans hbegin) a

section

variable {σ : Type} {publish : Event → σ × Tasks → Except PublishError Accepted × σ × Tasks}

theorem LeadsTo.start (hpublish : ∀ e x (w : Docket), w.LeadsTo (publish e (x, w.tasks)).2.2)
    (w : Docket) (id sessionId : String) (userId statusName : Option String) (x : σ) :
    w.LeadsTo (Tasks.start publish id sessionId userId statusName x w.tasks).2.2 := by
  cases hbegin : w.tasks.beginStart id sessionId userId statusName with | mk result t =>
  cases result with
  | error e =>
    exact ⟨[.beginStart id sessionId userId statusName], by simp [run, step, Tasks.start, hbegin],
      by simp [run, step, hbegin]⟩
  | ok re =>
    obtain ⟨r, e⟩ := re
    have hstep : w.step (.beginStart id sessionId userId statusName) =
        ⟨t, .start id r :: w.pending, w.deeds ++ [.made id r]⟩ := by simp [step, hbegin]
    have hmeanwhile := hpublish e x (w.step (.beginStart id sessionId userId statusName))
    have hcall := hmeanwhile.call (congrArg pending hstep) (publish e (x, t)).1
    simpa only [Tasks.start, hbegin, hstep, Pending.finish] using hcall

theorem LeadsTo.report (hpublish : ∀ e x (w : Docket), w.LeadsTo (publish e (x, w.tasks)).2.2)
    (w : Docket) (id : String) (statusName : Option String) (running : Bool) (x : σ) :
    w.LeadsTo (Tasks.report publish id statusName running x w.tasks).2.2 := by
  cases hbegin : w.tasks.beginReport id statusName running with
  | error e => simpa [Tasks.report, hbegin] using refl w
  | ok re =>
    obtain ⟨r, e⟩ := re
    have hstep : w.step (.beginReport id statusName running) =
        ⟨w.tasks, .report id running r :: w.pending, w.deeds⟩ := by simp [step, hbegin]
    have hmeanwhile := hpublish e x (w.step (.beginReport id statusName running))
    have hcall := hmeanwhile.call (congrArg pending hstep) (publish e (x, w.tasks)).1
    simpa only [Tasks.report, hbegin, hstep, Pending.finish] using hcall

end

end Docket

/-- Whatever the transport does to the tasks before it answers is done by some moments. -/
def Nests {σ : Type} (send : Transport (σ × Tasks)) : Prop :=
  ∀ topic f e x (w : Docket), w.LeadsTo (send topic f e (x, w.tasks)).2.2

namespace Nests

variable {σ : Type} {send : Transport (σ × Tasks)}

theorem publish (hsend : Nests send) (g : Registry) (e : Event) (x : σ) (w : Docket) :
    w.LeadsTo (g.publish send e (x, w.tasks)).2.2 := by
  unfold Registry.publish
  split
  · exact hsend e.topic (Filter.ofEvent e) e x w
  · exact .refl w

theorem via (hsend : Nests send) (g : Registry) (op : TaskOp) (x : σ) (w : Docket) :
    w.LeadsTo (op.via g send (x, w.tasks)).2.2 := by
  cases op with
  | quiet op => exact .quiet w op
  | publish e => exact hsend.publish g e x w
  | start id sessionId userId statusName =>
    exact .start (hsend.publish g) w id sessionId userId statusName x
  | report id statusName running => exact .report (hsend.publish g) w id statusName running x

/-- Operations that are carried out over such a transport may be done inside another one, and so on to
any depth. -/
theorem within (hsend : Nests send) (g : Registry) (ops : List TaskOp)
    (answer : Except DeliveryError Accepted) :
    Nests fun _ _ _ s => (answer, TaskOp.after g send ops s) := by
  intro _ _ _ x w
  induction ops generalizing x w with
  | nil => exact .refl w
  | cons op ops ih =>
    refine (hsend.via g op x w).trans fun w' hw' => ?_
    have hrest := ih (op.via g send (x, w.tasks)).2.1 w'
    rw [hw'] at hrest
    exact hrest

theorem script : Nests Script.transport := fun _ _ _ x w => .quietly w x.reply.during

end Nests

end EventGateway
