import EventGateway.Proofs.Tasks.Table
import Mathlib.Data.List.Induction

/-! The chronicle of a run tells which registration every event was built from. It is kept beside the
table of tasks and beside the calls of the transport, and reads the table without changing it.
Registrations are numbered as they are made, so two of one task are never taken for each other. What
is removed is what the table removes: unlike a roll, which goes by numbers alone, the chronicle is true
of a run of any length, also when generations come again. -/

namespace EventGateway

/-- Whether an event gives the last status of a task. -/
def Event.isTerminal (e : Event) : Bool :=
  match e.payload with
  | .taskInfo i => i.isTerminal
  | _ => false

/-- A registration that was made in a run; one that a start has made, with the status it announces. -/
structure Enrolment where
  id : String
  registration : Registration
  announces : Option (Option String)
  deriving DecidableEq

namespace Enrolment

/-- The event gives a status of the task, for the owner of this registration and for nobody else. -/
def Tells (m : Enrolment) (statusName : Option String) (running : Bool) (e : Event) : Prop :=
  ∃ hid : m.id ≠ "", e = ⟨⟨some m.registration.owner.sessionId, m.registration.owner.userId⟩,
    .taskInfo ⟨m.id, statusName, running, hid⟩⟩

theorem tells_scopedTo {m : Enrolment} (hid : m.id ≠ "") (howner : m.registration.owner.Whole)
    (statusName : Option String) (running : Bool) :
    m.Tells statusName running (Event.scopedTo (.taskInfo ⟨m.id, statusName, running, hid⟩)
      (some m.registration.owner.sessionId) m.registration.owner.userId) :=
  ⟨hid, by rw [Event.scopedTo, howner.scope]⟩

variable {m : Enrolment} {statusName : Option String} {running : Bool} {e : Event}

theorem Tells.topic (h : m.Tells statusName running e) : e.topic = .sessionTask := by
  obtain ⟨_, rfl⟩ := h
  rfl

theorem Tells.isTerminal (h : m.Tells statusName running e) : e.isTerminal = !running := by
  obtain ⟨_, rfl⟩ := h
  rfl

theorem Tells.accepted (h : m.Tells statusName running e) (g : Registry) (reply : Reply) :
    (g.contains e.topic && reply.answer.isOk) = reply.accepts g := by
  rw [h.topic, Reply.accepts]

end Enrolment

/-- An event that was given to the publisher, with the number of the registration it was built
from. One that was published directly has none. -/
structure Sending where
  source : Option Nat
  event : Event
  accepted : Bool
  deriving DecidableEq

structure Chronicle where
  tasks : Tasks
  holder : String → Option Nat
  made : List Enrolment
  sent : List Sending
  abandoned : List Nat

namespace Chronicle

def empty : Chronicle := ⟨Tasks.empty, fun _ => none, [], [], []⟩

def register (c : Chronicle) (id sessionId : String) (userId : Option String)
    (announces : Option (Option String)) : Chronicle :=
  match c.tasks.register id sessionId userId with
  | (.error _, _) => c
  | (.ok r, t) =>
    { c with
      tasks := t
      holder := fun j => if j = id then some c.made.length else c.holder j
      made := c.made ++ [⟨id, r, announces⟩] }

def unmap (c : Chronicle) (id : String) : Chronicle :=
  { c with tasks := c.tasks.erase id, holder := fun j => if j = id then none else c.holder j }

def abandon (c : Chronicle) (id : String) : Chronicle :=
  { c.unmap id with abandoned := c.abandoned ++ (c.holder id).toList }

/-- Whatever the table removes is unmapped, whether or not it is the registration that was meant. -/
def release (c : Chronicle) (id : String) (r : Registration) : Chronicle :=
  if (c.tasks.find? id).map Registration.generation = some r.generation then c.unmap id else c

def quiet (c : Chronicle) : QuietOp → Chronicle
  | .started id sessionId userId => c.register id sessionId userId none
  | .abandon id => c.abandon id
  | _ => c

def quietly (c : Chronicle) (ops : List QuietOp) : Chronicle := ops.foldl quiet c

def note (c : Chronicle) (s : Sending) : Chronicle := { c with sent := c.sent ++ [s] }

/-- An event is given to the publisher, and what the transport does meanwhile is done. -/
def offer (c : Chronicle) (g : Registry) (reply : Reply) (source : Option Nat) (e : Event) :
    Chronicle :=
  let noted := c.note ⟨source, e, g.contains e.topic && reply.answer.isOk⟩
  if g.contains e.topic then noted.quietly reply.during else noted

/-- An event is offered for a registration, which is then taken back or kept. -/
def send (c : Chronicle) (g : Registry) (reply : Reply) (source : Option Nat) (id : String)
    (r : Registration) (e : Event) (back : Bool) : Chronicle :=
  let answered := c.offer g reply source e
  if back then answered.release id r else answered

def start (c : Chronicle) (g : Registry) (reply : Reply) (id sessionId : String)
    (userId statusName : Option String) : Chronicle :=
  match c.tasks.beginStart id sessionId userId statusName with
  | (.error _, _) => c
  | (.ok (r, e), _) =>
    (c.register id sessionId userId (some statusName)).send g reply (some c.made.length) id r e
      (!reply.accepts g)

def report (c : Chronicle) (g : Registry) (reply : Reply) (id : String) (statusName : Option String)
    (running : Bool) : Chronicle :=
  match c.tasks.beginReport id statusName running with
  | .error _ => c
  | .ok (r, e) => c.send g reply (c.holder id) id r e (reply.accepts g && !running)

def step (g : Registry) (c : Chronicle) (s : Reply × TaskOp) : Chronicle :=
  match s.2 with
  | .quiet op => c.quiet op
  | .publish e => c.offer g s.1 none e
  | .start id sessionId userId statusName => c.start g s.1 id sessionId userId statusName
  | .report id statusName running => c.report g s.1 id statusName running

def ofRun (g : Registry) (steps : List (Reply × TaskOp)) : Chronicle := steps.foldl (step g) empty

theorem ofRun_append (g : Registry) (steps : List (Reply × TaskOp)) (s : Reply × TaskOp) :
    ofRun g (steps ++ [s]) = (ofRun g steps).step g s := by
  simp [ofRun]

/-- The events that were accepted, in order. -/
def received (c : Chronicle) : List Event := (c.sent.filter (·.accepted)).map (·.event)

/-- What was given to the publisher for the registration with this number. -/
def sentFor (c : Chronicle) (n : Nat) : List Sending := c.sent.filter (·.source = some n)

end Chronicle

/-! The chronicle beside the run itself. -/

namespace Script

/-- The transport and the table after a run. Each operation comes with the reply to it. -/
def ofRun (g : Registry) (steps : List (Reply × TaskOp)) : Script × Tasks :=
  steps.foldl (fun w s => (s.2.step g (⟨s.1, w.1.calls⟩, w.2)).2) (initial, Tasks.empty)

theorem ofRun_append (g : Registry) (steps : List (Reply × TaskOp)) (s : Reply × TaskOp) :
    ofRun g (steps ++ [s]) = (s.2.step g (⟨s.1, (ofRun g steps).1.calls⟩, (ofRun g steps).2)).2 := by
  simp [ofRun]

end Script

namespace Chronicle

variable {c : Chronicle} {g : Registry}

/-- The chronicle has the table of the run, and the accepted events of its transport. -/
structure Records (c : Chronicle) (w : Script × Tasks) : Prop where
  tasks : c.tasks = w.2
  received : c.received = w.1.received

@[simp] theorem tasks_unmap (c : Chronicle) (id : String) : (c.unmap id).tasks = c.tasks.erase id :=
  rfl

theorem tasks_register (c : Chronicle) (id sessionId : String) (userId : Option String)
    (announces : Option (Option String)) :
    (c.register id sessionId userId announces).tasks = (c.tasks.register id sessionId userId).2 := by
  unfold register
  rcases Tasks.register_cases c.tasks id sessionId userId with ⟨_, _, _, ht⟩ | ⟨_, e, ht⟩
  · rw [ht]
  · rw [ht]

theorem tasks_release (c : Chronicle) (id : String) (r : Registration) :
    (c.release id r).tasks = (c.tasks.release id r).2 := by
  rw [Tasks.release_table, release]
  split <;> rfl

theorem tasks_quiet (c : Chronicle) (op : QuietOp) : (c.quiet op).tasks = (c.tasks.quiet op).2 := by
  cases op with
  | started id s u => exact c.tasks_register id s u none
  | abandon | info | owner | sessionOf => rfl

theorem tasks_quietly (c : Chronicle) (ops : List QuietOp) :
    (c.quietly ops).tasks = (c.tasks.quietly ops).2 := by
  induction ops generalizing c with
  | nil => rfl
  | cons op ops ih =>
    have hstep := ih (c.quiet op)
    rw [tasks_quiet] at hstep
    exact hstep

theorem sent_register (c : Chronicle) (id sessionId : String) (userId : Option String)
    (announces : Option (Option String)) :
    (c.register id sessionId userId announces).sent = c.sent := by
  unfold register
  split <;> rfl

theorem sent_release (c : Chronicle) (id : String) (r : Registration) :
    (c.release id r).sent = c.sent := by
  unfold release
  split <;> rfl

theorem sent_quietly (c : Chronicle) (ops : List QuietOp) : (c.quietly ops).sent = c.sent := by
  induction ops generalizing c with
  | nil => rfl
  | cons op ops ih =>
    have hop : (c.quiet op).sent = c.sent := by
      cases op with
      | started id s u => exact c.sent_register id s u none
      | abandon | info | owner | sessionOf => rfl
    exact (ih (c.quiet op)).trans hop

theorem sent_offer (c : Chronicle) (g : Registry) (reply : Reply) (source : Option Nat) (e : Event) :
    (c.offer g reply source e).sent =
      c.sent ++ [⟨source, e, g.contains e.topic && reply.answer.isOk⟩] := by
  unfold offer
  split
  · exact sent_quietly _ _
  · rfl

theorem received_of_sent {c' : Chronicle} (h : c'.sent = c.sent) : c'.received = c.received := by
  rw [received, h, received]

theorem records_offer {w : Script × Tasks} (h : c.Records w) (reply : Reply)
    (source : Option Nat) (e : Event) :
    (c.offer g reply source e).Records (g.publish Script.transport e (⟨reply, w.1.calls⟩, w.2)).2 := by
  obtain ⟨htasks, hreceived⟩ := h
  obtain ⟨_, htable, hcalls⟩ := Script.publish_outcome g reply w.1.calls e w.2
  refine ⟨?_, ?_⟩
  · rw [htable, ← htasks]
    unfold offer
    split
    · exact tasks_quietly _ _
    · rfl
  · have hbefore : Script.received ⟨reply, w.1.calls⟩ = w.1.received := rfl
    rw [hcalls, hbefore, ← hreceived, received, sent_offer]
    cases g.contains e.topic && reply.answer.isOk <;> simp [received]

/-- Every number stands for the registration that the table has, and what was sent has a source that
was there. -/
structure Sound (c : Chronicle) : Prop where
  find : ∀ id, c.tasks.find? id = (c.holder id).bind fun n => c.made[n]?.map Enrolment.registration
  held : ∀ id n, c.holder id = some n → ∃ m, c.made[n]? = some m ∧ m.id = id
  named : ∀ m ∈ c.made, m.id ≠ ""
  whole : ∀ m ∈ c.made, m.registration.owner.Whole
  built : ∀ s ∈ c.sent, ∀ n, s.source = some n → n < c.made.length

/-- A registration is made as the table makes it, under the next number. -/
theorem register_cases (c : Chronicle) (id sessionId : String) (userId : Option String)
    (announces : Option (Option String)) :
    (∃ r : Registration, id ≠ "" ∧ sessionId ≠ "" ∧ c.tasks.find? id = none ∧
      r.owner = ⟨sessionId, nonEmpty? userId⟩ ∧
      c.tasks.register id sessionId userId =
        (.ok r, ⟨(id, r) :: c.tasks.entries, c.tasks.next + 1⟩) ∧
      c.register id sessionId userId announces =
        { c with
          tasks := ⟨(id, r) :: c.tasks.entries, c.tasks.next + 1⟩
          holder := fun j => if j = id then some c.made.length else c.holder j
          made := c.made ++ [⟨id, r, announces⟩] }) ∨
    ∃ e, c.tasks.register id sessionId userId = (.error e, c.tasks) ∧
      c.register id sessionId userId announces = c := by
  rcases Tasks.register_cases c.tasks id sessionId userId with ⟨hid, hs, hf, ht⟩ | ⟨_, e, ht⟩
  · exact .inl ⟨_, hid, hs, hf, rfl, ht, by rw [register, ht]⟩
  · exact .inr ⟨e, ht, by rw [register, ht]⟩

namespace Sound

theorem empty : Chronicle.empty.Sound where
  find _ := rfl
  held _ _ h := by simp [Chronicle.empty] at h
  named _ h := by simp [Chronicle.empty] at h
  whole _ h := by simp [Chronicle.empty] at h
  built _ h := by simp [Chronicle.empty] at h

theorem lt (h : c.Sound) {id : String} {n : Nat} (hn : c.holder id = some n) : n < c.made.length := by
  obtain ⟨m, hm, _⟩ := h.held id n hn
  exact (List.getElem?_eq_some_iff.mp hm).1

theorem range (h : c.Sound) {id : String} {n : Nat} (hn : c.holder id = some n) :
    ∀ k, some n = some k → k < c.made.length := by
  rintro k ⟨⟩
  exact h.lt hn

theorem find_held (h : c.Sound) {id : String} {n : Nat} {m : Enrolment} (hn : c.holder id = some n)
    (hm : c.made[n]? = some m) : c.tasks.find? id = some m.registration := by
  rw [h.find, hn, Option.bind_some, hm, Option.map_some]

theorem holder_none (h : c.Sound) {id : String} (hf : c.tasks.find? id = none) :
    c.holder id = none := by
  cases hn : c.holder id with
  | none => rfl
  | some n =>
    obtain ⟨m, hm, _⟩ := h.held id n hn
    rw [h.find_held hn hm] at hf
    exact nomatch hf

theorem register (h : c.Sound) (id sessionId : String) (userId : Option String)
    (announces : Option (Option String)) : (c.register id sessionId userId announces).Sound := by
  rcases c.register_cases id sessionId userId announces with
    ⟨r, hid, hs, _, howner, _, heq⟩ | ⟨_, _, heq⟩
  · rw [heq]
    have hwhole : r.owner.Whole := howner ▸ whole_new hs userId
    have hold : ∀ {n : Nat} {m : Enrolment}, c.made[n]? = some m →
        (c.made ++ [⟨id, r, announces⟩])[n]? = some m := fun hm =>
      (List.getElem?_append_left (List.getElem?_eq_some_iff.mp hm).1).trans hm
    refine ⟨fun j => ?_, fun j n hn => ?_, fun m hm => ?_, fun m hm => ?_, fun s hs n hn => ?_⟩
    · by_cases hj : j = id
      · simp [hj, Tasks.find?]
      · have hfind := h.find j
        simp only [Tasks.find?] at hfind
        simp only [Tasks.find?, lookup_cons_ne hj, hj, if_false, hfind]
        cases hn : c.holder j with
        | none => rfl
        | some n =>
          obtain ⟨m, hm, _⟩ := h.held j n hn
          simp only [Option.bind_some, hm, hold hm]
    · by_cases hj : j = id
      · obtain rfl : c.made.length = n := by simpa [hj] using hn
        exact ⟨⟨id, r, announces⟩, List.getElem?_concat_length, hj.symm⟩
      · obtain ⟨m, hm, hmid⟩ := h.held j n (by simpa [hj] using hn)
        exact ⟨m, hold hm, hmid⟩
    · rcases List.mem_append.mp hm with hm | hm
      · exact h.named m hm
      · obtain rfl := List.mem_singleton.mp hm
        exact hid
    · rcases List.mem_append.mp hm with hm | hm
      · exact h.whole m hm
      · obtain rfl := List.mem_singleton.mp hm
        exact hwhole
    · have hlt := h.built s hs n hn
      simp only [List.length_append, List.length_singleton]
      omega
  · rw [heq]
    exact h

theorem unmap (h : c.Sound) (id : String) : (c.unmap id).Sound where
  find j := by
    rw [tasks_unmap, Tasks.find?_erase]
    by_cases hj : j = id
    · simp [Chronicle.unmap, hj]
    · simp [Chronicle.unmap, hj, h.find]
  held j n hn := by
    by_cases hj : j = id
    · simp [Chronicle.unmap, hj] at hn
    · exact h.held j n (by simpa [Chronicle.unmap, hj] using hn)
  named := h.named
  whole := h.whole
  built := h.built

theorem release (h : c.Sound) (id : String) (r : Registration) : (c.release id r).Sound := by
  unfold Chronicle.release
  split
  · exact h.unmap id
  · exact h

theorem quiet (h : c.Sound) (op : QuietOp) : (c.quiet op).Sound := by
  cases op with
  | started id s u => exact h.register id s u none
  | abandon id =>
    have hunmapped := h.unmap id
    exact ⟨hunmapped.find, hunmapped.held, hunmapped.named, hunmapped.whole, hunmapped.built⟩
  | info | owner | sessionOf => exact h

theorem quietly (h : c.Sound) (ops : List QuietOp) : (c.quietly ops).Sound := by
  induction ops generalizing c with
  | nil => exact h
  | cons op ops ih => exact ih (h.quiet op)

theorem note (h : c.Sound) {s : Sending} (hs : ∀ n, s.source = some n → n < c.made.length) :
    (c.note s).Sound where
  find := h.find
  held := h.held
  named := h.named
  whole := h.whole
  built x hx n hn := by
    rcases List.mem_append.mp hx with hx | hx
    · exact h.built x hx n hn
    · obtain rfl := List.mem_singleton.mp hx
      exact hs n hn

theorem offer (h : c.Sound) (g : Registry) (reply : Reply) {source : Option Nat} (e : Event)
    (hs : ∀ n, source = some n → n < c.made.length) : (c.offer g reply source e).Sound := by
  have hnoted := h.note (s := ⟨source, e, g.contains e.topic && reply.answer.isOk⟩) hs
  unfold Chronicle.offer
  split
  · exact hnoted.quietly _
  · exact hnoted

theorem send (h : c.Sound) (g : Registry) (reply : Reply) {source : Nat} {id : String}
    (hs : c.holder id = some source) (r : Registration) (e : Event) (back : Bool) :
    (c.send g reply (some source) id r e back).Sound := by
  have hanswered := h.offer g reply e (h.range hs)
  cases back with
  | true => exact hanswered.release id r
  | false => exact hanswered

end Sound

/-- A start makes no registration, or makes the next one and offers what it announces. -/
theorem start_cases (c : Chronicle) (g : Registry) (reply : Reply) (id sessionId : String)
    (userId statusName : Option String) :
    (∃ e, c.tasks.beginStart id sessionId userId statusName = (.error e, c.tasks) ∧
      c.start g reply id sessionId userId statusName = c) ∨
    ∃ r e, let enrolled := c.register id sessionId userId (some statusName)
      c.tasks.beginStart id sessionId userId statusName = (.ok (r, e), enrolled.tasks) ∧
      enrolled.holder id = some c.made.length ∧
      enrolled.made = c.made ++ [⟨id, r, some statusName⟩] ∧
      (⟨id, r, some statusName⟩ : Enrolment).Tells statusName true e ∧
      c.start g reply id sessionId userId statusName =
        enrolled.send g reply (some c.made.length) id r e (!reply.accepts g) := by
  rcases c.register_cases id sessionId userId (some statusName) with
    ⟨r, hid, hs, _, howner, ht, heq⟩ | ⟨e, ht, _⟩
  · have hwhole : r.owner.Whole := howner ▸ whole_new hs userId
    have hbegin : c.tasks.beginStart id sessionId userId statusName =
        (.ok (r, Event.scopedTo (.taskInfo ⟨id, statusName, true, hid⟩) (some r.owner.sessionId)
          r.owner.userId), (c.register id sessionId userId (some statusName)).tasks) := by
      simp [Tasks.beginStart, ht, Tasks.statusEvent_eq hid, Except.map, heq]
    refine .inr ⟨r, _, hbegin, by simp [heq], by rw [heq], ?_, by rw [start, hbegin]⟩
    exact Enrolment.tells_scopedTo (m := ⟨id, r, some statusName⟩) hid hwhole statusName true
  · have hbegin : c.tasks.beginStart id sessionId userId statusName = (.error e, c.tasks) := by
      simp [Tasks.beginStart, ht]
    exact .inl ⟨e, hbegin, by rw [start, hbegin]⟩

/-- A report finds no registration, or offers an event for the one that the task is mapped by. -/
theorem Sound.report_cases (h : c.Sound) (g : Registry) (reply : Reply) (id : String)
    (statusName : Option String) (running : Bool) :
    (∃ e, c.tasks.beginReport id statusName running = .error e ∧
      c.report g reply id statusName running = c) ∨
    ∃ n m e, c.holder id = some n ∧ c.made[n]? = some m ∧ m.id = id ∧
      c.tasks.beginReport id statusName running = .ok (m.registration, e) ∧
      m.Tells statusName running e ∧
      c.report g reply id statusName running =
        c.send g reply (some n) id m.registration e (reply.accepts g && !running) := by
  rcases c.tasks.beginReport_cases id statusName running with ⟨e, hbegin⟩ | ⟨hid, r, hf, hbegin⟩
  · exact .inl ⟨e, hbegin, by rw [report, hbegin]⟩
  · cases hn : c.holder id with
    | none =>
      rw [h.find, hn] at hf
      exact nomatch hf
    | some n =>
      obtain ⟨m, hm, rfl⟩ := h.held id n hn
      obtain rfl : m.registration = r := Option.some.inj ((h.find_held hn hm).symm.trans hf)
      have hwhole := h.whole m (List.mem_of_getElem? hm)
      exact .inr ⟨n, m, _, rfl, hm, rfl, hbegin,
        Enrolment.tells_scopedTo hid hwhole statusName running, by rw [report, hbegin, hn]⟩

theorem Sound.step (h : c.Sound) (g : Registry) (s : Reply × TaskOp) : (c.step g s).Sound := by
  obtain ⟨reply, op⟩ := s
  cases op with
  | quiet op => exact h.quiet op
  | publish e => exact h.offer g reply e fun n hn => nomatch hn
  | start id sessionId userId statusName =>
    rcases c.start_cases g reply id sessionId userId statusName with
      ⟨_, _, heq⟩ | ⟨r, e, _, hheld, _, _, heq⟩
    · simpa only [Chronicle.step, heq] using h
    · have henrolled := h.register id sessionId userId (some statusName)
      simpa only [Chronicle.step, heq] using henrolled.send g reply hheld r e _
  | report id statusName running =>
    rcases h.report_cases g reply id statusName running with
      ⟨_, _, heq⟩ | ⟨n, m, e, hn, _, _, _, _, heq⟩
    · simpa only [Chronicle.step, heq] using h
    · simpa only [Chronicle.step, heq] using h.send g reply hn m.registration e _

theorem Records.send {w : Script × Tasks} (h : c.Records w) (g : Registry) (reply : Reply)
    (source : Option Nat) (id : String) (r : Registration) (e : Event) (back : Bool) :
    let p := g.publish Script.transport e (⟨reply, w.1.calls⟩, w.2)
    (c.send g reply source id r e back).Records
      (if back then (p.2.1, (p.2.2.release id r).2) else p.2) := by
  obtain ⟨htasks, hreceived⟩ := records_offer (g := g) h reply source e
  cases back with
  | true =>
    exact ⟨by simp only [Chronicle.send, if_true, tasks_release, htasks],
      (received_of_sent (sent_release _ id r)).trans hreceived⟩
  | false => exact ⟨htasks, hreceived⟩

theorem accepts_of_tells (g : Registry) (reply : Reply) (calls : List Call) {m : Enrolment}
    {statusName : Option String} {running : Bool} {e : Event} (h : m.Tells statusName running e)
    (t : Tasks) :
    (g.publish Script.transport e (⟨reply, calls⟩, t)).1.isOk = reply.accepts g := by
  rw [(Script.publish_outcome g reply calls e t).1, h.accepted]

theorem Records.step {w : Script × Tasks} (h : c.Records w) (hc : c.Sound) (s : Reply × TaskOp) :
    (c.step g s).Records (s.2.step g (⟨s.1, w.1.calls⟩, w.2)).2 := by
  obtain ⟨reply, op⟩ := s
  have hrest : c.Records (⟨reply, w.1.calls⟩, w.2) := ⟨h.tasks, h.received⟩
  cases op with
  | quiet op =>
    refine ⟨?_, ?_⟩
    · simp only [Chronicle.step, tasks_quiet, h.tasks, TaskOp.step, TaskOp.via]
    · exact (received_of_sent (sent_quietly c [op])).trans h.received
  | publish e => exact records_offer h reply none e
  | start id sessionId userId statusName =>
    rcases c.start_cases g reply id sessionId userId statusName with
      ⟨e, hbegin, heq⟩ | ⟨r, e, hbegin, _, _, htells, heq⟩
    · rw [h.tasks] at hbegin
      simpa [Chronicle.step, heq, TaskOp.step, TaskOp.via, Tasks.start, hbegin] using hrest
    · rw [h.tasks] at hbegin
      have henrolled : (c.register id sessionId userId (some statusName)).Records
          (w.1, (c.register id sessionId userId (some statusName)).tasks) :=
        ⟨rfl, (received_of_sent (sent_register ..)).trans h.received⟩
      have hsend := henrolled.send g reply (some c.made.length) id r e (!reply.accepts g)
      have hok := accepts_of_tells g reply w.1.calls htells
        (c.register id sessionId userId (some statusName)).tasks
      simp only [Chronicle.step, heq, TaskOp.step, TaskOp.via, (Tasks.start_begun _ hbegin _).2, hok]
      exact hsend
  | report id statusName running =>
    rcases hc.report_cases g reply id statusName running with
      ⟨e, hbegin, heq⟩ | ⟨n, m, e, _, _, _, hbegin, htells, heq⟩
    · rw [h.tasks] at hbegin
      simpa [Chronicle.step, heq, TaskOp.step, TaskOp.via, Tasks.report, hbegin] using hrest
    · rw [h.tasks] at hbegin
      have hsend := h.send g reply (some n) id m.registration e (reply.accepts g && !running)
      have hok := accepts_of_tells g reply w.1.calls htells w.2
      simp only [Chronicle.step, heq, TaskOp.step, TaskOp.via, (Tasks.report_begun _ hbegin _).2, hok]
      exact hsend

/-- The chronicle of a run is sound, and has the table and the accepted events of the run. -/
theorem records_ofRun (g : Registry) (steps : List (Reply × TaskOp)) :
    (ofRun g steps).Sound ∧ (ofRun g steps).Records (Script.ofRun g steps) := by
  induction steps using List.reverseRecOn with
  | nil => exact ⟨.empty, rfl, rfl⟩
  | append_singleton steps s ih =>
    obtain ⟨hsound, hrecords⟩ := ih
    rw [ofRun_append, Script.ofRun_append]
    exact ⟨hsound.step g s, hrecords.step hsound s⟩

end Chronicle

end EventGateway
