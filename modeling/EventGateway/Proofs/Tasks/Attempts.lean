import EventGateway.Proofs.Service.Ledger
import EventGateway.Proofs.Tasks.Scoping

/-! A start or a report is done as a whole or not at all. It asks the transport once, or is refused
before it gets that far, and what the transport answers is what it answers. This holds as long as
nothing else is done while the event is on its way. -/

namespace EventGateway

/-- What becomes of an operation on a task. -/
structure Attempt where
  /-- It gets as far as the transport. -/
  asks : Prop
  /-- What the transport is then asked to deliver. -/
  tells : Event → Prop
  /-- Why it does not get there. -/
  refusal : TaskError
  /-- Who owns which task once it has succeeded. -/
  owners : TaskMap

namespace Attempt

def ofStart (g : Registry) (t : Tasks) (id sessionId : String) (userId statusName : Option String) :
    Attempt where
  asks := id ≠ "" ∧ sessionId ≠ "" ∧ t.owner? id = none ∧ g.contains .sessionTask = true
  tells := Owner.Hears ⟨sessionId, userId.filter (· ≠ "")⟩ id statusName true
  refusal :=
    if id = "" then .emptyTaskId
    else if sessionId = "" then .emptySessionId
    else
      match t.owner? id with
      | some o => .stale id o.sessionId
      | none => .publish (.unknownTopic .sessionTask)
  owners := TaskMap.put t.owner? id (some ⟨sessionId, userId.filter (· ≠ "")⟩)

def ofReport (g : Registry) (t : Tasks) (id : String) (statusName : Option String) (running : Bool) :
    Attempt where
  asks := (t.owner? id).isSome = true ∧ g.contains .sessionTask = true
  tells e := ∃ o, t.owner? id = some o ∧ o.Hears id statusName running e
  refusal := if (t.owner? id).isSome then .publish (.unknownTopic .sessionTask) else .unknown id
  owners := if running then t.owner? else TaskMap.put t.owner? id none

/-- The operation came to this over a transport that has had the calls so far, and that gives the
answer. -/
structure Atomic (a : Attempt) (answer : Except DeliveryError Accepted) (calls : List Call)
    (t : Tasks) (p : Except TaskError Accepted × Script × Tasks) : Prop where
  asked : a.asks → p.1 = answer.mapError (fun x => .publish (.delivery x)) ∧ ∃ e, a.tells e ∧
    p.2.1.calls = calls ++ [⟨.sessionTask, Filter.ofEvent e, e, answer.isOk, []⟩]
  unasked : ¬a.asks → p.1 = .error a.refusal ∧ p.2.1.calls = calls
  failed : p.1.isOk = false → p.2.2.owner? = t.owner?
  succeeded : p.1.isOk = true → p.2.2.owner? = a.owners

end Attempt

theorem Owner.Hears.topic {o : Owner} {id : String} {statusName : Option String} {running : Bool}
    {e : Event} (h : o.Hears id statusName running e) : e.topic = .sessionTask := by
  obtain ⟨_, rfl⟩ := h
  rfl

namespace Script

/-- The transport on its own: one call more, and its answer, unless the topic is not served. -/
theorem publish_alone (g : Registry) (answer : Except DeliveryError Accepted) (calls : List Call)
    {e : Event} (he : e.topic = .sessionTask) (t : Tasks) :
    g.publish transport e (⟨⟨answer, []⟩, calls⟩, t) =
      if g.contains .sessionTask then
        (answer.mapError .delivery,
          ⟨⟨answer, []⟩, calls ++ [⟨.sessionTask, Filter.ofEvent e, e, answer.isOk, []⟩]⟩, t)
      else (.error (.unknownTopic .sessionTask), ⟨⟨answer, []⟩, calls⟩, t) := by
  rw [Registry.publish, he]
  cases answer <;> rfl

end Script

namespace Attempt

variable {a : Attempt} {answer : Except DeliveryError Accepted} {calls : List Call} {t t₁ : Tasks}

theorem Atomic.refused (hno : ¬a.asks) :
    a.Atomic answer calls t (.error a.refusal, ⟨⟨answer, []⟩, calls⟩, t) where
  asked h := absurd h hno
  unasked _ := ⟨rfl, rfl⟩
  failed _ := rfl
  succeeded h := nomatch h

/-- An operation that has an event to publish, and a last part that goes by the answer. -/
theorem Atomic.begun {g : Registry} {e : Event} (htells : a.tells e)
    (htopic : e.topic = .sessionTask) (hasks : a.asks ↔ g.contains .sessionTask = true)
    (hrefusal : a.refusal = .publish (.unknownTopic .sessionTask))
    (finish : Tasks → Except PublishError Accepted → Except TaskError Accepted × Tasks)
    (hanswer : ∀ x, (finish t₁ x).1 = x.mapError .publish)
    (hdone : ∀ n, (finish t₁ (.ok n)).2.owner? = a.owners)
    (hundone : ∀ x, (finish t₁ (.error x)).2.owner? = t.owner?) :
    let p := g.publish Script.transport e (⟨⟨answer, []⟩, calls⟩, t₁)
    a.Atomic answer calls t ((finish p.2.2 p.1).1, p.2.1, (finish p.2.2 p.1).2) := by
  rw [Script.publish_alone g answer calls htopic]
  -- Whether the attempt has succeeded is seen from the answer alone.
  have hok : ∀ x, (finish t₁ x).1.isOk = x.isOk := fun x => by rw [hanswer, isOk_mapError]
  cases hg : g.contains .sessionTask with
  | false =>
    have hno : ¬a.asks := by simp [hasks, hg]
    exact ⟨fun h => absurd h hno, fun _ => ⟨by simp [hanswer, hrefusal, Except.mapError], rfl⟩,
      fun _ => hundone _, fun h => (nomatch (hok _).symm.trans h)⟩
  | true =>
    have hyes : a.asks := hasks.mpr hg
    cases answer with
    | ok n =>
      exact ⟨fun _ => ⟨hanswer _, e, htells, rfl⟩, fun h => absurd hyes h,
        fun h => (nomatch (hok _).symm.trans h), fun _ => hdone n⟩
    | error x =>
      exact ⟨fun _ => ⟨hanswer _, e, htells, rfl⟩, fun h => absurd hyes h, fun _ => hundone _,
        fun h => (nomatch (hok _).symm.trans h)⟩

end Attempt

namespace Tasks

variable {t : Tasks}

/-- A start that may not register its task gets no further, whatever the publish would do. -/
theorem start_refused {σ : Type}
    (publish : Event → σ × Tasks → Except PublishError Accepted × σ × Tasks) (g : Registry)
    {id sessionId : String} {userId : Option String}
    (hno : id = "" ∨ sessionId = "" ∨ (t.find? id).isSome) (statusName : Option String) (x : σ) :
    ¬(Attempt.ofStart g t id sessionId userId statusName).asks ∧
    start publish id sessionId userId statusName x t =
      (.error (Attempt.ofStart g t id sessionId userId statusName).refusal, x, t) := by
  by_cases hid : id = ""
  · simp [start, beginStart, register, Attempt.ofStart, hid]
  · by_cases hs : sessionId = ""
    · simp [start, beginStart, register, Attempt.ofStart, hid, hs]
    · have hmapped := (hno.resolve_left hid).resolve_left hs
      obtain ⟨r, hr⟩ := Option.isSome_iff_exists.mp hmapped
      simp [start, beginStart, register, Attempt.ofStart, hid, hs, hr, owner?]

theorem report_refused {σ : Type}
    (publish : Event → σ × Tasks → Except PublishError Accepted × σ × Tasks) (g : Registry)
    {id : String} (hf : t.find? id = none) (statusName : Option String) (running : Bool) (x : σ) :
    ¬(Attempt.ofReport g t id statusName running).asks ∧
    report publish id statusName running x t =
      (.error (Attempt.ofReport g t id statusName running).refusal, x, t) := by
  have hfree : t.owner? id = none := by simp [owner?, hf]
  simp [report, beginReport, hf, Attempt.ofReport, hfree]

theorem start_atomic (t : Tasks) (g : Registry) (answer : Except DeliveryError Accepted)
    (calls : List Call) (id sessionId : String) (userId statusName : Option String) :
    (Attempt.ofStart g t id sessionId userId statusName).Atomic answer calls t
      (start (g.publish Script.transport) id sessionId userId statusName ⟨⟨answer, []⟩, calls⟩ t) := by
  rcases register_cases t id sessionId userId with ⟨hid, hs, hf, ht⟩ | ⟨hno, _, _⟩
  · obtain ⟨-, e, hhears, hbegin⟩ := beginStart_registered ht statusName
    have hfree : t.owner? id = none := by simp [owner?, hf]
    simp only [start, hbegin]
    refine .begun hhears hhears.topic (by simp [Attempt.ofStart, hid, hs, hfree])
      (by simp [Attempt.ofStart, hid, hs, hfree]) (fun t => t.endStart id _) (fun x => ?_)
      (fun n => ?_) fun x => ?_
    · cases x <;> rfl
    · exact funext fun j => owner?_made t id _ _ j
    · exact funext fun j => owner?_taken_back hf _ _ j
  · obtain ⟨hasks, hrefused⟩ :=
      start_refused (g.publish Script.transport) g hno statusName ⟨⟨answer, []⟩, calls⟩
    rw [hrefused]
    exact .refused hasks

theorem Reachable.report_atomic (h : t.Reachable) (g : Registry)
    (answer : Except DeliveryError Accepted) (calls : List Call) (id : String)
    (statusName : Option String) (running : Bool) :
    (Attempt.ofReport g t id statusName running).Atomic answer calls t
      (Tasks.report (g.publish Script.transport) id statusName running ⟨⟨answer, []⟩, calls⟩ t) := by
  cases hf : t.find? id with
  | none =>
    obtain ⟨hasks, hrefused⟩ :=
      report_refused (g.publish Script.transport) g hf statusName running ⟨⟨answer, []⟩, calls⟩
    rw [hrefused]
    exact .refused hasks
  | some r =>
    obtain ⟨e, hhears, -, hbegin⟩ := h.beginReport_found hf statusName running
    have howner : t.owner? id = some r.owner := by simp [owner?, hf]
    have htells : (Attempt.ofReport g t id statusName running).tells e := ⟨_, howner, hhears⟩
    simp only [Tasks.report, hbegin]
    refine .begun htells hhears.topic (by simp [Attempt.ofReport, howner])
      (by simp [Attempt.ofReport, howner]) (fun t => t.endReport id running r) (fun x => ?_)
      (fun n => ?_) fun x => rfl
    · cases x <;> rfl
    · cases running with
      | true => rfl
      | false => exact funext fun j => owner?_released hf j

/-- In every table that operations leave behind, with every registry and whatever the transport
answers, as long as it lets nothing else be done meanwhile: a start or a report that fails leaves every
task with its owner, and one that succeeds changes its own task only. The transport is asked once if
the ids are there, the task is mapped for a report and not for a start, and the topic is served, and
otherwise not at all; what it answers is passed on. -/
theorem attempts_atomic (h : t.Reachable) (g : Registry) (answer : Except DeliveryError Accepted)
    (calls : List Call) :
    (∀ id sessionId userId statusName,
      (Attempt.ofStart g t id sessionId userId statusName).Atomic answer calls t
        (start (g.publish Script.transport) id sessionId userId statusName
          ⟨⟨answer, []⟩, calls⟩ t)) ∧
    ∀ id statusName running,
      (Attempt.ofReport g t id statusName running).Atomic answer calls t
        (report (g.publish Script.transport) id statusName running ⟨⟨answer, []⟩, calls⟩ t) :=
  ⟨start_atomic t g answer calls, h.report_atomic g answer calls⟩

/-- The start of a second task is rejected, and the last status of the first one accepted. -/
theorem attempts_atomic_rejected :
    let t := ofRun .all beforeRestart
    let started := start (Registry.all.publish Script.transport) "T2" "S2" none none
      ⟨⟨.error (.rejected "full"), []⟩, []⟩ t
    let reported := report (Registry.all.publish Script.transport) "T1" none false
      ⟨⟨.ok ⟨3, 0⟩, []⟩, []⟩ t
    t.Reachable ∧ started.1 = .error (.publish (.delivery (.rejected "full"))) ∧
      started.2.1.calls.length = 1 ∧ started.2.2.owner? = t.owner? ∧
      reported.1 = .ok ⟨3, 0⟩ ∧ reported.2.2.owner? = TaskMap.put t.owner? "T1" none := by
  intro t started reported
  have hreachable : t.Reachable := reachable_ofRun .all beforeRestart
  have hstart := (attempts_atomic hreachable .all (.error (.rejected "full")) []).1 "T2" "S2" none none
  have hreport := (attempts_atomic hreachable .all (.ok ⟨3, 0⟩) []).2 "T1" none false
  obtain ⟨hrejected, e, -, hcalls⟩ := hstart.asked
    ⟨by decide, by decide, by decide +kernel, by decide⟩
  obtain ⟨haccepted, -⟩ := hreport.asked ⟨by decide +kernel, by decide⟩
  refine ⟨hreachable, hrejected, by rw [hcalls]; rfl, hstart.failed (by rw [hrejected]; rfl),
    haccepted, hreport.succeeded (by rw [haccepted]; rfl)⟩

end Tasks

end EventGateway
