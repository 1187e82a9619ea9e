import EventGateway.Proofs.Tasks.Roll
import Mathlib.Data.List.Induction

/-! A start or a report removes no registration but its own. Between the time when it registers or
looks up its task and the time when it is answered, the task may be abandoned and registered again,
even by the same owner. What counts is whether the roll still has the same number there. -/

namespace EventGateway

/-- Whether an operation that publishes went through. -/
def TaskResult.accepted : TaskResult → Bool
  | .published r => r.isOk
  | .quiet _ => true

namespace Tasks

/-- The table after a run. Each operation comes with what the transport does if it is asked. -/
def ofRun (g : Registry) (steps : List (Reply × TaskOp)) : Tasks :=
  steps.foldl (fun t s => (s.2.step g (⟨s.1, []⟩, t)).2.2) empty

/-- `after` lacks the registration with the number `n` if it mapped the task in `t`, whose roll is
`r`, and is the same otherwise. -/
def TakesOnly (t : Tasks) (r : Roll) (id : String) (n : Nat) (after : Tasks) : Prop :=
  ∀ j, after.find? j = if j = id ∧ r.Holds id n then none else t.find? j

variable {t : Tasks} {r : Roll}

theorem step_start_error {g : Registry} {reply : Reply} {id sessionId : String}
    {userId statusName : Option String} {e : TaskError}
    (ht : t.register id sessionId userId = (.error e, t)) :
    ((TaskOp.start id sessionId userId statusName).step g (⟨reply, []⟩, t)).2.2 = t := by
  simp [TaskOp.step, TaskOp.via, start, beginStart, ht]

theorem step_start_ok (g : Registry) (reply : Reply) (statusName : Option String)
    {id sessionId : String} {userId : Option String} {x : Registration} {t₀ : Tasks} (hid : id ≠ "")
    (ht : t.register id sessionId userId = (.ok x, t₀)) :
    let p := (TaskOp.start id sessionId userId statusName).step g (⟨reply, []⟩, t)
    p.1.accepted = reply.accepts g ∧
    p.2.2 = if reply.accepts g then t₀.during g reply
      else ((t₀.during g reply).release id x).2 := by
  obtain ⟨e, he, htopic⟩ := statusEvent_ok hid x.owner statusName true
  have hbegin : t.beginStart id sessionId userId statusName = (.ok (x, e), t₀) := by
    simp [beginStart, ht, he, Except.map]
  obtain ⟨hok, htable⟩ := Script.publish_task g reply [] htopic t₀
  obtain ⟨hresult, hafter⟩ := start_begun (g.publish Script.transport) hbegin ⟨reply, []⟩
  simp only [TaskOp.step, TaskOp.via, TaskResult.accepted, hresult, hafter, hok]
  cases reply.accepts g <;> simp [htable]

theorem step_report_unknown {g : Registry} {reply : Reply} {id : String}
    {statusName : Option String} {running : Bool} (hf : t.find? id = none) :
    ((TaskOp.report id statusName running).step g (⟨reply, []⟩, t)).2.2 = t := by
  simp [TaskOp.step, TaskOp.via, report, beginReport, hf]

theorem step_report_ok (g : Registry) (reply : Reply) (statusName : Option String) (running : Bool)
    {id : String} {x : Registration} (hid : id ≠ "") (hf : t.find? id = some x) :
    let p := (TaskOp.report id statusName running).step g (⟨reply, []⟩, t)
    p.1.accepted = reply.accepts g ∧
    p.2.2 = if reply.accepts g && !running then ((t.during g reply).release id x).2
      else t.during g reply := by
  obtain ⟨e, he, htopic⟩ := statusEvent_ok hid x.owner statusName running
  have hbegin : t.beginReport id statusName running = .ok (x, e) := by
    simp [beginReport, hf, he, Except.map]
  obtain ⟨hok, htable⟩ := Script.publish_task g reply [] htopic t
  obtain ⟨hresult, hafter⟩ := report_begun (g.publish Script.transport) hbegin ⟨reply, []⟩
  simp only [TaskOp.step, TaskOp.via, TaskResult.accepted, hresult, hafter, hok]
  cases reply.accepts g && !running <;> simp [htable]

theorem Follows.register_none (h : t.Follows r) {id sessionId : String} {userId : Option String}
    {e : TaskError} {t' : Tasks} (ht : t.register id sessionId userId = (.error e, t')) :
    t' = t ∧ (id = "" ∨ sessionId = "" ∨ (r.entry id).isSome) := by
  rcases register_cases t id sessionId userId with ⟨_, _, _, he⟩ | ⟨hc, e', he⟩
  · simp [he] at ht
  · rw [h.isSome_find] at hc
    exact ⟨(congrArg Prod.snd (he.symm.trans ht)).symm, hc⟩

theorem Follows.register_some (h : t.Follows r) {id sessionId : String} {userId : Option String}
    {x : Registration} {t₀ : Tasks} (ht : t.register id sessionId userId = (.ok x, t₀)) :
    id ≠ "" ∧ ¬(id = "" ∨ sessionId = "" ∨ (r.entry id).isSome) ∧
    x = (⟨r.made, sessionId, nonEmpty? userId⟩ : Numbered).registration ∧
    t₀.Follows (r.register id sessionId userId) ∧
    (r.register id sessionId userId).made = r.made + 1 := by
  have h₀ := h.register id sessionId userId
  rcases register_cases t id sessionId userId with ⟨hid, hs, hf, he⟩ | ⟨_, e', he⟩
  · have hfree : ¬(id = "" ∨ sessionId = "" ∨ (r.entry id).isSome) := by
      rw [← h.isSome_find, hf]
      simp [hid, hs]
    rw [ht] at he h₀
    obtain ⟨hx, ht₀⟩ := Prod.mk.inj he
    refine ⟨hid, hfree, ?_, h₀, by simp [Roll.register, hfree]⟩
    rw [Except.ok.inj hx, h.next]
    rfl
  · simp [he] at ht

theorem Follows.takesOnly (h : t.Follows r) (few : r.made ≤ UInt64.size) {x : Numbered}
    (hx : x.number < r.made) (id : String) :
    t.TakesOnly r id x.number (t.release id x.registration).2 := by
  intro j
  rw [(h.release few hx id).find, Roll.release]
  by_cases hr : r.Holds id x.number
  · by_cases hj : j = id
    · simp [hr, hj, Roll.put]
    · simp [hr, hj, Roll.put, h.find]
  · simp [hr, h.find]

/-- A registration with another number survives with its owner. -/
theorem TakesOnly.survives {after : Tasks} {id : String} {n : Nat} (h : t.Follows r)
    (htakes : t.TakesOnly r id n after) {j : String} {y : Numbered} (hy : r.entry j = some y)
    (hn : y.number ≠ n) : after.owner? j = some y.owner := by
  have hkeep : ¬(j = id ∧ r.Holds id n) := by
    rintro ⟨rfl, hr⟩
    simp only [Roll.Holds, hy, Option.map_some, Option.some.injEq] at hr
    exact hn hr
  simp [owner?, htakes j, hkeep, h.find, hy, Numbered.registration]

theorem Follows.owner (h : t.Follows r) {j : String} {y : Numbered} (hy : r.entry j = some y) :
    t.owner? j = some y.owner := by
  simp [owner?, h.find, hy, Numbered.registration]

theorem Follows.step (h : t.Follows r) (g : Registry) (s : Reply × TaskOp)
    (few : (r.step g s).made ≤ UInt64.size) :
    (s.2.step g (⟨s.1, []⟩, t)).2.2.Follows (r.step g s) := by
  obtain ⟨reply, op⟩ := s
  cases op with
  | quiet op => exact h.quiet op
  | publish e =>
    have hq := h.quietly reply.during
    by_cases hg : g.contains e.topic = true
    · simpa [Roll.step, TaskOp.step, TaskOp.via, Registry.publish, Script.transport, hg] using hq
    · simpa [Roll.step, TaskOp.step, TaskOp.via, Registry.publish, hg] using h
  | start id sessionId userId statusName =>
    cases ht : t.register id sessionId userId with | mk result t₀ =>
    cases result with
    | error e =>
      obtain ⟨rfl, hc⟩ := h.register_none ht
      simpa [step_start_error ht, Roll.step, Roll.start, hc] using h
    | ok x =>
      obtain ⟨hid, hfree, rfl, h₀, hmade⟩ := h.register_some ht
      have h₁ := h₀.during g reply
      have hle := Roll.made_le_during (r.register id sessionId userId) g reply
      simp only [(step_start_ok g reply statusName hid ht).2, Roll.step, Roll.start,
        if_neg hfree] at few ⊢
      cases ha : reply.accepts g with
      | true => simpa using h₁
      | false =>
        simp only [ha, Bool.false_eq_true, if_false, Roll.made_release] at few ⊢
        exact h₁.release few (by simp only; omega) id
  | report id statusName running =>
    cases hr : r.entry id with
    | none =>
      have hf : t.find? id = none := by simp [h.find, hr]
      simpa [step_report_unknown hf, Roll.step, Roll.report, hr] using h
    | some x =>
      have hf : t.find? id = some x.registration := by simp [h.find, hr]
      have h₁ := h.during g reply
      have hle := Roll.made_le_during r g reply
      have hx := h.below id x hr
      have htable := (step_report_ok g reply statusName running (h.named id x hr) hf).2
      simp only [htable, Roll.step, Roll.report, hr] at few ⊢
      cases ha : reply.accepts g && !running with
      | false => simpa using h₁
      | true =>
        simp only [ha, if_true, Roll.made_release] at few ⊢
        exact h₁.release few (by omega) id

theorem ofRun_append (g : Registry) (steps : List (Reply × TaskOp)) (s : Reply × TaskOp) :
    ofRun g (steps ++ [s]) = (s.2.step g (⟨s.1, []⟩, ofRun g steps)).2.2 := by
  simp [ofRun]

theorem follows_ofRun (g : Registry) (steps : List (Reply × TaskOp))
    (few : (Roll.ofRun g steps).made ≤ UInt64.size) :
    (ofRun g steps).Follows (Roll.ofRun g steps) := by
  induction steps using List.reverseRecOn with
  | nil => exact Follows.empty
  | append_singleton steps s ih =>
    rw [Roll.ofRun_append] at few ⊢
    rw [ofRun_append]
    exact (ih (Nat.le_trans (Roll.made_le_step g _ s) few)).step g s few

/-- A refused start takes away what it registered, unless that is gone already. -/
theorem Follows.start_owns (h : t.Follows r) (g : Registry) (reply : Reply)
    (statusName : Option String) {id sessionId : String} {userId : Option String} {x : Registration}
    {t₀ : Tasks} (ht : t.register id sessionId userId = (.ok x, t₀))
    (few : (r.start g reply id sessionId userId).made ≤ UInt64.size) :
    let p := (TaskOp.start id sessionId userId statusName).step g (⟨reply, []⟩, t)
    let answered := t₀.during g reply
    let roll := (r.register id sessionId userId).during g reply
    answered.Follows roll ∧
    (if p.1.accepted then p.2.2 = answered else answered.TakesOnly roll id r.made p.2.2) ∧
    ∀ j y, roll.entry j = some y → r.made < y.number → p.2.2.owner? j = some y.owner := by
  obtain ⟨hid, hfree, rfl, h₀, hmade⟩ := h.register_some ht
  have h₁ := h₀.during g reply
  have hle := Roll.made_le_during (r.register id sessionId userId) g reply
  obtain ⟨hresult, htable⟩ := step_start_ok g reply statusName hid ht
  simp only [Roll.start, if_neg hfree] at few
  refine ⟨h₁, ?_⟩
  simp only [hresult, htable]
  cases ha : reply.accepts g with
  | true => exact ⟨rfl, fun j y hy _ => h₁.owner hy⟩
  | false =>
    simp only [ha, Bool.false_eq_true, if_false, Roll.made_release] at few ⊢
    have hown : r.made < ((r.register id sessionId userId).during g reply).made := by omega
    have htakes := h₁.takesOnly few (x := ⟨r.made, sessionId, nonEmpty? userId⟩) hown id
    exact ⟨htakes, fun j y hy hn => htakes.survives h₁ hy (Nat.ne_of_gt hn)⟩

/-- An accepted last report takes away the registration it found, unless that is gone already. -/
theorem Follows.report_owns (h : t.Follows r) (g : Registry) (reply : Reply)
    (statusName : Option String) (running : Bool) {id : String} {x : Numbered}
    (hr : r.entry id = some x) (few : (r.report g reply id running).made ≤ UInt64.size) :
    let p := (TaskOp.report id statusName running).step g (⟨reply, []⟩, t)
    let answered := t.during g reply
    let roll := r.during g reply
    answered.Follows roll ∧
    (if p.1.accepted ∧ running = false then answered.TakesOnly roll id x.number p.2.2
      else p.2.2 = answered) ∧
    ∀ j y, roll.entry j = some y → r.made ≤ y.number → p.2.2.owner? j = some y.owner := by
  have hf : t.find? id = some x.registration := by simp [h.find, hr]
  have h₁ := h.during g reply
  have hle := Roll.made_le_during r g reply
  have hx := h.below id x hr
  obtain ⟨hresult, htable⟩ := step_report_ok g reply statusName running (h.named id x hr) hf
  simp only [Roll.report, hr] at few
  refine ⟨h₁, ?_⟩
  simp only [hresult, htable]
  cases ha : reply.accepts g && !running with
  | false =>
    have hno : ¬(reply.accepts g = true ∧ running = false) := by simpa using ha
    simp only [hno, Bool.false_eq_true, if_false]
    exact ⟨trivial, fun j y hy _ => h₁.owner hy⟩
  | true =>
    have hyes : reply.accepts g = true ∧ running = false := by simpa using ha
    simp only [ha, if_true, Roll.made_release] at few
    simp only [hyes, and_self, if_true]
    have htakes := h₁.takesOnly few (Nat.lt_of_lt_of_le hx hle) id
    exact ⟨htakes, fun j y hy hn => htakes.survives h₁ hy (by omega)⟩

/-- In every run with fewer registrations than generations: a start that fails after it has
registered its task takes that registration away, if the roll still has it there when the publish
returns, and nothing else. A report that is accepted as the last one does so with the registration
that it found. What was registered during the publish survives with its owner, and everything else
is as the operations during the publish have left it. -/
theorem removes_only_own (g : Registry) (steps : List (Reply × TaskOp)) (reply : Reply) (op : TaskOp)
    (few : (Roll.ofRun g (steps ++ [(reply, op)])).made < UInt64.size) :
    let t := ofRun g steps
    let r := Roll.ofRun g steps
    let result := (op.step g (⟨reply, []⟩, t)).1
    let after := ofRun g (steps ++ [(reply, op)])
    t.Follows r ∧ after.Follows (Roll.ofRun g (steps ++ [(reply, op)])) ∧
    (∀ id sessionId userId statusName, op = .start id sessionId userId statusName →
      (∀ e t₀, t.register id sessionId userId = (.error e, t₀) → after = t) ∧
      (∀ x t₀, t.register id sessionId userId = (.ok x, t₀) →
        let answered := t₀.during g reply
        let roll := (r.register id sessionId userId).during g reply
        answered.Follows roll ∧
        (if result.accepted then after = answered else answered.TakesOnly roll id r.made after) ∧
        ∀ j y, roll.entry j = some y → r.made < y.number → after.owner? j = some y.owner)) ∧
    (∀ id statusName running, op = .report id statusName running →
      (r.entry id = none → after = t) ∧
      (∀ x, r.entry id = some x →
        let answered := t.during g reply
        let roll := r.during g reply
        answered.Follows roll ∧
        (if result.accepted ∧ running = false then answered.TakesOnly roll id x.number after
          else after = answered) ∧
        ∀ j y, roll.entry j = some y → r.made ≤ y.number → after.owner? j = some y.owner)) := by
  have hafter := follows_ofRun g _ (Nat.le_of_lt few)
  rw [Roll.ofRun_append] at few hafter ⊢
  have h := follows_ofRun g steps
    (Nat.le_trans (Roll.made_le_step g _ _) (Nat.le_of_lt few))
  simp only [ofRun_append] at hafter ⊢
  refine ⟨h, hafter, ?_, ?_⟩
  · rintro id sessionId userId statusName rfl
    refine ⟨fun e t₀ ht => ?_, fun x t₀ ht => h.start_owns g reply statusName ht (Nat.le_of_lt few)⟩
    obtain ⟨rfl, _⟩ := h.register_none ht
    exact step_start_error ht
  · rintro id statusName running rfl
    refine ⟨fun hr => ?_, fun x hr => h.report_owns g reply statusName running hr (Nat.le_of_lt few)⟩
    exact step_report_unknown (by simp [h.find, hr])

/-- While the last status of a task is on its way its owner abandons the task and registers it
again. -/
def restarted : Reply := ⟨.ok ⟨1, 0⟩, [.abandon "T1", .started "T1" "S1" none]⟩

def beforeRestart : List (Reply × TaskOp) :=
  [(⟨.ok ⟨1, 0⟩, []⟩, .start "T1" "S1" (some "") (some "queued")),
    (⟨.error .closed, [.abandon "T2"]⟩, .start "T2" "S2" none none)]

theorem removes_only_own_restarted :
    (Roll.ofRun .all (beforeRestart ++ [(restarted, .report "T1" none false)])).made < UInt64.size ∧
    (ofRun .all (beforeRestart ++ [(restarted, .report "T1" none false)])).owner? "T1" =
      some ⟨"S1", none⟩ := by
  have few : (Roll.ofRun .all
      (beforeRestart ++ [(restarted, .report "T1" none false)])).made < UInt64.size := by decide
  have hreport := (removes_only_own .all beforeRestart restarted (.report "T1" none false) few).2.2.2
    "T1" none false rfl
  have hread : (Roll.ofRun .all beforeRestart).entry "T1" = some ⟨0, "S1", none⟩ := by decide
  exact ⟨few, (hreport.2 _ hread).2.2 "T1" ⟨2, "S1", none⟩ (by decide) (by decide)⟩

end Tasks

end EventGateway
