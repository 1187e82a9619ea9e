import EventGateway.Proofs.Tasks.Ownership

/-! The tables of tasks that operations leave behind, however they overlap. Whatever happens while an
event is on its way, a start and a report change the table by registering and releasing only. -/

namespace EventGateway.Tasks

/-- A table that can arise from the empty one. Any registration may be released at any time, which
is more than starts and reports ever do. -/
inductive Reachable : Tasks → Prop
  | empty : Reachable Tasks.empty
  | quiet {t : Tasks} (h : Reachable t) (op : QuietOp) : Reachable (t.quiet op).2
  | release {t : Tasks} (h : Reachable t) (id : String) (r : Registration) :
      Reachable (t.release id r).2

theorem beginStart_table (t : Tasks) (id sessionId : String) (userId statusName : Option String) :
    (t.beginStart id sessionId userId statusName).2 = (t.register id sessionId userId).2 := by
  rcases register_cases t id sessionId userId with ⟨_, _, _, ht⟩ | ⟨_, e, ht⟩ <;>
    simp [beginStart, ht]

namespace Reachable

variable {σ : Type} {t : Tasks}
  {publish : Event → σ × Tasks → Except PublishError Accepted × σ × Tasks}

theorem register (h : t.Reachable) (id sessionId : String) (userId : Option String) :
    (t.register id sessionId userId).2.Reachable :=
  h.quiet (.started id sessionId userId)

theorem quietly (h : t.Reachable) (ops : List QuietOp) : (t.quietly ops).2.Reachable := by
  induction ops generalizing t with
  | nil => exact h
  | cons op ops ih => exact ih (h.quiet op)

theorem start (h : t.Reachable) (hpublish : ∀ e w, w.2.Reachable → (publish e w).2.2.Reachable)
    (id sessionId : String) (userId statusName : Option String) (x : σ) :
    (start publish id sessionId userId statusName x t).2.2.Reachable := by
  have hbegun : (t.beginStart id sessionId userId statusName).2.Reachable :=
    beginStart_table t id sessionId userId statusName ▸ h.register id sessionId userId
  cases hbegin : t.beginStart id sessionId userId statusName with | mk result t₁ =>
  rw [hbegin] at hbegun
  cases result with
  | error e => simpa [Tasks.start, hbegin] using hbegun
  | ok re =>
    -- Taking a start back that was not accepted is a release as any other.
    have hanswered := hpublish re.2 (x, t₁) hbegun
    rw [(start_begun publish hbegin x).2]
    split
    · exact hanswered.release id re.1
    · exact hanswered

theorem report (h : t.Reachable) (hpublish : ∀ e w, w.2.Reachable → (publish e w).2.2.Reachable)
    (id : String) (statusName : Option String) (running : Bool) (x : σ) :
    (report publish id statusName running x t).2.2.Reachable := by
  cases hbegin : t.beginReport id statusName running with
  | error e => simpa [Tasks.report, hbegin] using h
  | ok re =>
    have hanswered := hpublish re.2 (x, t) h
    rw [(report_begun publish hbegin x).2]
    split
    · exact hanswered.release id re.1
    · exact hanswered

theorem published (g : Registry) (e : Event) {w : Script × Tasks} (h : w.2.Reachable) :
    (g.publish Script.transport e w).2.2.Reachable := by
  obtain ⟨⟨reply, calls⟩, t⟩ := w
  rw [(Script.publish_outcome g reply calls e t).2.1]
  split
  · exact h.quietly reply.during
  · exact h

theorem step (h : t.Reachable) (g : Registry) (op : TaskOp) (x : Script) :
    (op.step g (x, t)).2.2.Reachable := by
  cases op with
  | quiet op => exact h.quiet op
  | publish e => exact published g e h
  | start id sessionId userId statusName =>
    exact h.start (fun e _ => published g e) id sessionId userId statusName x
  | report id statusName running =>
    exact h.report (fun e _ => published g e) id statusName running x

end Reachable

theorem reachable_ofRun (g : Registry) (steps : List (Reply × TaskOp)) :
    (ofRun g steps).Reachable := by
  induction steps using List.reverseRecOn with
  | nil => exact .empty
  | append_singleton steps s ih =>
    rw [ofRun_append]
    exact ih.step g s.2 ⟨s.1, []⟩

namespace Reachable

variable {t : Tasks}

theorem entry (h : t.Reachable) : ∀ x ∈ t.entries, x.1 ≠ "" ∧ x.2.owner.Whole := by
  induction h with
  | empty => exact fun x hx => absurd hx List.not_mem_nil
  | @quiet t _ op ih =>
    cases op with
    | started id sessionId userId =>
      rcases register_cases t id sessionId userId with ⟨hid, hs, _, ht⟩ | ⟨_, e, ht⟩
      · simp only [Tasks.quiet, ht, List.forall_mem_cons]
        exact ⟨⟨hid, whole_new hs userId⟩, ih⟩
      · simpa only [Tasks.quiet, ht] using ih
    | abandon id => exact fun x hx => ih x (List.mem_filter.mp hx).1
    | info | owner | sessionOf => exact ih
  | @release t _ id r ih =>
    rw [release_table]
    split
    · exact fun x hx => ih x (List.mem_filter.mp hx).1
    · exact ih

theorem found (h : t.Reachable) {id : String} {r : Registration} (hf : t.find? id = some r) :
    id ≠ "" ∧ r.owner.Whole :=
  h.entry (id, r) (mem_of_find? hf)

end Reachable

end EventGateway.Tasks
