import EventGateway.Proofs.Outcome
import EventGateway.Tasks.Script

/-! What each operation does to the look-up of every task. -/

namespace EventGateway

/-- An owner whose session is named, and whose user is named or not there. -/
def Owner.Whole (o : Owner) : Prop := o.sessionId ≠ "" ∧ nonEmpty? o.userId = o.userId

theorem Owner.Whole.scope {o : Owner} (ho : o.Whole) :
    Scope.of (some o.sessionId) o.userId = ⟨some o.sessionId, o.userId⟩ := by
  rw [Scope.of, ho.2]
  simp [nonEmpty?, ho.1]

theorem whole_new {sessionId : String} (hs : sessionId ≠ "") (userId : Option String) :
    (⟨sessionId, nonEmpty? userId⟩ : Owner).Whole :=
  ⟨hs, by simp [nonEmpty?]⟩

namespace Tasks

theorem find?_erase (t : Tasks) (id j : String) :
    (t.erase id).find? j = if j = id then none else t.find? j :=
  lookup_filter_ne t.entries id j

theorem mem_of_find? {t : Tasks} {id : String} {r : Registration} (hf : t.find? id = some r) :
    (id, r) ∈ t.entries := by
  obtain ⟨l₁, l₂, hsplit, -⟩ := List.lookup_eq_some_iff.mp hf
  simp [hsplit]

/-- A registration is made when both ids are there and the task is not mapped, and otherwise the
table stays as it is. -/
theorem register_cases (t : Tasks) (id sessionId : String) (userId : Option String) :
    (id ≠ "" ∧ sessionId ≠ "" ∧ t.find? id = none ∧
      t.register id sessionId userId =
        (.ok ⟨⟨sessionId, nonEmpty? userId⟩, t.next⟩,
          ⟨(id, ⟨⟨sessionId, nonEmpty? userId⟩, t.next⟩) :: t.entries, t.next + 1⟩)) ∨
    ((id = "" ∨ sessionId = "" ∨ (t.find? id).isSome) ∧
      ∃ e, t.register id sessionId userId = (.error e, t)) := by
  by_cases hid : id = ""
  · exact .inr ⟨.inl hid, .emptyTaskId, by simp [register, hid]⟩
  · by_cases hs : sessionId = ""
    · exact .inr ⟨.inr (.inl hs), .emptySessionId, by simp [register, hid, hs]⟩
    · cases hf : t.find? id with
      | none => exact .inl ⟨hid, hs, rfl, by simp [register, hid, hs, hf]⟩
      | some r =>
        exact .inr ⟨.inr (.inr rfl), .stale id r.owner.sessionId, by simp [register, hid, hs, hf]⟩

theorem release_table (t : Tasks) (id : String) (r : Registration) :
    (t.release id r).2 =
      if (t.find? id).map Registration.generation = some r.generation then t.erase id else t := by
  unfold release
  cases hf : t.find? id with
  | none => simp
  | some current => by_cases hg : current.generation = r.generation <;> simp [hg]

theorem statusEvent_eq {id : String} (hid : id ≠ "") (owner : Owner) (statusName : Option String)
    (running : Bool) : statusEvent id owner statusName running =
      .ok (Event.scopedTo (.taskInfo ⟨id, statusName, running, hid⟩) (some owner.sessionId)
        owner.userId) := by
  simp [statusEvent, TaskInfo.of?, hid]

theorem statusEvent_ok {id : String} (hid : id ≠ "") (owner : Owner) (statusName : Option String)
    (running : Bool) : ∃ e, statusEvent id owner statusName running = .ok e ∧
      e.topic = .sessionTask :=
  ⟨_, statusEvent_eq hid owner statusName running, rfl⟩

/-- A start is refused before anything is registered, or has an event to announce. -/
theorem beginStart_cases (t : Tasks) (id sessionId : String) (userId statusName : Option String) :
    (∃ e, t.beginStart id sessionId userId statusName = (.error e, t)) ∨
    ∃ hid : id ≠ "", sessionId ≠ "" ∧ t.find? id = none ∧
      t.beginStart id sessionId userId statusName =
        (.ok (⟨⟨sessionId, nonEmpty? userId⟩, t.next⟩,
          Event.scopedTo (.taskInfo ⟨id, statusName, true, hid⟩) (some sessionId)
            (nonEmpty? userId)),
        ⟨(id, ⟨⟨sessionId, nonEmpty? userId⟩, t.next⟩) :: t.entries, t.next + 1⟩) := by
  rcases register_cases t id sessionId userId with ⟨hid, hs, hf, ht⟩ | ⟨_, e, ht⟩
  · exact .inr ⟨hid, hs, hf, by simp [beginStart, ht, statusEvent_eq hid, Except.map]⟩
  · exact .inl ⟨e, by simp [beginStart, ht]⟩

theorem beginReport_cases (t : Tasks) (id : String) (statusName : Option String) (running : Bool) :
    (∃ e, t.beginReport id statusName running = .error e) ∨
    ∃ (hid : id ≠ "") (r : Registration), t.find? id = some r ∧
      t.beginReport id statusName running =
        .ok (r, Event.scopedTo (.taskInfo ⟨id, statusName, running, hid⟩) (some r.owner.sessionId)
          r.owner.userId) := by
  cases hf : t.find? id with
  | none => exact .inl ⟨.unknown id, by simp [beginReport, hf]⟩
  | some r =>
    by_cases hid : id = ""
    · have hnone : TaskInfo.of? id statusName running = none := by simp [TaskInfo.of?, hid]
      exact .inl ⟨.emptyTaskId, by simp [beginReport, hf, statusEvent, hnone, Except.map]⟩
    · exact .inr ⟨hid, r, rfl, by simp [beginReport, hf, statusEvent_eq hid, Except.map]⟩

/-- A registration that is taken back leaves every task as it was. -/
theorem entries_taken_back {t : Tasks} {id : String} (hf : t.find? id = none) (r : Registration)
    (n : UInt64) :
    ((⟨(id, r) :: t.entries, n⟩ : Tasks).release id r).2.entries = t.entries := by
  have hheld : (⟨(id, r) :: t.entries, n⟩ : Tasks).find? id = some r := by simp [find?]
  have hothers : ∀ e ∈ t.entries, e.1 ≠ id := by
    intro e he heq
    have hne := List.lookup_eq_none_iff.mp hf e he
    simp [heq] at hne
  rw [release_table, hheld, if_pos (by rfl), erase, List.filter_cons_of_neg (by simp)]
  exact List.filter_eq_self.mpr fun e he => by simpa using hothers e he

/-- The table when a publish of a task event returns: what the transport lets happen meanwhile is
done, unless the topic is not enabled and the transport not asked. -/
def during (t : Tasks) (g : Registry) (reply : Reply) : Tasks :=
  if g.contains .sessionTask then (t.quietly reply.during).2 else t

end Tasks

namespace Reply

def accepts (reply : Reply) (g : Registry) : Bool :=
  g.contains .sessionTask && reply.answer.isOk

end Reply

theorem isOk_mapError {α ε ε' : Type} (f : ε → ε') (x : Except ε α) :
    (x.mapError f).isOk = x.isOk := by
  cases x <;> rfl

namespace Script

/-- The events that the transport has accepted, in order. -/
def received (s : Script) : List Event := (s.calls.filter (·.accepted)).map (·.event)

theorem publish_outcome (g : Registry) (reply : Reply) (calls : List Call) (e : Event) (t : Tasks) :
    let p := g.publish transport e (⟨reply, calls⟩, t)
    let accepted := g.contains e.topic && reply.answer.isOk
    p.1.isOk = accepted ∧
    p.2.2 = (if g.contains e.topic then (t.quietly reply.during).2 else t) ∧
    p.2.1.received = received ⟨reply, calls⟩ ++ if accepted then [e] else [] := by
  by_cases hg : g.contains e.topic = true
  · simp only [Registry.publish, hg, transport, if_true, isOk_mapError, Bool.true_and, true_and]
    cases reply.answer <;> simp [received, Except.isOk, Except.toBool]
  · simp [Registry.publish, hg, received, Except.isOk, Except.toBool]

theorem publish_task (g : Registry) (reply : Reply) (calls : List Call) {e : Event}
    (he : e.topic = .sessionTask) (t : Tasks) :
    (g.publish transport e (⟨reply, calls⟩, t)).1.isOk = reply.accepts g ∧
    (g.publish transport e (⟨reply, calls⟩, t)).2.2 = t.during g reply := by
  obtain ⟨hok, htable, _⟩ := publish_outcome g reply calls e t
  rw [he] at hok htable
  exact ⟨hok, htable⟩

end Script

namespace Tasks

variable {σ : Type} {t t₁ : Tasks} {r : Registration} {e : Event}

/-- A start that has an event to announce succeeds if it is accepted, and is taken back if not. -/
theorem start_begun (publish : Event → σ × Tasks → Except PublishError Accepted × σ × Tasks)
    {id sessionId : String} {userId statusName : Option String}
    (hbegin : t.beginStart id sessionId userId statusName = (.ok (r, e), t₁)) (x : σ) :
    let p := publish e (x, t₁)
    (start publish id sessionId userId statusName x t).1.isOk = p.1.isOk ∧
    (start publish id sessionId userId statusName x t).2 =
      if !p.1.isOk then (p.2.1, (p.2.2.release id r).2) else p.2 := by
  simp only [start, hbegin]
  cases (publish e (x, t₁)).1 with
  | ok a => exact ⟨rfl, rfl⟩
  | error e' => exact ⟨rfl, rfl⟩

theorem report_begun (publish : Event → σ × Tasks → Except PublishError Accepted × σ × Tasks)
    {id : String} {statusName : Option String} {running : Bool}
    (hbegin : t.beginReport id statusName running = .ok (r, e)) (x : σ) :
    let p := publish e (x, t)
    (report publish id statusName running x t).1.isOk = p.1.isOk ∧
    (report publish id statusName running x t).2 =
      if p.1.isOk && !running then (p.2.1, (p.2.2.release id r).2) else p.2 := by
  simp only [report, hbegin]
  cases (publish e (x, t)).1 with
  | ok a => cases running <;> exact ⟨rfl, rfl⟩
  | error e' => exact ⟨rfl, rfl⟩

end Tasks

end EventGateway
