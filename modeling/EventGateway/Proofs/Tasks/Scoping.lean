import EventGateway.Proofs.Hub.Delivery
import EventGateway.Proofs.Service.Announce
import EventGateway.Proofs.Tasks.Reachability

/-! The status of a task is told to its owner and to nobody else. An empty session id would turn it
into an event for everyone; that none is there is settled when the task is registered, and relied on
whenever an event is built. -/

namespace EventGateway

/-- The event gives this status of the task, in the session of the owner and for its user. -/
def Owner.Hears (o : Owner) (id : String) (statusName : Option String) (running : Bool)
    (e : Event) : Prop :=
  ∃ hid : id ≠ "", e = ⟨⟨some o.sessionId, o.userId⟩, .taskInfo ⟨id, statusName, running, hid⟩⟩

theorem Owner.Whole.statusEvent {o : Owner} (ho : o.Whole) {id : String} (hid : id ≠ "")
    (statusName : Option String) (running : Bool) :
    ∃ e, o.Hears id statusName running e ∧ Tasks.statusEvent id o statusName running = .ok e :=
  ⟨_, ⟨hid, rfl⟩, by rw [Tasks.statusEvent_eq hid, Event.scopedTo, ho.scope]⟩

namespace Books

variable {limit : Nat} {w : Books}

end Books

namespace Tasks

variable {t : Tasks}

/-- A start that registers its task has an event for the new owner; nothing fails in between. -/
theorem beginStart_registered {id sessionId : String} {userId : Option String} {r : Registration}
    {t₁ : Tasks} (ht : t.register id sessionId userId = (.ok r, t₁)) (statusName : Option String) :
    r.owner = ⟨sessionId, nonEmpty? userId⟩ ∧ ∃ e, r.owner.Hears id statusName true e ∧
      t.beginStart id sessionId userId statusName = (.ok (r, e), t₁) := by
  rcases register_cases t id sessionId userId with ⟨hid, hs, _, heq⟩ | ⟨_, e, heq⟩
  · obtain ⟨hr, rfl⟩ := Prod.mk.inj (ht.symm.trans heq)
    obtain rfl := Except.ok.inj hr
    obtain ⟨e, hhears, hstatus⟩ := (whole_new hs userId).statusEvent hid statusName true
    exact ⟨rfl, e, hhears, by simp [beginStart, ht, hstatus, Except.map]⟩
  · rw [heq] at ht
    cases ht

theorem Reachable.beginReport_found (h : t.Reachable) {id : String} {r : Registration}
    (hf : t.find? id = some r) (statusName : Option String) (running : Bool) :
    ∃ e, r.owner.Hears id statusName running e ∧ t.taskInfo id statusName running = .ok e ∧
      t.beginReport id statusName running = .ok (r, e) := by
  obtain ⟨hid, hwhole⟩ := h.found hf
  obtain ⟨e, hhears, hstatus⟩ := hwhole.statusEvent hid statusName running
  exact ⟨e, hhears, by rw [taskInfo, hf]; exact hstatus, by simp [beginReport, hf, hstatus, Except.map]⟩

/-- Listeners in two sessions. -/
def twoSessions : List HubOp :=
  [.subscribe .sessionTask ⟨some "S1", none⟩, .subscribe .sessionTask ⟨some "S2", none⟩]

end Tasks

end EventGateway
