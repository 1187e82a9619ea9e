import EventGateway.Proofs.Event.Survival
import EventGateway.Proofs.Service.Asked
import EventGateway.Proofs.Service.Credentials
import EventGateway.Proofs.Service.Paths
import EventGateway.Proofs.Service.Refused
import EventGateway.Proofs.Tasks.Table

/-! The service keeps its tasks as a ledger would: a map from ids to owners that changes only when
a request is answered. Starts and reports register and publish in parts, the ledger does neither. -/

namespace EventGateway

open Http Route

/-- What is asked about a task, with the ids decoded. -/
inductive TaskRequest
  | start (r : StartTask)
  | owner (id : String)
  | report (id : String) (r : TaskStatus)
  | abandon (id : String)

/-- What a well-formed request asks about a task. -/
inductive TaskRequest.Asked (q : Request) : TaskRequest → Prop
  | start {r : StartTask} (hmethod : q.method = .post) (hpath : q.At tasksPath)
    (hbody : q.Carries StartTask.ofDraft r) : Asked q (.start r)
  | owner {raw id : String} (hmethod : q.method = .get) (hpath : q.At (taskPath raw))
    (hraw : raw ≠ "") (hid : Segment raw id) : Asked q (.owner id)
  | report {raw id : String} {r : TaskStatus} (hmethod : q.method = .post)
    (hpath : q.At (statusPath raw)) (hid : Segment raw id)
    (hbody : q.Carries TaskStatus.ofDraft r) : Asked q (.report id r)
  | abandon {raw id : String} (hmethod : q.method = .delete) (hpath : q.At (taskPath raw))
    (hraw : raw ≠ "") (hid : Segment raw id) : Asked q (.abandon id)

def TaskRequest.toAdmin : TaskRequest → AdminRequest
  | start r => .startTask r
  | owner id => .showTask id
  | report id r => .reportTask id r
  | abandon id => .abandonTask id

/-- The status of an answer, and the owner that it shows. -/
structure TaskAnswer where
  status : Nat
  owner : Option OwnerAnswer := none
  deriving DecidableEq, Repr

def TaskAnswer.Is (a : TaskAnswer) (r : Response) : Prop :=
  r.status = a.status ∧ ∀ o, a.owner = some o → OwnerAnswer.ofJson r.body = .ok o

theorem TaskAnswer.is_of_status {r : Response} {status : Nat} (h : r.status = status) :
    TaskAnswer.Is { status := status } r :=
  ⟨h, nofun⟩

abbrev TaskMap := String → Option Owner

namespace TaskMap

def empty : TaskMap := fun _ => none

def put (m : TaskMap) (id : String) (o : Option Owner) : TaskMap := fun j => if j = id then o else m j

/-- A change that has to be published: the topic may not be served, the hub may be closed. -/
def announced (served closed : Bool) (status : Nat) (m m' : TaskMap) : TaskAnswer × TaskMap :=
  if !served then ({ status := 422 }, m)
  else if closed then ({ status := 503 }, m)
  else ({ status := status }, m')

def answer (served closed : Bool) (m : TaskMap) : TaskRequest → TaskAnswer × TaskMap
  | .start r =>
    if r.taskId = "" ∨ r.sessionId = "" then ({ status := 400 }, m)
    else if (m r.taskId).isSome then ({ status := 409 }, m)
    else
      announced served closed 201 m
        (m.put r.taskId (some ⟨r.sessionId, r.userId.filter (· ≠ "")⟩))
  | .owner id =>
    match m id with
    | none => ({ status := 404 }, m)
    | some o => (⟨200, some ⟨id, o.sessionId, o.userId⟩⟩, m)
  | .report id r =>
    if (m id).isNone then ({ status := 404 }, m)
    else announced served closed 200 m (if r.running then m else m.put id none)
  | .abandon id =>
    if (m id).isNone then ({ status := 404 }, m) else ({ status := 204 }, m.put id none)

end TaskMap

/-- A request to the service, or what is done with its hub and its configuration in between. -/
inductive ServiceAct
  | request (r : Request)
  | hub (op : HubOp)
  | reload (runtime : Runtime)

namespace Service

def act (verify : Verifier) (s : Service) : ServiceAct → Option Response × Service
  | .request r => (some (s.handle verify r).1, (s.handle verify r).2)
  | .hub op => (none, { s with hub := (s.hub.perform op).2 })
  | .reload runtime => (none, (s.reload runtime).2)

def after (verify : Verifier) (s : Service) : List ServiceAct → Service
  | [] => s
  | a :: as => after verify (s.act verify a).2 as

def responses (verify : Verifier) (s : Service) : List ServiceAct → List (Option Response)
  | [] => []
  | a :: as => (s.act verify a).1 :: responses verify (s.act verify a).2 as

end Service

/-- The owners of all tasks, whether the hub is closed, and what the secret is stored as. -/
structure Ledger where
  owners : TaskMap
  closed : Bool
  secretHash : String

namespace Ledger

variable (verify : Verifier) (r : Registry)

/-- What the ledger does at an act. Of a request that is let in and asks about a task it says what
the answer is; no other request changes it. -/
inductive Step (L : Ledger) : ServiceAct → Option TaskAnswer → Ledger → Prop
  | asked {q : Request} {a : TaskRequest} {answer : TaskAnswer} {owners : TaskMap}
    (hopens : q.Opens verify L.secretHash) (hasked : a.Asked q)
    (hanswer : L.owners.answer (r.contains .sessionTask) L.closed a = (answer, owners)) :
    Step L (.request q) (some answer) { L with owners := owners }
  | other {q : Request} (hnone : ¬(q.Opens verify L.secretHash ∧ ∃ a, TaskRequest.Asked q a)) :
    Step L (.request q) none L
  | hub (op : HubOp) : Step L (.hub op) none { L with closed := L.closed || op.closes }
  | reload (runtime : Runtime) :
    Step L (.reload runtime) none { L with secretHash := runtime.secretHash }

inductive Goes : Ledger → List ServiceAct → List (Option TaskAnswer) → Ledger → Prop
  | nil (L : Ledger) : Goes L [] [] L
  | cons {L L₁ L₂ : Ledger} {a : ServiceAct} {acts : List ServiceAct} {answer : Option TaskAnswer}
    {answers : List (Option TaskAnswer)} (hstep : L.Step verify r a answer L₁)
    (hrest : Goes L₁ acts answers L₂) : Goes L (a :: acts) (answer :: answers) L₂

end Ledger

/-- The service has the tasks, the hub and the secret of the ledger. -/
structure Service.Keeps (s : Service) (r : Registry) (L : Ledger) : Prop where
  registry : s.registry = r
  owners : ∀ id, s.tasks.owner? id = L.owners id
  named : L.owners "" = none
  closed : s.hub.closed = L.closed
  secretHash : s.runtime.secretHash = L.secretHash

namespace Tasks

theorem owner?_erase (t : Tasks) (id j : String) :
    (t.erase id).owner? j = TaskMap.put t.owner? id none j := by
  rw [owner?, find?_erase, TaskMap.put]
  split <;> rfl

theorem owner?_taken_back {t : Tasks} {id : String} (hf : t.find? id = none) (r : Registration)
    (n : UInt64) (j : String) :
    ((⟨(id, r) :: t.entries, n⟩ : Tasks).release id r).2.owner? j = t.owner? j := by
  simp only [owner?, find?, entries_taken_back hf]

theorem owner?_made (t : Tasks) (id : String) (r : Registration) (n : UInt64) (j : String) :
    (⟨(id, r) :: t.entries, n⟩ : Tasks).owner? j = TaskMap.put t.owner? id (some r.owner) j := by
  by_cases hj : j = id
  · simp [hj, owner?, find?, TaskMap.put]
  · simp [hj, owner?, find?, TaskMap.put, lookup_cons_ne hj]

theorem owner?_released {t : Tasks} {id : String} {r : Registration} (hf : t.find? id = some r)
    (j : String) : (t.release id r).2.owner? j = TaskMap.put t.owner? id none j := by
  rw [release_table, hf, if_pos (by rfl), owner?_erase]

end Tasks

namespace Service

/-- What publishing a status comes to: the topic is not served, the hub is closed, or it is done. -/
theorem publishFor_cases (r : Registry) {e : Event} (he : e.topic = .sessionTask) (h : Hub)
    (t : Tasks) :
    (r.contains .sessionTask = false ∧
      publishFor r e (h, t) = (.error (.unknownTopic .sessionTask), h, t)) ∨
    (r.contains .sessionTask = true ∧ h.closed = true ∧
      publishFor r e (h, t) = (.error (.delivery .closed), h, t)) ∨
    (r.contains .sessionTask = true ∧ h.closed = false ∧
      ∃ a h', h'.closed = false ∧ publishFor r e (h, t) = (.ok a, h', t)) := by
  cases hserved : r.contains .sessionTask with
  | false => exact .inl ⟨rfl, by simp [publishFor, Registry.publish, he, hserved]⟩
  | true =>
    cases hclosed : h.closed with
    | true =>
      refine .inr (.inl ⟨rfl, rfl, ?_⟩)
      simp [publishFor, Registry.publish, he, hserved, Hub.transport, Hub.publish, hclosed,
        Except.mapError]
    | false =>
      obtain ⟨a, ha⟩ : ∃ a, (h.publish .sessionTask (Filter.ofEvent e) e).1 = .ok a :=
        ⟨_, by rw [Hub.publish, if_neg (by simp [hclosed])]⟩
      refine .inr (.inr ⟨rfl, rfl, a, (h.publish .sessionTask (Filter.ofEvent e) e).2, ?_, ?_⟩)
      · simpa using hclosed
      · simp [publishFor, Registry.publish, he, hserved, Hub.transport, ha, Except.mapError]

/-- What comes of a task request is what the ledger says. -/
structure Answered (r : Registry) (L : Ledger) (p : Except Refusal Answer × Service)
    (q : TaskAnswer × TaskMap) : Prop where
  answer : ∀ position, q.1.Is (respond position p.1)
  keeps : p.2.Keeps r { L with owners := q.2 }

variable {s : Service} {r : Registry} {L : Ledger}

theorem Keeps.refused (h : s.Keeps r L) {e : Refusal} {status : Nat}
    (hstatus : ∀ position, (e.response position).status = status) :
    Answered r L (.error e, s) ({ status := status }, L.owners) :=
  ⟨fun position => TaskAnswer.is_of_status (hstatus position), h⟩

/-- The hub and the tasks may change, if they end as the ledger says. -/
theorem Keeps.goes (h : s.Keeps r L) {hub : Hub} {tasks : Tasks} {m : TaskMap}
    (hclosed : hub.closed = s.hub.closed) (howners : ∀ id, tasks.owner? id = m id)
    (hnamed : m "" = none) :
    ({ s with hub := hub, tasks := tasks } : Service).Keeps r { L with owners := m } :=
  ⟨h.registry, howners, hnamed, hclosed.trans h.closed, h.secretHash⟩

/-- What an operation that publishes leaves of the tasks, `finish`, depends on the answer alone. -/
theorem Keeps.announced (h : s.Keeps r L) {e : Event} (he : e.topic = .sessionTask) (status : Nat)
    (t : Tasks) (finish : Except PublishError Accepted → Tasks) {m : TaskMap}
    (hkept : ∀ x id, (finish (.error x)).owner? id = L.owners id)
    (hdone : ∀ a id, (finish (.ok a)).owner? id = m id) (hnamed : m "" = none) :
    let p := publishFor s.registry e (s.hub, t)
    Answered r L (s.afterTask status (p.1.mapError .publish, p.2.1, finish p.1))
      (TaskMap.announced (r.contains .sessionTask) L.closed status L.owners m) := by
  simp only [h.registry]
  rcases publishFor_cases r he s.hub t with ⟨hserved, hp⟩ | ⟨hserved, hclosed, hp⟩ |
    ⟨hserved, hclosed, a, h', hopen, hp⟩
  · simp only [hp, TaskMap.announced, hserved, Bool.not_false, if_true]
    exact ⟨fun _ => TaskAnswer.is_of_status rfl, h.goes rfl (hkept _) h.named⟩
  · simp only [hp, TaskMap.announced, hserved, Bool.not_true, ← h.closed, hclosed, if_true]
    exact ⟨fun _ => TaskAnswer.is_of_status rfl, h.goes rfl (hkept _) h.named⟩
  · simp only [hp, TaskMap.announced, hserved, Bool.not_true, ← h.closed, hclosed]
    exact ⟨fun _ => TaskAnswer.is_of_status rfl, h.goes (hopen.trans hclosed.symm) (hdone _) hnamed⟩

theorem Keeps.start_refused (h : s.Keeps r L) (q : StartTask) {e : TaskError}
    (hresult : s.tasks.register q.taskId q.sessionId q.userId = (.error e, s.tasks)) {status : Nat}
    (hstatus : ∀ position, ((Refusal.ofTask e).response position).status = status) :
    Answered r L (s.perform (.startTask q)) ({ status := status }, L.owners) := by
  have hperform : s.perform (.startTask q) = (.error (Refusal.ofTask e), s) := by
    simp only [perform, Tasks.start, Tasks.beginStart, hresult, afterTask]
    rfl
  rw [hperform]
  exact h.refused hstatus

theorem Keeps.start (h : s.Keeps r L) (q : StartTask) :
    Answered r L (s.perform (.startTask q))
      (L.owners.answer (r.contains .sessionTask) L.closed (.start q)) := by
  simp only [TaskMap.answer]
  by_cases hid : q.taskId = ""
  · rw [if_pos (.inl hid)]
    exact h.start_refused q (e := .emptyTaskId) (by simp [Tasks.register, hid]) fun _ => rfl
  by_cases hs : q.sessionId = ""
  · rw [if_pos (.inr hs)]
    exact h.start_refused q (e := .emptySessionId) (by simp [Tasks.register, hid, hs]) fun _ => rfl
  rw [if_neg (by simp [hid, hs]), ← h.owners]
  cases hf : s.tasks.find? q.taskId with
  | some x =>
    have hmapped : (s.tasks.owner? q.taskId).isSome = true := by simp [Tasks.owner?, hf]
    rw [if_pos hmapped]
    exact h.start_refused q (e := .stale q.taskId x.owner.sessionId)
      (by simp [Tasks.register, hid, hs, hf]) fun _ => rfl
  | none =>
    have hfree : (s.tasks.owner? q.taskId).isSome = false := by simp [Tasks.owner?, hf]
    rw [if_neg (by simp [hfree])]
    -- The registration is made before it is known whether it can be announced.
    let x : Registration := ⟨⟨q.sessionId, nonEmpty? q.userId⟩, s.tasks.next⟩
    let t : Tasks := ⟨(q.taskId, x) :: s.tasks.entries, s.tasks.next + 1⟩
    obtain ⟨e, he, htopic⟩ := Tasks.statusEvent_ok hid x.owner q.statusName true
    have hbegin : s.tasks.beginStart q.taskId q.sessionId q.userId q.statusName =
        (.ok (x, e), t) := by
      simp [Tasks.beginStart, Tasks.register, hid, hs, hf, x, t, he, Except.map]
    have hstart : s.perform (.startTask q) =
        s.afterTask 201 (((publishFor s.registry e (s.hub, t)).1.mapError .publish,
          (publishFor s.registry e (s.hub, t)).2.1,
          (t.endStart q.taskId x (publishFor s.registry e (s.hub, t)).1).2)) := by
      simp only [perform, Tasks.start, hbegin, publishFor, Tasks.endStart]
      cases (s.registry.publish Hub.transport e s.hub).1 <;> rfl
    rw [hstart]
    refine h.announced htopic 201 t (fun answer => (t.endStart q.taskId x answer).2)
      (fun _ id => ?_) (fun _ id => ?_) ?_
    · rw [← h.owners]
      exact Tasks.owner?_taken_back hf x _ id
    · rw [TaskMap.put, ← h.owners]
      exact Tasks.owner?_made s.tasks q.taskId x _ id
    · simp [TaskMap.put, Ne.symm hid, h.named]

theorem Keeps.report (h : s.Keeps r L) (id : String) (q : TaskStatus) :
    Answered r L (s.perform (.reportTask id q))
      (L.owners.answer (r.contains .sessionTask) L.closed (.report id q)) := by
  simp only [TaskMap.answer, ← h.owners]
  cases hf : s.tasks.find? id with
  | none =>
    have hfree : (s.tasks.owner? id).isNone = true := by simp [Tasks.owner?, hf]
    have hperform : s.perform (.reportTask id q) = (.error (.task (.unknown id)), s) := by
      simp only [perform, Tasks.report, Tasks.beginReport, hf, afterTask]
      rfl
    rw [if_pos hfree, hperform]
    exact h.refused fun _ => rfl
  | some x =>
    have hmapped : (s.tasks.owner? id).isNone = false := by simp [Tasks.owner?, hf]
    rw [if_neg (by simp [hmapped])]
    have hid : id ≠ "" := by
      rintro rfl
      have hnone := (h.owners "").trans h.named
      simp [Tasks.owner?, hf] at hnone
    obtain ⟨e, he, htopic⟩ := Tasks.statusEvent_ok hid x.owner q.statusName q.running
    have hbegin : s.tasks.beginReport id q.statusName q.running = .ok (x, e) := by
      simp [Tasks.beginReport, hf, he, Except.map]
    have hreport : s.perform (.reportTask id q) =
        s.afterTask 200 ((publishFor s.registry e (s.hub, s.tasks)).1.mapError .publish,
          (publishFor s.registry e (s.hub, s.tasks)).2.1,
          (s.tasks.endReport id q.running x (publishFor s.registry e (s.hub, s.tasks)).1).2) := by
      simp only [perform, Tasks.report, hbegin, publishFor, Tasks.endReport]
      cases (s.registry.publish Hub.transport e s.hub).1 <;> rfl
    rw [hreport]
    refine h.announced htopic 200 s.tasks
      (fun answer => (s.tasks.endReport id q.running x answer).2) (fun _ => h.owners) (fun _ j => ?_) ?_
    · cases hrunning : q.running with
      | true => simpa [Tasks.endReport] using h.owners j
      | false =>
        have hreleased := Tasks.owner?_released hf j
        simpa [Tasks.endReport, TaskMap.put, h.owners] using hreleased
    · cases hrunning : q.running with
      | true => simpa using h.named
      | false => simp [TaskMap.put, h.named]

theorem Keeps.owner (h : s.Keeps r L) (id : String) :
    Answered r L (s.perform (.showTask id))
      (L.owners.answer (r.contains .sessionTask) L.closed (.owner id)) := by
  simp only [perform, showTask, TaskMap.answer, h.owners]
  cases L.owners id with
  | none => exact h.refused fun _ => rfl
  | some o =>
    refine ⟨fun _ => ⟨rfl, fun x hx => ?_⟩, h⟩
    obtain rfl := Option.some.inj hx
    exact OwnerAnswer.ofJson_written _

theorem Keeps.abandon (h : s.Keeps r L) (id : String) :
    Answered r L (s.perform (.abandonTask id))
      (L.owners.answer (r.contains .sessionTask) L.closed (.abandon id)) := by
  cases ho : L.owners id with
  | none =>
    simp only [perform, abandonTask, Tasks.abandon, TaskMap.answer, h.owners, ho]
    exact h.refused fun _ => rfl
  | some o =>
    have hanswer : L.owners.answer (r.contains .sessionTask) L.closed (.abandon id) =
        ({ status := 204 }, L.owners.put id none) := by
      simp [TaskMap.answer, ho]
    rw [hanswer]
    simp only [perform, abandonTask, Tasks.abandon, h.owners, ho]
    refine ⟨fun _ => TaskAnswer.is_of_status rfl, h.goes rfl (fun j => ?_) ?_⟩
    · rw [Tasks.owner?_erase]
      simp only [TaskMap.put, h.owners]
    · simp [TaskMap.put, h.named]

/-- Whatever is asked about a task, the answer is that of the ledger. -/
theorem Keeps.perform (h : s.Keeps r L) (a : TaskRequest) :
    Answered r L (s.perform a.toAdmin)
      (L.owners.answer (r.contains .sessionTask) L.closed a) := by
  cases a with
  | start q => exact h.start q
  | owner id => exact h.owner id
  | report id q => exact h.report id q
  | abandon id => exact h.abandon id

end Service

namespace TaskRequest

variable {verify : Verifier} {s : Service} {q : Request}

theorem Asked.granted {a : TaskRequest} (ha : a.Asked q)
    (hopens : q.Opens verify s.runtime.secretHash) : s.granted? verify q = some a.toAdmin := by
  have hauth := AdminRequest.authorize_ok.mpr hopens
  refine Service.granted?_eq_some.mpr ?_
  cases ha with
  | start hmethod hpath hbody =>
    refine ⟨_, tasks_at hpath, by simp [hmethod, Route.methods], hauth, ?_⟩
    rw [AdminRequest.ofRoute, AdminRequest.body_ok.mpr hbody]
    rfl
  | owner hmethod hpath hraw hid =>
    refine ⟨_, hid.task_of_at hraw hpath, by simp [hmethod, Route.methods], hauth, ?_⟩
    rw [AdminRequest.ofRoute, AdminRequest.parameter_of_text hid.decodes]
    exact congrArg Except.ok (if_neg (by simp [hmethod]))
  | report hmethod hpath hid hbody =>
    refine ⟨_, hid.status_at hpath, by simp [hmethod, Route.methods], hauth, ?_⟩
    rw [AdminRequest.ofRoute, AdminRequest.parameter_of_text hid.decodes,
      AdminRequest.body_ok.mpr hbody]
    rfl
  | abandon hmethod hpath hraw hid =>
    refine ⟨_, hid.task_of_at hraw hpath, by simp [hmethod, Route.methods], hauth, ?_⟩
    rw [AdminRequest.ofRoute, AdminRequest.parameter_of_text hid.decodes]
    exact congrArg Except.ok (if_pos hmethod)

theorem Asked.not_head {a : TaskRequest} (ha : a.Asked q) : q.method ≠ .head := by
  cases ha <;> simp [*]

/-- What is granted and changes the tasks has asked about one. -/
theorem tasks_of_unasked (hnone : ¬(q.Opens verify s.runtime.secretHash ∧ ∃ a, Asked q a)) :
    (s.handle verify q).2.tasks = s.tasks := by
  cases hg : s.granted? verify q with
  | none => rw [Service.handle_ungranted hg]
  | some b =>
    rw [Service.handle_granted hg]
    obtain ⟨route, hroute, hmethod, hauth, hof⟩ := Service.granted?_eq_some.mp hg
    have hunasked (a : TaskRequest) : ¬Asked q a :=
      fun ha => hnone ⟨AdminRequest.authorize_ok.mp hauth, a, ha⟩
    have hpath : q.At route.path := at_of_ofPath? hroute
    have hraw : route ≠ .task "" := (ofPath?_eq_some.mp hroute).2
    cases AdminRequest.asks_of_ofRoute hof with
    | start hbody =>
      have hpost : q.method = .post := by simpa [Route.methods] using hmethod
      exact absurd (.start hpost hpath (AdminRequest.body_ok.mp hbody)) (hunasked _)
    | abandon hdelete hid =>
      have hseg := segment_of_piece hroute (by simp [pieces]) hid
      exact absurd (.abandon hdelete (path_task _ ▸ hpath) (by simpa using hraw) hseg) (hunasked _)
    | status hid hbody =>
      have hpost : q.method = .post := by simpa [Route.methods] using hmethod
      have hseg := segment_of_piece hroute (by simp [pieces]) hid
      exact absurd (.report hpost (path_status _ ▸ hpath) hseg (AdminRequest.body_ok.mp hbody))
        (hunasked _)
    | owner | expired | state | logUpdated | configChanged => rfl

end TaskRequest

/-- What the ledger says of an act, where it says something. -/
def TaskAnswer.Of : Option TaskAnswer → Option Response → Prop
  | none, _ => True
  | some a, some r => a.Is r
  | some _, none => False

namespace Service

variable {verify : Verifier} {s : Service} {r : Registry} {L L' : Ledger}

theorem handle_asked {q : Request} {a : TaskRequest} (ha : a.Asked q)
    (hopens : q.Opens verify s.runtime.secretHash) : s.handle verify q =
      (respond (s.positions.body q) (s.perform a.toAdmin).1, (s.perform a.toAdmin).2) := by
  simp only [handle, dispatch_granted (ha.granted hopens), if_neg ha.not_head]

theorem Keeps.step (h : s.Keeps r L) {a : ServiceAct} {answer : Option TaskAnswer}
    (hstep : L.Step verify r a answer L') :
    TaskAnswer.Of answer (s.act verify a).1 ∧ (s.act verify a).2.Keeps r L' := by
  cases hstep with
  | @asked q a answer owners hopens hasked hanswer =>
    obtain ⟨his, hkeeps⟩ := h.perform a
    rw [hanswer] at his hkeeps
    rw [act, handle_asked hasked (h.secretHash ▸ hopens)]
    exact ⟨his _, hkeeps⟩
  | @other q hnone =>
    obtain ⟨hhub, hregistry⟩ := s.handle_publishes verify q
    have hclosed : (s.handle verify q).2.hub.closed = s.hub.closed := by
      rw [hhub, closed_hubAfter]
    have htasks : (s.handle verify q).2.tasks = s.tasks :=
      TaskRequest.tasks_of_unasked (h.secretHash ▸ hnone)
    simp only [act]
    refine ⟨trivial, hregistry.trans h.registry, fun id => ?_, h.named, hclosed.trans h.closed, ?_⟩
    · rw [htasks]
      exact h.owners id
    · rw [runtime_handle]
      exact h.secretHash
  | hub op =>
    refine ⟨trivial, h.registry, h.owners, h.named, ?_, h.secretHash⟩
    simp only [act, Hub.closed_perform, h.closed]
  | reload runtime =>
    obtain ⟨hhub, hregistry⟩ := s.reload_publishes runtime
    refine ⟨trivial, hregistry.trans h.registry, h.owners, h.named, ?_, rfl⟩
    simp only [act, hhub, closed_hubAfter, h.closed]

theorem Keeps.run (h : s.Keeps r L) {acts : List ServiceAct} {answers : List (Option TaskAnswer)}
    (hgoes : L.Goes verify r acts answers L') :
    List.Forall₂ TaskAnswer.Of answers (s.responses verify acts) ∧
      (s.after verify acts).Keeps r L' := by
  induction hgoes generalizing s with
  | nil => exact ⟨.nil, h⟩
  | cons hstep _ ih =>
    obtain ⟨hanswer, hkeeps⟩ := h.step hstep
    obtain ⟨hanswers, hend⟩ := ih hkeeps
    exact ⟨.cons hanswer hanswers, hend⟩

/-- A request with the secret `s`. -/
def sent (method : Method) (target body : String) : Request :=
  { posted target body with method := method }

def opensItself : Verifier := fun hash secret => decide (hash = secret)

theorem opens_sent (method : Method) (target body : String) :
    (sent method target body).Opens opensItself "s" :=
  AdminRequest.authorize_ok.mp (AdminRequest.authorize_of_header (header?_posted target body)
    visibleText?_posted (decide_eq_true rfl))

end Service

end EventGateway
