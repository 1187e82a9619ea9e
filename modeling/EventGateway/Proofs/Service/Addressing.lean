import EventGateway.Proofs.Service.Ledger
import EventGateway.Proofs.Service.Receipts

/-! Where a task is found. Its id comes in a body and goes on in paths, as a segment with percent
signs for whatever means something there, and is the same id in both. -/

namespace EventGateway

open Http Text

open Route

/-- The task that an event is about. -/
def Event.taskId? (e : Event) : Option String :=
  match e.payload with
  | .taskInfo i => some i.taskId
  | _ => none

/-- What is asked is about one task that is there already. -/
def AdminRequest.IsAbout (id : String) : AdminRequest → Prop
  | showTask i | abandonTask i | reportTask i _ => i = id
  | _ => False

namespace Service

variable {verify : Verifier} {s : Service} {r : Request} {raw id : String} {a : AdminRequest}

/-- What the path of a task asks for is about the task, whatever is asked and whoever asks. -/
theorem isAbout_of_granted (hseg : Segment raw id)
    (hr : r.At (taskPath raw) ∨ r.At (statusPath raw)) (hg : s.granted? verify r = some a) :
    a.IsAbout id := by
  obtain ⟨route, hroute, _, _, hof⟩ := granted?_eq_some.mp hg
  have hasks := AdminRequest.asks_of_ofRoute hof
  have hsame {i : String} (hi : percentText? raw = some i) : i = id :=
    Option.some.inj (hi.symm.trans hseg.decodes)
  rcases hr with hr | hr
  · rw [hseg.task_at hr] at hroute
    split at hroute
    · exact nomatch hroute
    · obtain rfl := Option.some.inj hroute
      cases hasks with
      | owner _ hi => exact hsame hi
      | abandon _ hi => exact hsame hi
  · rw [hseg.status_at hr] at hroute
    obtain rfl := Option.some.inj hroute
    cases hasks with
    | status hi _ => exact hsame hi

/-- Nothing has come of it for the task: it has the owner it had, is not shown and not told of. -/
structure Spared (s : Service) (id : String) (told : Option Event)
    (p : Except Refusal Answer × Service) : Prop where
  owner : p.2.tasks.owner? id = s.tasks.owner? id
  unshown : ∀ o, p.1 = .ok (.owner o) → o.taskId ≠ id
  untold : ∀ e, told = some e → e.taskId? ≠ some id

theorem untold_none : ∀ e : Event, none = some e → e.taskId? ≠ some id := fun _ he => nomatch he

theorem Spared.of_error {told : Option Event} {x : Refusal} {s' : Service}
    (howner : s'.tasks.owner? id = s.tasks.owner? id)
    (htold : ∀ e, told = some e → e.taskId? ≠ some id) : s.Spared id told (.error x, s') where
  owner := howner
  unshown := fun _ ho => nomatch ho
  untold := htold

theorem owner?_reported (s : Service) (i : String) (u : TaskStatus) :
    (s.tasksAfter (.reportTask i u)).owner? =
      if u.running then s.tasks.owner? else TaskMap.put s.tasks.owner? i none := by
  rw [tasksAfter]
  split
  · rfl
  · exact funext fun j => s.tasks.owner?_erase i j

theorem spared_report {other : String} (hne : other ≠ id) (u : TaskStatus) :
    s.Spared id (s.event? (.reportTask other u)) (s.perform (.reportTask other u)) := by
  have htold : ∀ e, s.event? (.reportTask other u) = some e → e.taskId? ≠ some id := by
    intro e he
    rcases s.tasks.beginReport_cases other u.statusName u.running with
      ⟨x, hbegin⟩ | ⟨hid, x, _, hbegin⟩
    · simp [event?, hbegin] at he
    · simp only [event?, hbegin, Option.some.injEq] at he
      rw [← he]
      exact fun h => hne (Option.some.inj h)
  have hperformed := s.performed_perform (.reportTask other u)
  generalize s.perform (.reportTask other u) = p at hperformed
  cases hperformed with
  | refused x _ => exact .of_error rfl htold
  | @failed _ _ _ t _ _ ht =>
    have hkept : t.owner? id = s.tasks.owner? id := by
      simp only [Tasks.owner?, Tasks.find?, ht]
    exact .of_error hkept htold
  | told _ _ =>
    refine ⟨?_, (fun o ho => by cases ho), htold⟩
    show (s.tasksAfter (.reportTask other u)).owner? id = s.tasks.owner? id
    rw [owner?_reported]
    split
    · rfl
    · exact if_neg hne.symm

theorem spared_perform {other : String} (ha : a.IsAbout other) (hne : other ≠ id) :
    s.Spared id (s.event? a) (s.perform a) := by
  cases a with
  | showTask i =>
    obtain rfl : i = other := ha
    refine ⟨rfl, fun o ho => ?_, untold_none⟩
    simp only [perform, showTask] at ho
    split at ho
    · obtain rfl := Answer.owner.inj (Except.ok.inj ho)
      exact hne
    · cases ho
  | abandonTask i =>
    obtain rfl : i = other := ha
    refine ⟨?_, fun o ho => ?_, untold_none⟩
    · simp only [perform, abandonTask, Tasks.abandon]
      split
      · exact (s.tasks.owner?_erase i id).trans (if_neg hne.symm)
      · rfl
    · simp only [perform, abandonTask] at ho
      split at ho
      · cases ho
      · cases ho
  | reportTask i u =>
    obtain rfl : i = other := ha
    exact spared_report hne u
  | startTask | sessionExpired | sessionState | sessionLogUpdated | configChanged =>
    exact ha.elim

theorem spared_dispatch {other : String} (hseg : Segment raw other) (hne : other ≠ id)
    (hr : r.At (taskPath raw) ∨ r.At (statusPath raw)) (verify : Verifier) (s : Service) :
    s.Spared id (s.outgoing verify r) (s.dispatch verify r) := by
  cases hg : s.granted? verify r with
  | none =>
    have hnone : s.outgoing verify r = none := by rw [outgoing, hg, Option.bind_none]
    rw [hnone]
    rcases dispatch_ungranted hg with ⟨_, h⟩ | ⟨x, h⟩
    · rw [h]
      exact ⟨rfl, (fun o ho => by cases ho), untold_none⟩
    · rw [h]
      exact .of_error rfl untold_none
  | some a =>
    have hsome : s.outgoing verify r = s.event? a := by rw [outgoing, hg, Option.bind_some]
    rw [hsome, dispatch_granted hg]
    exact spared_perform (isAbout_of_granted hseg hr hg) hne

/-- Requests that are let in do with the task what they say, and nothing else. -/
structure Followed (verify : Verifier) (s : Service) (raw id : String) (o : Owner) : Prop where
  shown : ∀ r : Request, r.Opens verify s.runtime.secretHash → r.method = .get →
    r.At (taskPath raw) → (s.handle verify r).2 = s ∧ (s.handle verify r).1.status = 200 ∧
      OwnerAnswer.ofJson (s.handle verify r).1.body = .ok ⟨id, o.sessionId, o.userId⟩
  released : ∀ r : Request, r.Opens verify s.runtime.secretHash → r.method = .delete →
    r.At (taskPath raw) →
    s.handle verify r = ({ status := 204 }, { s with tasks := s.tasks.erase id }) ∧
      (s.tasks.erase id).owner? = TaskMap.put s.tasks.owner? id none
  reported : ∀ (r : Request) (u : TaskStatus), r.Opens verify s.runtime.secretHash →
    r.method = .post → r.At (statusPath raw) → r.Carries TaskStatus.ofDraft u →
    ∃ hid : id ≠ "",
      let e := Event.scopedTo (.taskInfo ⟨id, u.statusName, u.running, hid⟩) (some o.sessionId)
        o.userId
      s.outgoing verify r = some e ∧ (s.handle verify r).2.hub = s.registry.spread e s.hub ∧
      (s.registry.contains .sessionTask = true → s.hub.closed = false →
        (s.handle verify r).1.status = 200 ∧
        (∃ n, s.hub.publish .sessionTask (Filter.ofEvent e) e =
          (.ok n, (s.handle verify r).2.hub)) ∧
        (s.handle verify r).2.tasks.owner? =
          if u.running then s.tasks.owner? else TaskMap.put s.tasks.owner? id none)

theorem publish_open {g : Registry} {h : Hub} (hserved : g.contains .sessionTask = true)
    (hopen : h.closed = false) {e : Event} (he : e.topic = .sessionTask) (x : PublishError)
    (h' : Hub) : g.publish Hub.transport e h ≠ (.error x, h') := by
  intro hp
  rcases publishFor_cases g he h .empty with ⟨hno, _⟩ | ⟨_, hclosed, _⟩ | ⟨_, _, n, h₁, _, hok⟩
  · exact absurd (hserved.symm.trans hno) (by decide)
  · exact absurd (hopen.symm.trans hclosed) (by decide)
  · rw [publishFor, hp] at hok
    cases hok

variable {o : Owner}

theorem event?_owned (hid : id ≠ "") (ho : s.tasks.owner? id = some o) (u : TaskStatus) :
    s.event? (.reportTask id u) = some (Event.scopedTo
      (.taskInfo ⟨id, u.statusName, u.running, hid⟩) (some o.sessionId) o.userId) := by
  obtain ⟨x, hf, rfl⟩ : ∃ x, s.tasks.find? id = some x ∧ x.owner = o :=
    Option.map_eq_some_iff.mp ho
  simp only [event?, Tasks.beginReport, hf, Tasks.statusEvent_eq hid, Except.map]

/-- A report that has something to tell is told, and carried out. -/
theorem perform_report {u : TaskStatus} {e : Event} (he : s.event? (.reportTask id u) = some e)
    (htopic : e.topic = .sessionTask) (hserved : s.registry.contains .sessionTask = true)
    (hopen : s.hub.closed = false) : ∃ n h,
    s.registry.publish Hub.transport e s.hub = (.ok n, h) ∧
      s.perform (.reportTask id u) = (.ok (.receipt 200 ⟨e.kind.id, e.topic, n.recipients⟩),
        { s with hub := h, tasks := s.tasksAfter (.reportTask id u) }) := by
  have hperformed := s.performed_perform (.reportTask id u)
  generalize s.perform (.reportTask id u) = p at hperformed
  cases hperformed with
  | refused _ hnone => cases hnone.symm.trans he
  | failed he' hp _ =>
    obtain rfl := Option.some.inj (he'.symm.trans he)
    exact absurd hp (publish_open hserved hopen htopic _ _)
  | told he' hp =>
    obtain rfl := Option.some.inj (he'.symm.trans he)
    exact ⟨_, _, hp, rfl⟩

theorem followed_of_owner (hid : id ≠ "") (hseg : Segment raw id)
    (ho : s.tasks.owner? id = some o) (verify : Verifier) : s.Followed verify raw id o where
  shown := by
    intro r hopens hmethod hr
    rw [handle_asked (.owner hmethod hr (hseg.nonempty hid) hseg) hopens]
    simp only [TaskRequest.toAdmin, perform, showTask, ho]
    exact ⟨trivial, rfl, OwnerAnswer.ofJson_written _⟩
  released := by
    intro r hopens hmethod hr
    rw [handle_asked (.abandon hmethod hr (hseg.nonempty hid) hseg) hopens]
    simp only [TaskRequest.toAdmin, perform, abandonTask, Tasks.abandon, ho]
    exact ⟨rfl, funext fun j => s.tasks.owner?_erase id j⟩
  reported := by
    intro r u hopens hmethod hr hbody
    have hasked : TaskRequest.Asked r (.report id u) := .report hmethod hr hseg hbody
    have hevent := event?_owned hid ho u
    have hout : s.outgoing verify r = s.event? (.reportTask id u) := by
      rw [outgoing, hasked.granted hopens, Option.bind_some]
      rfl
    refine ⟨hid, hout.trans hevent, ?_, fun hserved hopen => ?_⟩
    · rw [(s.handle_publishes verify r).1, hout, hevent]
      rfl
    · obtain ⟨n, h, hp, hperform⟩ := perform_report hevent rfl hserved hopen
      have hhandle := handle_asked hasked hopens
      rw [TaskRequest.toAdmin, hperform] at hhandle
      rw [hhandle]
      exact ⟨rfl, ⟨n, Registry.publish_ok hp⟩, s.owner?_reported id u⟩

theorem task_of_created (hpath : r.At tasksPath)
    (hcreated : (s.handle verify r).1.status = 201) :
    ∃ q : StartTask, r.Carries StartTask.ofDraft q ∧ q.taskId ≠ "" ∧
      (s.handle verify r).2.tasks.owner? =
        TaskMap.put s.tasks.owner? q.taskId (some ⟨q.sessionId, q.userId.filter (· ≠ "")⟩) := by
  have hsuccess : (s.handle verify r).1.isSuccess = true := by
    rw [Response.isSuccess, hcreated]
    rfl
  obtain ⟨a, hgranted, _, hasks, hdone⟩ := granted_of_success (tasks_at hpath) nofun hsuccess
  rw [handle_granted hgranted]
  cases hasks with
  | @start q hbody =>
    have hperformed := s.performed_perform (.startTask q)
    generalize s.perform (.startTask q) = p at hdone hperformed
    cases hperformed with
    | refused | failed => exact nomatch hdone
    | told he _ =>
      obtain ⟨hid, _, _⟩ := event?_start he
      exact ⟨q, AdminRequest.body_ok.mp hbody, hid,
        funext fun j => Tasks.owner?_made s.tasks q.taskId _ _ j⟩

/-- A post to the tasks that is answered with 201 starts the task that its body names. The id is not
empty, and there are segments for it, whichever octets are left as they are in them. As long as the
task has its owner, requests with such a segment show it, report of it and release it under the id
of the body, and no request with a segment for another id comes to anything for it. -/
theorem started_task_followed (hpath : r.At tasksPath)
    (hcreated : (s.handle verify r).1.status = 201) : ∃ q : StartTask,
    r.Carries StartTask.ofDraft q ∧ q.taskId ≠ "" ∧
    let o : Owner := ⟨q.sessionId, q.userId.filter (· ≠ "")⟩
    (s.handle verify r).2.tasks.owner? = TaskMap.put s.tasks.owner? q.taskId (some o) ∧
    (∀ plain, Spares plain → Segment (encoded plain q.taskId) q.taskId) ∧
    ∀ s' : Service, s'.tasks.owner? q.taskId = some o →
      (∀ raw, Segment raw q.taskId → s'.Followed verify raw q.taskId o) ∧
      ∀ raw other, Segment raw other → other ≠ q.taskId → ∀ r' : Request,
        r'.At (taskPath raw) ∨ r'.At (statusPath raw) →
        s'.Spared q.taskId (s'.outgoing verify r') (s'.dispatch verify r') := by
  obtain ⟨q, hbody, hid, howners⟩ := task_of_created hpath hcreated
  exact ⟨q, hbody, hid, howners, fun plain hplain => segment_encoded hplain q.taskId,
    fun s' ho => ⟨fun raw hseg => followed_of_owner hid hseg ho verify,
      fun raw other hseg hne r' hr => spared_dispatch hseg hne hr verify s'⟩⟩

theorem spares_isPlain : Spares Form.isPlain where
  ascii b hb := Form.written_lt (by rw [Form.isWritten, hb]; rfl)
  marks := List.all_iff_forall_prop.mp (by decide)

def crookedId : String := "../a%2F?#é"

def crookedStart : Request :=
  sent .post "/api/admin/tasks?x=/" "\x7b\"taskId\":\"../a%2F?#é\",\"sessionId\":\"S1\"\x7d"

/-- The last status of the same task, with a query that does not matter. -/
def crookedEnd : Request :=
  sent .post (statusPath (encoded Form.isPlain crookedId) ++ "?task_id=T1")
    "\x7b\"running\":false\x7d"

def unused : Service :=
  start ⟨.v4 127 0 0 1 8080, "s"⟩ .all .silent 4

theorem crookedStart_at : crookedStart.At tasksPath := ⟨"?x=/".toList, by decide +kernel, by simp⟩

theorem crookedStart_carries :
    crookedStart.Carries StartTask.ofDraft ⟨crookedId, "S1", none, none⟩ :=
  AdminRequest.body_ok.mp (by decide +kernel)

theorem crookedStart_created : (unused.handle opensItself crookedStart).1.status = 201 := by
  have hasked : TaskRequest.Asked crookedStart (.start ⟨crookedId, "S1", none, none⟩) :=
    .start rfl crookedStart_at crookedStart_carries
  have hopens : crookedStart.Opens opensItself "s" := opens_sent .post _ _
  rw [handle_asked hasked hopens]
  rfl

theorem started_task_followed_crooked :
    let p := unused.handle opensItself crookedStart
    let asks := sent .get "/api/admin/tasks/..%2Fa%252F%3F%23%C3%A9" ""
    p.1.status = 201 ∧
      crookedEnd.target = "/api/admin/tasks/..%2Fa%252F%3F%23%C3%A9/status?task_id=T1" ∧
      (p.2.handle opensItself asks).1.status = 200 ∧
      OwnerAnswer.ofJson (p.2.handle opensItself asks).1.body = .ok ⟨crookedId, "S1", none⟩ ∧
      ∃ e, p.2.outgoing opensItself crookedEnd = some e ∧ e.taskId? = some crookedId := by
  intro p asks
  obtain ⟨q, hq, _, howners, hsegment, hfollowed⟩ :=
    started_task_followed crookedStart_at crookedStart_created
  obtain rfl := Except.ok.inj (hq.read.symm.trans crookedStart_carries.read)
  have hhash : p.2.runtime.secretHash = "s" :=
    congrArg Runtime.secretHash (unused.runtime_handle opensItself crookedStart)
  refine ⟨crookedStart_created, by decide +kernel, ?_⟩
  -- the owner of the task and the secret are all that is wanted of what the post has left
  change p.2.tasks.owner? = _ at howners
  generalize p.2 = s at howners hhash ⊢
  have howner : s.tasks.owner? crookedId = some ⟨"S1", none⟩ :=
    (congrFun howners crookedId).trans (if_pos rfl)
  obtain ⟨hthis, _⟩ := hfollowed s howner
  have hfollow := hthis _ (hsegment _ spares_isPlain)
  have hat : crookedEnd.At (statusPath (encoded Form.isPlain crookedId)) :=
    ⟨"?task_id=T1".toList, String.toList_append, by simp⟩
  have hstatus : crookedEnd.Carries TaskStatus.ofDraft ⟨none, false⟩ :=
    AdminRequest.body_ok.mp (by decide +kernel)
  obtain ⟨_, hshown, howned⟩ := hfollow.shown asks (hhash ▸ opens_sent .get _ _) rfl
    (Request.at_of_target (by decide +kernel))
  obtain ⟨_, hout, _⟩ :=
    hfollow.reported crookedEnd _ (hhash ▸ opens_sent .post _ _) rfl hat hstatus
  exact ⟨hshown, howned, _, hout, rfl⟩

end Service

end EventGateway
