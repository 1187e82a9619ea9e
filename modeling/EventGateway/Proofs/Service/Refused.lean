import EventGateway.Proofs.Service.Announce

/-! A request that fails changes nothing: a start registers before it publishes, and takes the
registration back when the event is refused. -/

namespace EventGateway

theorem Refusal.response_fails (e : Refusal) (position : Json.Error → String) :
    (e.response position).isSuccess = false := by
  cases e with
  | body e =>
    simp only [response, bodyResponse]
    split <;> rfl
  | upgrade f => cases f <;> rfl
  | task e => cases e <;> rfl
  | publish e => rcases e with t | ⟨_ | reason⟩ <;> rfl
  | _ => rfl

theorem AdminRequest.authorize_of_header {verify : Verifier} {hash secret : String}
    {r : Http.Request} {value : List UInt8} (hheader : r.header? adminHeader = some value)
    (hvisible : Http.visibleText? value = some secret) (hopens : verify hash secret = true) :
    authorize verify hash r = .ok () := by
  simp [authorize, hheader, hvisible, hopens]

namespace Service

/-- The tasks with their owners, the hub and the configuration are what they were. The generation
that the next registration gets need not be. -/
structure Unchanged (s s' : Service) : Prop where
  tasks : s'.tasks.entries = s.tasks.entries
  hub : s'.hub = s.hub
  runtime : s'.runtime = s.runtime
  registry : s'.registry = s.registry

variable {verify : Verifier} {s : Service} {a : AdminRequest} {p : Except Refusal Answer × Service}

theorem Unchanged.refl (s : Service) : s.Unchanged s := ⟨rfl, rfl, rfl, rfl⟩

theorem Performed.succeeds (h : s.Performed a p) (position : Json.Error → String) :
    (respond position p.1).isSuccess = p.1.isOk := by
  cases h with
  | refused x _ => exact x.response_fails position
  | failed => exact Refusal.response_fails _ position
  | shown | released => rfl
  | told => cases a <;> rfl

theorem Performed.unchanged (h : s.Performed a p) (hfail : p.1.isOk = false) :
    s.Unchanged p.2 := by
  cases h with
  | refused _ _ => exact .refl s
  | failed _ _ ht => exact ⟨ht, rfl, rfl, rfl⟩
  | shown | released | told => cases hfail

theorem success_handle (verify : Verifier) (s : Service) (r : Http.Request) :
    (s.handle verify r).1.isSuccess = (s.dispatch verify r).1.isOk := by
  have hbody (x : Http.Response) :
      (if r.method = .head then x.withoutBody else x).isSuccess = x.isSuccess := by
    split <;> rfl
  simp only [handle, hbody]
  cases hg : s.granted? verify r with
  | some a => rw [dispatch_granted hg, (s.performed_perform a).succeeds]
  | none =>
    rcases dispatch_ungranted hg with ⟨_, h⟩ | ⟨x, h⟩
    · rw [h]
      rfl
    · rw [h]
      exact x.response_fails _

/-- Whatever the state, a request to any route that is not answered with a success leaves the tasks
and their owners, the registrations and the queues of the hub, and the configuration as they are. -/
theorem handle_failed (verify : Verifier) (s : Service) (r : Http.Request)
    (hfail : (s.handle verify r).1.isSuccess = false) : s.Unchanged (s.handle verify r).2 := by
  cases hg : s.granted? verify r with
  | none =>
    rw [handle_ungranted hg]
    exact .refl s
  | some a =>
    rw [success_handle, dispatch_granted hg] at hfail
    rw [handle_granted hg]
    exact (s.performed_perform a).unchanged hfail

/-- A request with a secret and a body of JSON. -/
def posted (target body : String) : Http.Request where
  method := .post
  target := target
  headers := [⟨adminHeader, Text.toUtf8 "s"⟩, ⟨"content-type", Text.toUtf8 "application/json"⟩]
  body := Text.toUtf8 body

theorem header?_posted (target body : String) :
    (posted target body).header? adminHeader = some (Text.toUtf8 "s") := by
  rw [Http.Request.header?, posted, List.find?_cons_of_pos (by exact decide_eq_true rfl)]
  rfl

theorem visibleText?_posted : Http.visibleText? (Text.toUtf8 "s") = some "s" := by decide +kernel

theorem authorize_posted (hash target body : String) :
    AdminRequest.authorize (fun _ _ => true) hash (posted target body) = .ok () :=
  AdminRequest.authorize_of_header (header?_posted target body) visibleText?_posted rfl

/-- The hub has been closed with a task still running. -/
def closing : Service :=
  let s := start ⟨.v4 127 0 0 1 8080, ""⟩ .all .silent 4
  { s with hub := s.hub.close, tasks := (s.tasks.register "T1" "S1" none).2 }

def lateStart : Http.Request :=
  posted "/api/admin/tasks" "\x7b\"taskId\":\"T2\",\"sessionId\":\"S2\"\x7d"

theorem handle_failed_closing :
    (closing.dispatch (fun _ _ => true) lateStart).1 = .error (.publish (.delivery .closed)) ∧
    closing.tasks.live = 1 ∧
    closing.Unchanged (closing.handle (fun _ _ => true) lateStart).2 := by
  have hbody : AdminRequest.body StartTask.ofDraft lateStart = .ok ⟨"T2", "S2", none, none⟩ := by
    decide +kernel
  have hgranted : closing.granted? (fun _ _ => true) lateStart =
      some (.startTask ⟨"T2", "S2", none, none⟩) := by
    refine granted?_eq_some.mpr ⟨.tasks, by decide +kernel, by decide, authorize_posted _ _ _, ?_⟩
    rw [AdminRequest.ofRoute, hbody]
    rfl
  have herror : (closing.dispatch (fun _ _ => true) lateStart).1 =
      .error (.publish (.delivery .closed)) := by
    rw [dispatch_granted hgranted]
    rfl
  have hfail : (closing.handle (fun _ _ => true) lateStart).1.isSuccess = false := by
    rw [success_handle, herror]
    rfl
  exact ⟨herror, rfl, handle_failed _ closing lateStart hfail⟩

end Service

end EventGateway
