import EventGateway.Proofs.Hub.Run
import EventGateway.Proofs.Tasks.Table
import EventGateway.Service.Handle

/-! What can come of a request, said once for all that is proved of them. It publishes at most one
event, and only once it is granted. -/

namespace EventGateway

/-- The hub once the event has been handed to the publisher. -/
def Registry.spread (r : Registry) (e : Event) (h : Hub) : Hub := (r.publish Hub.transport e h).2

theorem spread_served {r : Registry} {e : Event} (hr : r.contains e.topic = true) (h : Hub) :
    r.spread e h = (h.publish e.topic (Filter.ofEvent e) e).2 := by
  simp [Registry.spread, Registry.publish, hr, Hub.transport]

theorem spread_refused {r : Registry} {e : Event} (hr : r.contains e.topic = false) (h : Hub) :
    r.spread e h = h := by
  simp [Registry.spread, Registry.publish, hr]

theorem valid_spread {h : Hub} (hv : h.Valid) (r : Registry) (e : Event) :
    (r.spread e h).Valid := by
  cases hr : r.contains e.topic with
  | false => rwa [spread_refused hr]
  | true =>
    rw [spread_served hr]
    exact hv.publish e.topic (Filter.ofEvent e) e

theorem Registry.publish_failed {r : Registry} {e : Event} {h h' : Hub} {x : PublishError}
    (hp : r.publish Hub.transport e h = (.error x, h')) : h' = h := by
  unfold Registry.publish at hp
  split at hp
  · rcases hsend : h.publish e.topic (Filter.ofEvent e) e with ⟨answer, h₁⟩
    simp only [Hub.transport, hsend] at hp
    obtain ⟨herror, rfl⟩ := Prod.mk.inj hp
    unfold Hub.publish at hsend
    split at hsend
    · exact (Prod.mk.inj hsend).2.symm
    · obtain ⟨rfl, -⟩ := Prod.mk.inj hsend
      cases herror
  · exact (Prod.mk.inj hp).2.symm

/-- The status of the receipt. -/
def AdminRequest.status : AdminRequest → Nat
  | .startTask _ => 201
  | _ => 200

namespace Service

/-- The request of the admin interface that is carried out. -/
def granted? (verify : Verifier) (s : Service) (r : Http.Request) : Option AdminRequest :=
  match Route.ofPath? r.path with
  | none => none
  | some route =>
    if r.method ∉ route.methods then none
    else
      match AdminRequest.authorize verify s.runtime.secretHash r with
      | .error _ => none
      | .ok () =>
        match AdminRequest.ofRoute r route with
        | .error _ => none
        | .ok a => some a

def event? (s : Service) : AdminRequest → Option Event
  | .startTask r =>
    match s.tasks.beginStart r.taskId r.sessionId r.userId r.statusName with
    | (.ok (_, e), _) => some e
    | (.error _, _) => none
  | .reportTask id r =>
    match s.tasks.beginReport id r.statusName r.running with
    | .ok (_, e) => some e
    | .error _ => none
  | .sessionExpired session user => some (.scopedTo .sessionExpired (some session) user)
  | .sessionState session user t => some (.scopedTo (.sessionState t) (some session) user)
  | .sessionLogUpdated session user => some (.scopedTo .sessionLogUpdated (some session) user)
  | .configChanged => some (.new .configurationChanged)
  | .showTask _ | .abandonTask _ => none

def outgoing (verify : Verifier) (s : Service) (r : Http.Request) : Option Event :=
  (s.granted? verify r).bind s.event?

def hubAfter (s : Service) : Option Event → Hub
  | none => s.hub
  | some e => s.registry.spread e s.hub

theorem granted?_eq_some {verify : Verifier} {s : Service} {r : Http.Request} {a : AdminRequest} :
    s.granted? verify r = some a ↔ ∃ route, Route.ofPath? r.path = some route ∧
      r.method ∈ route.methods ∧ AdminRequest.authorize verify s.runtime.secretHash r = .ok () ∧
      AdminRequest.ofRoute r route = .ok a := by
  unfold granted?
  cases hroute : Route.ofPath? r.path with
  | none => simp
  | some route =>
    by_cases hm : r.method ∈ route.methods
    · cases hauth : AdminRequest.authorize verify s.runtime.secretHash r with
      | error e => simp [hm]
      | ok u => cases hof : AdminRequest.ofRoute r route <;> simp [hm, hof]
    · simp [hm]

theorem dispatch_granted {verify : Verifier} {s : Service} {r : Http.Request} {a : AdminRequest}
    (ha : s.granted? verify r = some a) : s.dispatch verify r = s.perform a := by
  unfold granted? at ha
  unfold dispatch
  cases hroute : Route.ofPath? r.path with
  | none => simp [hroute] at ha
  | some route =>
    simp only [hroute] at ha ⊢
    split at ha
    · simp at ha
    next hm =>
      rw [if_neg hm]
      cases hauth : AdminRequest.authorize verify s.runtime.secretHash r with
      | error e => simp [hauth] at ha
      | ok u =>
        simp only [hauth] at ha
        cases hof : AdminRequest.ofRoute r route with
        | error e => simp [hof] at ha
        | ok b =>
          simp only [hof, Option.some.injEq] at ha
          subst ha
          cases route with
          | health | stream => simp [AdminRequest.ofRoute] at hof
          | _ => simp only [administer, hauth, hof]

/-- What is not granted is refused, but for the health of the service. -/
theorem dispatch_ungranted {verify : Verifier} {s : Service} {r : Http.Request}
    (hnone : s.granted? verify r = none) :
    (Route.ofPath? r.path = some .health ∧ s.dispatch verify r = (.ok .healthy, s)) ∨
      ∃ x, s.dispatch verify r = (.error x, s) := by
  unfold granted? at hnone
  unfold dispatch
  cases hroute : Route.ofPath? r.path with
  | none => exact .inr ⟨_, rfl⟩
  | some route =>
    simp only [hroute] at hnone ⊢
    split
    · exact .inr ⟨_, rfl⟩
    next hm =>
      rw [if_neg hm] at hnone
      have hadmin : ∃ x, s.administer verify route r = (.error x, s) := by
        unfold administer
        cases hauth : AdminRequest.authorize verify s.runtime.secretHash r with
        | error e => exact ⟨e, rfl⟩
        | ok u =>
          simp only [hauth] at hnone ⊢
          cases hof : AdminRequest.ofRoute r route with
          | error e => exact ⟨e, rfl⟩
          | ok b => simp [hof] at hnone
      cases route with
      | health => exact .inl ⟨rfl, rfl⟩
      | stream => exact .inr ⟨_, rfl⟩
      | _ => exact .inr hadmin

theorem handle_ungranted {verify : Verifier} {s : Service} {r : Http.Request}
    (hnone : s.granted? verify r = none) : (s.handle verify r).2 = s := by
  simp only [handle]
  rcases dispatch_ungranted hnone with ⟨_, h⟩ | ⟨_, h⟩ <;> rw [h]

theorem handle_granted {verify : Verifier} {s : Service} {r : Http.Request} {a : AdminRequest}
    (ha : s.granted? verify r = some a) : (s.handle verify r).2 = (s.perform a).2 := by
  simp only [handle, dispatch_granted ha]

/-- The tasks once the request is carried out. -/
def tasksAfter (s : Service) : AdminRequest → Tasks
  | .startTask r => ⟨(r.taskId, ⟨⟨r.sessionId, nonEmpty? r.userId⟩, s.tasks.next⟩) ::
      s.tasks.entries, s.tasks.next + 1⟩
  | .reportTask id r => if r.running then s.tasks else s.tasks.erase id
  | .abandonTask id => s.tasks.erase id
  | _ => s.tasks

/-- What can come of a granted request: it is refused before anything is done, it is answered and
nobody is told, its event is not published, or it is. -/
inductive Performed (s : Service) : AdminRequest → Except Refusal Answer × Service → Prop
  | refused {a : AdminRequest} (x : Refusal) (he : s.event? a = none) : Performed s a (.error x, s)
  | shown {id : String} (o : OwnerAnswer) : Performed s (.showTask id) (.ok (.owner o), s)
  | released {id : String} : Performed s (.abandonTask id)
      (.ok .released, { s with tasks := s.tasksAfter (.abandonTask id) })
  | failed {a : AdminRequest} {e : Event} {x : PublishError} {t : Tasks}
    (he : s.event? a = some e)
    (hp : s.registry.publish Hub.transport e s.hub = (.error x, s.hub))
    (ht : t.entries = s.tasks.entries) :
    Performed s a (.error (.publish x), { s with tasks := t })
  | told {a : AdminRequest} {e : Event} {n : Accepted} {h : Hub} (he : s.event? a = some e)
    (hp : s.registry.publish Hub.transport e s.hub = (.ok n, h)) :
    Performed s a (.ok (.receipt a.status ⟨e.kind.id, e.topic, n.recipients⟩),
      { s with hub := h, tasks := s.tasksAfter a })

theorem performed_announce {s : Service} {a : AdminRequest} {e : Event}
    (he : s.event? a = some e) (hstatus : a.status = 200) (htasks : s.tasksAfter a = s.tasks) :
    s.Performed a (s.announce e) := by
  rcases hp : s.registry.publish Hub.transport e s.hub with ⟨x | n, h⟩
  · obtain rfl := Registry.publish_failed hp
    have hfailed := Performed.failed (s := s) he hp rfl
    simp only [announce, publish, hp]
    exact hfailed
  · have htold := Performed.told (s := s) he hp
    rw [hstatus, htasks] at htold
    simp only [announce, publish, hp]
    exact htold

theorem performed_start (s : Service) (r : StartTask) :
    s.Performed (.startTask r) (s.perform (.startTask r)) := by
  rcases s.tasks.beginStart_cases r.taskId r.sessionId r.userId r.statusName with
    ⟨x, hbegin⟩ | ⟨hid, _, hfree, hbegin⟩
  · simp only [perform, Tasks.start, hbegin]
    exact .refused _ (by simp only [event?, hbegin])
  · have he : s.event? (.startTask r) = some (Event.scopedTo
        (.taskInfo ⟨r.taskId, r.statusName, true, hid⟩) (some r.sessionId)
        (nonEmpty? r.userId)) := by
      simp only [event?, hbegin]
    simp only [perform, Tasks.start, hbegin, publishFor]
    rcases hp : s.registry.publish Hub.transport _ s.hub with ⟨x | n, h⟩
    · obtain rfl := Registry.publish_failed hp
      -- The registration was made before the publish, under an id that was free.
      exact .failed he hp (Tasks.entries_taken_back hfree _ _)
    · exact .told he hp

theorem performed_report (s : Service) (id : String) (r : TaskStatus) :
    s.Performed (.reportTask id r) (s.perform (.reportTask id r)) := by
  rcases s.tasks.beginReport_cases id r.statusName r.running with
    ⟨x, hbegin⟩ | ⟨hid, x, hfound, hbegin⟩
  · simp only [perform, Tasks.report, hbegin]
    exact .refused _ (by simp only [event?, hbegin])
  · have he : s.event? (.reportTask id r) = some (Event.scopedTo
        (.taskInfo ⟨id, r.statusName, r.running, hid⟩) (some x.owner.sessionId)
        x.owner.userId) := by
      simp only [event?, hbegin]
    have hrelease : (s.tasks.release id x).2 = s.tasks.erase id := by
      rw [Tasks.release_table, hfound, if_pos (by rfl)]
    simp only [perform, Tasks.report, hbegin, publishFor]
    rcases hp : s.registry.publish Hub.transport _ s.hub with ⟨x | n, h⟩
    · obtain rfl := Registry.publish_failed hp
      exact .failed he hp rfl
    · have htold := Performed.told (s := s) he hp
      simp only [tasksAfter, ← hrelease] at htold
      exact htold

theorem performed_perform (s : Service) (a : AdminRequest) : s.Performed a (s.perform a) := by
  cases a with
  | startTask r => exact s.performed_start r
  | reportTask id r => exact s.performed_report id r
  | showTask id =>
    simp only [perform, showTask]
    split
    · exact .shown _
    · exact .refused _ rfl
  | abandonTask id =>
    simp only [perform, abandonTask]
    split
    · exact .released
    · exact .refused _ rfl
  | sessionExpired session user => exact performed_announce rfl rfl rfl
  | sessionState session user t => exact performed_announce rfl rfl rfl
  | sessionLogUpdated session user => exact performed_announce rfl rfl rfl
  | configChanged => exact performed_announce rfl rfl rfl

variable {s : Service} {a : AdminRequest} {p : Except Refusal Answer × Service}

theorem Performed.publishes (h : s.Performed a p) :
    p.2.hub = s.hubAfter (s.event? a) ∧ p.2.registry = s.registry ∧ p.2.runtime = s.runtime := by
  cases h with
  | refused _ he => exact ⟨by rw [he]; rfl, rfl, rfl⟩
  | shown | released => exact ⟨rfl, rfl, rfl⟩
  | failed he hp _ | told he hp =>
    refine ⟨?_, rfl, rfl⟩
    rw [he, hubAfter, Registry.spread, hp]

theorem closed_hubAfter (s : Service) (e : Option Event) :
    (s.hubAfter e).closed = s.hub.closed := by
  cases e with
  | none => rfl
  | some e =>
    rw [hubAfter]
    cases hr : s.registry.contains e.topic with
    | false => rw [spread_refused hr]
    | true => rw [spread_served hr, Hub.closed_publish]

theorem handle_publishes (verify : Verifier) (s : Service) (r : Http.Request) :
    (s.handle verify r).2.hub = s.hubAfter (s.outgoing verify r) ∧
      (s.handle verify r).2.registry = s.registry := by
  rw [outgoing]
  cases hg : s.granted? verify r with
  | none =>
    rw [handle_ungranted hg]
    exact ⟨rfl, rfl⟩
  | some a =>
    rw [handle_granted hg]
    obtain ⟨hhub, hregistry, -⟩ := (s.performed_perform a).publishes
    exact ⟨hhub, hregistry⟩

theorem runtime_handle (verify : Verifier) (s : Service) (r : Http.Request) :
    (s.handle verify r).2.runtime = s.runtime := by
  cases hg : s.granted? verify r with
  | none => rw [handle_ungranted hg]
  | some a =>
    rw [handle_granted hg]
    exact (s.performed_perform a).publishes.2.2

theorem reload_publishes (s : Service) (r : Runtime) :
    (s.reload r).2.hub = s.hubAfter (some (.new .configurationChanged)) ∧
      (s.reload r).2.registry = s.registry :=
  ⟨rfl, rfl⟩

end Service

end EventGateway
