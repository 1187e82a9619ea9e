import EventGateway.Proofs.Event.Survival
import EventGateway.Proofs.Service.Asked
import EventGateway.Proofs.Service.Refused
import EventGateway.Proofs.Stream.Changes
import Mathlib.Data.Finset.Card

/-! Receipts tell the truth: a request that is answered with one has published one event, for those
whom it names, and the receipt counts the queues that took it. -/

namespace EventGateway

open Http

namespace Hub

variable {h : Hub}

/-- The subscriptions whose queue takes the event. -/
def takers (h : Hub) (t : Topic) (f : Filter) : Finset SubscriptionId :=
  ((h.slots.filter (h.takes t f)).map Slot.id).toFinset

end Hub

theorem Registry.publish_ok {r : Registry} {e : Event} {h h' : Hub} {n : Accepted}
    (hp : r.publish Hub.transport e h = (.ok n, h')) :
    h.publish e.topic (Filter.ofEvent e) e = (.ok n, h') := by
  unfold Registry.publish at hp
  split at hp
  · obtain ⟨hok, rfl⟩ := Prod.mk.inj hp
    exact Prod.ext (mapError_ok.mp hok) rfl
  · simp at hp

def Tasks.Whole (t : Tasks) : Prop := ∀ x ∈ t.entries, x.2.owner.Whole

theorem Tasks.Whole.owner {t : Tasks} (ht : t.Whole) {id : String} {r : Registration}
    (hf : t.find? id = some r) : r.owner.Whole :=
  ht (id, r) (Tasks.mem_of_find? hf)

/-- The route is one that tells of something. -/
def Route.publishes : Route → Bool
  | .health | .stream | .task _ => false
  | _ => true

/-- What is told of a request to the route: what it says, to those whom it names. Of a task the
owner is told, the one it has from then on or has had so far. -/
inductive Route.Tells (q : Request) (before after : String → Option Owner) : Route → Event → Prop
  | start {r : StartTask} {o : Owner} (hid : r.taskId ≠ "")
    (hbody : AdminRequest.body StartTask.ofDraft q = .ok r)
    (hnamed : o = ⟨r.sessionId, r.userId.filter (· ≠ "")⟩) (howner : after r.taskId = some o) :
    Tells q before after .tasks
      ⟨⟨some o.sessionId, o.userId⟩, .taskInfo ⟨r.taskId, r.statusName, true, hid⟩⟩
  | status {raw id : String} {r : TaskStatus} {o : Owner} (hid : id ≠ "")
    (hpath : Text.percentText? raw = some id)
    (hbody : AdminRequest.body TaskStatus.ofDraft q = .ok r) (howner : before id = some o) :
    Tells q before after (.taskStatus raw)
      ⟨⟨some o.sessionId, o.userId⟩, .taskInfo ⟨id, r.statusName, r.running, hid⟩⟩
  | expired {raw id : String} (hpath : Text.percentText? raw = some id) :
    Tells q before after (.sessionExpired raw)
      ⟨⟨(some id).filter (· ≠ ""),
          ((Text.Form.read q.query).lookup "userId").filter (· ≠ "")⟩,
        .sessionExpired⟩
  | state {raw id : String} {t : SessionState} (hpath : Text.percentText? raw = some id)
    (hbody : AdminRequest.body SessionState.ofDraft q = .ok t) :
    Tells q before after (.sessionState raw)
      ⟨⟨(some id).filter (· ≠ ""),
          ((Text.Form.read q.query).lookup "userId").filter (· ≠ "")⟩,
        .sessionState t⟩
  | logUpdated {raw id : String} (hpath : Text.percentText? raw = some id) :
    Tells q before after (.sessionLogUpdated raw)
      ⟨⟨(some id).filter (· ≠ ""),
          ((Text.Form.read q.query).lookup "userId").filter (· ≠ "")⟩,
        .sessionLogUpdated⟩
  | configChanged :
    Tells q before after .configChanged ⟨⟨none, none⟩, .configurationChanged⟩

namespace Service

variable {verify : Verifier} {s : Service} {q : Request} {route : Route} {a : AdminRequest}
  {e : Event}

theorem event?_start {r : StartTask} (he : s.event? (.startTask r) = some e) :
    ∃ hid : r.taskId ≠ "", r.sessionId ≠ "" ∧
      e = ⟨⟨some r.sessionId, nonEmpty? r.userId⟩,
        .taskInfo ⟨r.taskId, r.statusName, true, hid⟩⟩ := by
  rcases s.tasks.beginStart_cases r.taskId r.sessionId r.userId r.statusName with
    ⟨x, hbegin⟩ | ⟨hid, hs, _, hbegin⟩
  · simp [event?, hbegin] at he
  · -- The scope drops empty ids, and the new owner has none.
    have hscope := (whole_new hs r.userId).scope
    simp only [event?, hbegin, Option.some.injEq] at he
    exact ⟨hid, hs, by rw [← he, Event.scopedTo, hscope]⟩

/-- An asked request to tell of something that succeeds has published its event. -/
theorem Performed.tells {p : Except Refusal Answer × Service} (h : s.Performed a p)
    (ha : route.Asks q a) (hp : route.publishes = true) (hok : p.1.isOk = true) :
    ∃ e n, s.event? a = some e ∧ p.2.tasks = s.tasksAfter a ∧
      s.hub.publish e.topic (Filter.ofEvent e) e = (.ok n, p.2.hub) ∧
      p.1 = .ok (.receipt a.status ⟨e.kind.id, e.topic, n.recipients⟩) := by
  cases h with
  | refused | failed => cases hok
  | shown | released =>
    cases ha
    cases hp
  | told he hpublish => exact ⟨_, _, he, rfl, Registry.publish_ok hpublish, rfl⟩

theorem Performed.whole {p : Except Refusal Answer × Service} (h : s.Performed a p)
    (ht : s.tasks.Whole) : p.2.tasks.Whole := by
  cases h with
  | refused | shown => exact ht
  | released => exact fun x hx => ht x (List.mem_filter.mp hx).1
  | failed _ _ hkept => exact fun x hx => ht x (hkept ▸ hx)
  | told he _ =>
    cases a with
    | startTask r =>
      obtain ⟨_, hs, _⟩ := event?_start he
      intro x hx
      rcases List.mem_cons.mp hx with rfl | hx
      · exact whole_new hs r.userId
      · exact ht x hx
    | reportTask id r =>
      intro x hx
      simp only [tasksAfter] at hx
      split at hx
      · exact ht x hx
      · exact ht x (List.mem_filter.mp hx).1
    | abandonTask id => exact fun x hx => ht x (List.mem_filter.mp hx).1
    | _ => exact ht

/-- But for the health of the service, only what is granted and carried out is a success. -/
theorem granted_of_success (hroute : Route.ofPath? q.path = some route)
    (hhealth : route ≠ .health) (hok : (s.handle verify q).1.isSuccess = true) :
    ∃ a, s.granted? verify q = some a ∧ q.method ∈ route.methods ∧ route.Asks q a ∧
      (s.perform a).1.isOk = true := by
  rw [success_handle] at hok
  cases hgranted : s.granted? verify q with
  | none =>
    rcases dispatch_ungranted hgranted with ⟨hthis, -⟩ | ⟨x, herror⟩
    · exact absurd (Option.some.inj (hroute.symm.trans hthis)) hhealth
    · rw [herror] at hok
      cases hok
  | some a =>
    obtain ⟨route', hroute', hmethod, -, hof⟩ := granted?_eq_some.mp hgranted
    obtain rfl : route = route' := Option.some.inj (hroute.symm.trans hroute')
    rw [dispatch_granted hgranted] at hok
    exact ⟨a, rfl, hmethod, AdminRequest.asks_of_ofRoute hof, hok⟩

theorem whole_handle (verify : Verifier) (ht : s.tasks.Whole) (r : Request) :
    (s.handle verify r).2.tasks.Whole := by
  cases hg : s.granted? verify r with
  | none => rwa [handle_ungranted hg]
  | some a =>
    rw [handle_granted hg]
    exact (s.performed_perform a).whole ht

end Service

namespace Gateway

variable {verify : Verifier} {g g' : Gateway}

@[simp] theorem tasks_withConnection (g : Gateway) (n : Nat)
    (f : Connection → Hub → Connection × Hub) :
    (g.withConnection n f).service.tasks = g.service.tasks := by
  unfold withConnection
  split <;> rfl

theorem whole_act (verify : Verifier) (hg : g.service.tasks.Whole) (a : Act) :
    (g.act verify a).service.tasks.Whole := by
  cases a with
  | handle r =>
    simp only [act]
    exact Service.whole_handle verify hg r
  | reload r => exact hg
  | publish e => exact hg
  | close => exact hg
  | connect fresh query =>
    simp only [act, connect]
    split <;> exact hg
  | receive n m =>
    simp only [act]
    split
    · simpa using hg
    · exact hg
  | poll n t => simpa [act] using hg
  | disconnect n => simpa [act] using hg
  | collect n =>
    rw [act, collect_eq]
    simpa using hg

theorem Becomes.whole (hg : g.Becomes verify g') (h : g.service.tasks.Whole) :
    g'.service.tasks.Whole := by
  induction hg with
  | start => exact h
  | act _ a ih => exact whole_act verify ih a
  | hub _ op ih => exact ih

def expired : Event := ⟨⟨some "S1", none⟩, .sessionExpired⟩

end Gateway

end EventGateway
