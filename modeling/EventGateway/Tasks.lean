import EventGateway.Publisher

/-! Which session owns each live task. A registration has a generation of its own, so that a
start or a report that has been overtaken does not remove what another one registered. Both
publish between a first and a last part, and anything may happen to the table meanwhile. -/

namespace EventGateway

structure Owner where
  sessionId : String
  userId : Option String
  deriving DecidableEq, Repr

structure Registration where
  owner : Owner
  generation : UInt64
  deriving DecidableEq

structure Tasks where
  entries : List (String × Registration)
  next : UInt64

inductive TaskError
  | stale (taskId sessionId : String)
  | unknown (taskId : String)
  | emptyTaskId
  | emptySessionId
  | publish (e : PublishError)
  deriving DecidableEq, Repr

namespace TaskError

def message : TaskError → String
  | stale t s => "task " ++ t ++ " is still mapped to session " ++ s
  | unknown t => "task " ++ t ++ " is not tracked"
  | emptyTaskId => Payload.emptyTaskId
  | emptySessionId => "session id must not be empty"
  | publish e => e.message

end TaskError

namespace Tasks

def empty : Tasks := ⟨[], 0⟩

def find? (t : Tasks) (id : String) : Option Registration := t.entries.lookup id

def owner? (t : Tasks) (id : String) : Option Owner := (t.find? id).map Registration.owner

def sessionOf? (t : Tasks) (id : String) : Option String := (t.owner? id).map Owner.sessionId

def live (t : Tasks) : Nat := t.entries.length

def erase (t : Tasks) (id : String) : Tasks :=
  { t with entries := t.entries.filter fun e => e.1 ≠ id }

def register (t : Tasks) (id sessionId : String) (userId : Option String) :
    Except TaskError Registration × Tasks :=
  if id = "" then (.error .emptyTaskId, t)
  else if sessionId = "" then (.error .emptySessionId, t)
  else
    match t.find? id with
    | some r => (.error (.stale id r.owner.sessionId), t)
    | none =>
      let r : Registration := ⟨⟨sessionId, nonEmpty? userId⟩, t.next⟩
      (.ok r, ⟨(id, r) :: t.entries, t.next + 1⟩)

/-- Removes the entry only while it is still the given registration. -/
def release (t : Tasks) (id : String) (r : Registration) : Bool × Tasks :=
  match t.find? id with
  | some current => if current.generation = r.generation then (true, t.erase id) else (false, t)
  | none => (false, t)

def abandon (t : Tasks) (id : String) : Option Owner × Tasks := (t.owner? id, t.erase id)

def statusEvent (id : String) (owner : Owner) (statusName : Option String) (running : Bool) :
    Except TaskError Event :=
  match TaskInfo.of? id statusName running with
  | some i => .ok (Event.scopedTo (.taskInfo i) (some owner.sessionId) owner.userId)
  | none => .error .emptyTaskId

def taskInfo (t : Tasks) (id : String) (statusName : Option String) (running : Bool) :
    Except TaskError Event :=
  match t.find? id with
  | some r => statusEvent id r.owner statusName running
  | none => .error (.unknown id)

/-- The first part of a start: the registration, and the event that announces it. -/
def beginStart (t : Tasks) (id sessionId : String) (userId statusName : Option String) :
    Except TaskError (Registration × Event) × Tasks :=
  match t.register id sessionId userId with
  | (.error e, t) => (.error e, t)
  | (.ok r, t) => ((statusEvent id r.owner statusName true).map fun e => (r, e), t)

/-- The last part of a start: when the event was refused the registration is taken back. -/
def endStart (t : Tasks) (id : String) (r : Registration) (answer : Except PublishError Accepted) :
    Except TaskError Accepted × Tasks :=
  match answer with
  | .ok a => (.ok a, t)
  | .error e => (.error (.publish e), (t.release id r).2)

def beginReport (t : Tasks) (id : String) (statusName : Option String) (running : Bool) :
    Except TaskError (Registration × Event) :=
  match t.find? id with
  | some r => (statusEvent id r.owner statusName running).map fun e => (r, e)
  | none => .error (.unknown id)

/-- The last part of a report: an accepted last status takes the registration away. -/
def endReport (t : Tasks) (id : String) (running : Bool) (r : Registration)
    (answer : Except PublishError Accepted) : Except TaskError Accepted × Tasks :=
  match answer with
  | .ok a => (.ok a, if running then t else (t.release id r).2)
  | .error e => (.error (.publish e), t)

def start {σ : Type} (publish : Event → σ × Tasks → Except PublishError Accepted × σ × Tasks)
    (id sessionId : String) (userId statusName : Option String) (s : σ) (t : Tasks) :
    Except TaskError Accepted × σ × Tasks :=
  match t.beginStart id sessionId userId statusName with
  | (.error e, t) => (.error e, s, t)
  | (.ok (r, e), t) =>
    let (answer, s, t) := publish e (s, t)
    let (result, t) := t.endStart id r answer
    (result, s, t)

def report {σ : Type} (publish : Event → σ × Tasks → Except PublishError Accepted × σ × Tasks)
    (id : String) (statusName : Option String) (running : Bool) (s : σ) (t : Tasks) :
    Except TaskError Accepted × σ × Tasks :=
  match t.beginReport id statusName running with
  | .error e => (.error e, s, t)
  | .ok (r, e) =>
    let (answer, s, t) := publish e (s, t)
    let (result, t) := t.endReport id running r answer
    (result, s, t)

end Tasks

end EventGateway
