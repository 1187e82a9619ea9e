import EventGateway.Tasks

/-! Task operations over a transport that follows a script: what it answers, and what else is done
to the table before it answers. -/

namespace EventGateway

inductive QuietOp
  | started (id sessionId : String) (userId : Option String)
  | info (id : String) (statusName : Option String) (running : Bool)
  | owner (id : String)
  | sessionOf (id : String)
  | abandon (id : String)
  deriving DecidableEq, Repr

inductive QuietResult
  | started (r : Except TaskError Unit)
  | info (r : Except TaskError Event)
  | owner (o : Option Owner)
  | session (s : Option String)
  | abandoned (o : Option Owner)

namespace Tasks

def quiet (t : Tasks) : QuietOp → QuietResult × Tasks
  | .started id s u =>
    let (r, t) := t.register id s u
    (.started (r.map fun _ => ()), t)
  | .info id st running => (.info (t.taskInfo id st running), t)
  | .owner id => (.owner (t.owner? id), t)
  | .sessionOf id => (.session (t.sessionOf? id), t)
  | .abandon id =>
    let (o, t) := t.abandon id
    (.abandoned o, t)

def quietly (t : Tasks) : List QuietOp → List QuietResult × Tasks
  | [] => ([], t)
  | op :: ops =>
    let (r, t) := t.quiet op
    let (rs, t) := t.quietly ops
    (r :: rs, t)

end Tasks

/-- What the transport does next: the operations only once, the answer until it is replaced. -/
structure Reply where
  answer : Except DeliveryError Accepted
  during : List QuietOp

structure Call where
  topic : Topic
  filter : Filter
  event : Event
  accepted : Bool
  during : List QuietResult

structure Script where
  reply : Reply
  calls : List Call

namespace Script

def initial : Script := ⟨⟨.ok ⟨1, 0⟩, []⟩, []⟩

def transport : Transport (Script × Tasks) := fun topic f e (s, t) =>
  let (rs, t) := t.quietly s.reply.during
  let accepted := match s.reply.answer with
    | .ok _ => true
    | .error _ => false
  (s.reply.answer, ⟨{ s.reply with during := [] }, s.calls ++ [⟨topic, f, e, accepted, rs⟩]⟩, t)

end Script

inductive TaskOp
  | quiet (op : QuietOp)
  | publish (e : Event)
  | start (id sessionId : String) (userId statusName : Option String)
  | report (id : String) (statusName : Option String) (running : Bool)

inductive TaskResult
  | quiet (r : QuietResult)
  | published (r : Except TaskError Accepted)

namespace TaskOp

/-- The operation over any transport. -/
def via {σ : Type} (r : Registry) (send : Transport (σ × Tasks)) (op : TaskOp) (w : σ × Tasks) :
    TaskResult × σ × Tasks :=
  match op with
  | quiet op =>
    let (x, t) := w.2.quiet op
    (.quiet x, w.1, t)
  | .publish e =>
    let (x, w) := r.publish send e w
    (.published (x.mapError .publish), w)
  | start id s u st =>
    let (x, w) := Tasks.start (r.publish send) id s u st w.1 w.2
    (.published x, w)
  | report id st running =>
    let (x, w) := Tasks.report (r.publish send) id st running w.1 w.2
    (.published x, w)

def step (r : Registry) (op : TaskOp) (w : Script × Tasks) : TaskResult × Script × Tasks :=
  op.via r Script.transport w

end TaskOp

end EventGateway
