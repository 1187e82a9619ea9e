import EventGateway.Admin.Request
import EventGateway.Network.Address

/-! The running service, what the admin interface does with it, and how another configuration is
put into it. -/

namespace EventGateway

/-- The part of the configuration that can be replaced while the service runs. -/
structure Runtime where
  listen : Network.SocketAddress
  secretHash : String
  deriving DecidableEq

/-- What the reader of JSON says of where it finds a fault, such as ` at line 1 column 5`: in a
message of a client, and in the body of a request. It depends on what is to be read as well. -/
structure Positions where
  message : (text : String) → Json.Error → String
  body : Http.Request → Json.Error → String

/-- A reader that does not tell where a fault is. -/
def Positions.silent : Positions := ⟨fun _ _ => "", fun _ _ => ""⟩

structure Service where
  runtime : Runtime
  registry : Registry
  positions : Positions
  hub : Hub
  tasks : Tasks

inductive Answer
  | healthy
  | receipt (status : Nat) (r : Receipt)
  | owner (o : OwnerAnswer)
  | released
  deriving DecidableEq, Repr

namespace Answer

def version : String := "0.1.0"

def healthText : String :=
  (Json.Value.object [("status", .string "healthy"), ("version", .string version)]).render

def response : Answer → Http.Response
  | healthy => Http.Response.json 200 healthText
  | receipt status r => Http.Response.json status r.toJson
  | owner o => Http.Response.json 200 o.toJson
  | released => Http.Response.empty 204

end Answer

namespace Service

def start (runtime : Runtime) (registry : Registry) (positions : Positions) (capacity : Nat) :
    Service :=
  ⟨runtime, registry, positions, Hub.new capacity, Tasks.empty⟩

def publish (s : Service) (e : Event) : Except PublishError Accepted × Service :=
  let p := s.registry.publish Hub.transport e s.hub
  (p.1, { s with hub := p.2 })

def publishFor (r : Registry) (e : Event) (w : Hub × Tasks) :
    Except PublishError Accepted × Hub × Tasks :=
  let p := r.publish Hub.transport e w.1
  (p.1, p.2, w.2)

def receiptFor (k : Kind) (a : Accepted) : Receipt := ⟨k.id, k.topic, a.recipients⟩

def announce (s : Service) (e : Event) : Except Refusal Answer × Service :=
  let p := s.publish e
  ((p.1.map fun a => .receipt 200 (receiptFor e.kind a)).mapError .publish, p.2)

def afterTask (s : Service) (status : Nat) (r : Except TaskError Accepted × Hub × Tasks) :
    Except Refusal Answer × Service :=
  ((r.1.map fun a => .receipt status (receiptFor .taskInfoUpdated a)).mapError Refusal.ofTask,
    { s with hub := r.2.1, tasks := r.2.2 })

def showTask (s : Service) (id : String) : Except Refusal Answer :=
  match s.tasks.owner? id with
  | some o => .ok (.owner ⟨id, o.sessionId, o.userId⟩)
  | none => .error (.task (.unknown id))

def abandonTask (s : Service) (id : String) : Except Refusal Answer × Service :=
  let p := s.tasks.abandon id
  match p.1 with
  | some _ => (.ok .released, { s with tasks := p.2 })
  | none => (.error (.task (.unknown id)), s)

def perform (s : Service) : AdminRequest → Except Refusal Answer × Service
  | .startTask r =>
    s.afterTask 201 (Tasks.start (publishFor s.registry) r.taskId r.sessionId r.userId r.statusName
      s.hub s.tasks)
  | .showTask id => (s.showTask id, s)
  | .reportTask id r =>
    s.afterTask 200
      (Tasks.report (publishFor s.registry) id r.statusName r.running s.hub s.tasks)
  | .abandonTask id => s.abandonTask id
  | .sessionExpired session user => s.announce (.scopedTo .sessionExpired (some session) user)
  | .sessionState session user t => s.announce (.scopedTo (.sessionState t) (some session) user)
  | .sessionLogUpdated session user =>
    s.announce (.scopedTo .sessionLogUpdated (some session) user)
  | .configChanged => s.announce (.new .configurationChanged)

def administer (verify : Verifier) (s : Service) (route : Route) (r : Http.Request) :
    Except Refusal Answer × Service :=
  match AdminRequest.authorize verify s.runtime.secretHash r with
  | .error e => (.error e, s)
  | .ok () =>
    match AdminRequest.ofRoute r route with
    | .error e => (.error e, s)
    | .ok a => s.perform a

def listenLog (old new : Runtime) : List LogLine :=
  if old.listen = new.listen then []
  else [⟨.lifecycle, .warn, "server.listen changed; restart to apply"⟩]

def announceLog (answer : Except PublishError Accepted) : List LogLine :=
  publishLog answer ++
    match answer with
    | .ok _ => []
    | .error _ => [⟨.lifecycle, .error, "Failed to broadcast configuration change"⟩]

/-- The new configuration holds at once, and everyone is told. -/
def reload (s : Service) (runtime : Runtime) : List LogLine × Service :=
  let p := { s with runtime := runtime }.publish (.new .configurationChanged)
  (listenLog s.runtime runtime ++ announceLog p.1, p.2)

end Service

end EventGateway
