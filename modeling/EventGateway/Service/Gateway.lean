import EventGateway.Service.Handle
import EventGateway.Stream.Connection

/-! The service with its event streams. Between two steps every stream has sent on all that its
subscriptions hold. -/

namespace EventGateway

open Http

/-- A stream is known by its number, in the order of their opening. -/
structure Gateway where
  service : Service
  connections : List Connection

namespace Gateway

def start (s : Service) : Gateway := ⟨s, []⟩

def settleAll (h : Hub) : List Connection → List Connection × Hub
  | [] => ([], h)
  | c :: cs =>
    let p := c.settle h
    let q := settleAll p.2 cs
    (p.1 :: q.1, q.2)

def settle (g : Gateway) : Gateway :=
  let p := settleAll g.service.hub g.connections
  ⟨{ g.service with hub := p.2 }, p.1⟩

def handle (verify : Verifier) (g : Gateway) (r : Request) : Response × Gateway :=
  let p := g.service.handle verify r
  (p.1, { g with service := p.2 }.settle)

def publish (g : Gateway) (e : Event) : Except PublishError Accepted × Gateway :=
  let p := g.service.publish e
  (p.1, { g with service := p.2 })

def reload (g : Gateway) (r : Runtime) : List LogLine × Gateway :=
  let p := g.service.reload r
  (p.1, { g with service := p.2 }.settle)

/-- `fresh` is the session that the listener gets if it brings none. -/
def connect (g : Gateway) (fresh query : String) : Except Refusal Nat × Gateway :=
  match Identity.ofQuery query with
  | .error e => (.error e, g)
  | .ok f =>
    (.ok g.connections.length,
      { g with connections := g.connections ++ [Connection.new (Identity.settle fresh f)] })

def withConnection (g : Gateway) (n : Nat) (f : Connection → Hub → Connection × Hub) : Gateway :=
  match g.connections[n]? with
  | none => g
  | some c =>
    let p := f c g.service.hub
    ⟨{ g.service with hub := p.2 }, g.connections.set n p.1⟩

def isOpen (g : Gateway) (n : Nat) : Bool :=
  match g.connections[n]? with
  | some c => c.isOpen
  | none => false

def receive (g : Gateway) (n : Nat) (m : Incoming) : Bool × Gateway :=
  if g.isOpen n then
    (true, (g.withConnection n fun c h =>
      c.receive g.service.positions.message g.service.registry h m).settle)
  else (false, g)

def disconnect (g : Gateway) (n : Nat) : Gateway :=
  (g.withConnection n Connection.release).settle

def collect (g : Gateway) (n : Nat) : List Outgoing × Gateway :=
  match g.connections[n]? with
  | none => ([], g)
  | some c => (c.sent, { g with connections := g.connections.set n c.collect.2 })

end Gateway

end EventGateway
