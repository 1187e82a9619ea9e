import EventGateway.Service.Basic
import EventGateway.Stream.Opening

/-! Answering requests. A request is refused for its route first, then for its method. -/

namespace EventGateway

open Http

namespace Service

def refuseStream (r : Request) : Refusal :=
  match Identity.ofQuery r.query with
  | .error e => e
  | .ok _ => .upgrade ((Upgrade.fault? r).getD .connectionState)

def dispatch (verify : Verifier) (s : Service) (r : Request) : Except Refusal Answer × Service :=
  match Route.ofPath? r.path with
  | none => (.error .noRoute, s)
  | some route =>
    if r.method ∉ route.methods then (.error (.method route.methods), s)
    else
      match route with
      | .health => (.ok .healthy, s)
      | .stream => (.error (refuseStream r), s)
      | _ => s.administer verify route r

def respond (position : Json.Error → String) : Except Refusal Answer → Response
  | .ok a => a.response
  | .error e => e.response position

/-- The answer to a request for the head of another has no body. -/
def handle (verify : Verifier) (s : Service) (r : Request) : Response × Service :=
  let p := s.dispatch verify r
  let answer := respond (s.positions.body r) p.1
  (if r.method = .head then answer.withoutBody else answer, p.2)

end Service

end EventGateway
