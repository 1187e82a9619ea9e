import EventGateway.Http.Message

/-! The routes of the service. A parameter is one raw segment of the path. -/

namespace EventGateway

open Http

inductive Route
  | health
  | stream
  | tasks
  | task (id : String)
  | taskStatus (id : String)
  | sessionExpired (id : String)
  | sessionState (id : String)
  | sessionLogUpdated (id : String)
  | configChanged
  deriving DecidableEq, Repr

namespace Route

def segments (path : String) : List String :=
  (splitAtSlash path.toList).map String.ofList
where
  splitAtSlash : List Char → List (List Char)
  | [] => [[]]
  | c :: r =>
    if c = '/' then [] :: splitAtSlash r
    else
      match splitAtSlash r with
      | [] => [[c]]
      | p :: ps => (c :: p) :: ps

/-- Under `/api/admin`. A parameter in the middle may be empty, one at the end may not. -/
def ofAdmin? : List String → Option Route
  | ["tasks"] => some tasks
  | ["tasks", id] => if id = "" then none else some (task id)
  | ["tasks", id, "status"] => some (taskStatus id)
  | ["sessions", id, "expired"] => some (sessionExpired id)
  | ["sessions", id, "state"] => some (sessionState id)
  | ["sessions", id, "log-updated"] => some (sessionLogUpdated id)
  | ["config", "changed"] => some configChanged
  | _ => none

def ofPath? (path : String) : Option Route :=
  match segments path with
  | ["", "health"] => some health
  | ["", "ws"] => some stream
  | "" :: "api" :: "admin" :: r => ofAdmin? r
  | _ => none

def methods : Route → List Method
  | health | stream => [.get, .head]
  | task _ => [.get, .head, .delete]
  | _ => [.post]

def isAdmin : Route → Bool
  | health | stream => false
  | _ => true

end Route

end EventGateway
