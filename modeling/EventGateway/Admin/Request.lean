import EventGateway.Admin.Refusal
import EventGateway.Admin.Route
import EventGateway.AdminMessage
import EventGateway.Http.MediaType

/-! What a request asks for. It is checked in a fixed order: the secret, the path, the query, the
body. The first fault decides the answer. -/

namespace EventGateway

open Http

/-- Whether a secret opens a hash. -/
abbrev Verifier := (hash secret : String) → Bool

inductive AdminRequest
  | startTask (r : StartTask)
  | showTask (id : String)
  | reportTask (id : String) (r : TaskStatus)
  | abandonTask (id : String)
  | sessionExpired (sessionId : String) (userId : Option String)
  | sessionState (sessionId : String) (userId : Option String) (s : SessionState)
  | sessionLogUpdated (sessionId : String) (userId : Option String)
  | configChanged

namespace AdminRequest

def authorize (verify : Verifier) (hash : String) (r : Request) : Except Refusal Unit :=
  match r.header? adminHeader with
  | none => .error .noSecret
  | some value =>
    match visibleText? value with
    | none => .error .unreadableSecret
    | some secret => if verify hash secret then .ok () else .error .wrongSecret

/-- A segment of the path is decoded once. -/
def parameter (name raw : String) : Except Refusal String :=
  match Text.percentText? raw with
  | some s => .ok s
  | none => .error (.path name)

def userId (r : Request) : Except Refusal (Option String) :=
  let pairs := Text.Form.read r.query
  match Text.Form.repeated? ["userId"] pairs with
  | some f => .error (.query f)
  | none => .ok (pairs.lookup "userId")

def bodyLimit : Nat := 2 * 1024 * 1024

def body {α : Type} (reader : Json.Draft → Except Json.Error α) (r : Request) : Except Refusal α :=
  if !r.declaresJson then .error .notJson
  else if bodyLimit < r.body.length then .error .bodyTooLong
  else (Json.readGlyphs reader (Json.glyphsOfBytes r.body)).mapError .body

def ofRoute (r : Request) : Route → Except Refusal AdminRequest
  | .tasks => startTask <$> body StartTask.ofDraft r
  | .task raw => do
    let id ← parameter "task_id" raw
    pure (if r.method = .delete then abandonTask id else showTask id)
  | .taskStatus raw => do
    let id ← parameter "task_id" raw
    let s ← body TaskStatus.ofDraft r
    pure (reportTask id s)
  | .sessionExpired raw => do
    let id ← parameter "session_id" raw
    let user ← userId r
    pure (sessionExpired id user)
  | .sessionState raw => do
    let id ← parameter "session_id" raw
    let user ← userId r
    let s ← body SessionState.ofDraft r
    pure (sessionState id user s)
  | .sessionLogUpdated raw => do
    let id ← parameter "session_id" raw
    let user ← userId r
    pure (sessionLogUpdated id user)
  | .configChanged => .ok configChanged
  | .health | .stream => .error .noRoute

end AdminRequest

end EventGateway
