import EventGateway.Event.Kind
import EventGateway.Event.Scope

/-! What an event says beyond its kind. -/

namespace EventGateway

/-- The status of a task. The last one of a task has `running` false. -/
structure TaskInfo where
  taskId : String
  statusName : Option String
  running : Bool
  taskId_ne : taskId ≠ ""
  deriving DecidableEq

namespace TaskInfo

def of? (taskId : String) (statusName : Option String) (running : Bool) : Option TaskInfo :=
  if h : taskId = "" then none else some ⟨taskId, statusName, running, h⟩

def isTerminal (t : TaskInfo) : Bool := !t.running

end TaskInfo

/-- How long a session has been idle and has to live, in seconds. -/
structure SessionState where
  lastAccessTime : Int64
  remainingTime : Int64
  isValid : Bool
  deriving DecidableEq

namespace SessionState

open Json

def fields {δ : Type} (face : δ → Except SyntaxError Face) : Fields δ [Int64, Int64, Bool] :=
  .cons (.scalar face "lastAccessTime" Face.int64)
    (.cons (.scalar face "remainingTime" Face.int64)
      (.cons (.scalar face "isValid" Face.flag) .nil))

def ofRow (r : Row [Int64, Int64, Bool]) : SessionState := ⟨r.1, r.2.1, r.2.2.1⟩

def ofDraft (d : Draft) : Except Error SessionState :=
  ofRow <$> d.record "struct SessionState" (fields Draft.face)

end SessionState

inductive Payload
  | configurationChanged
  | taskInfo (t : TaskInfo)
  | sessionExpired
  | sessionState (s : SessionState)
  | sessionLogUpdated
  deriving DecidableEq

namespace Payload

def kind : Payload → Kind
  | configurationChanged => .configurationChanged
  | taskInfo _ => .taskInfoUpdated
  | sessionExpired => .sessionExpired
  | sessionState _ => .sessionState
  | sessionLogUpdated => .sessionLogUpdated

open Json

def members : Payload → List (String × Value)
  | taskInfo t =>
    ("taskId", .string t.taskId) ::
      (Value.optionalMember "statusName" t.statusName ++ [("running", .bool t.running)])
  | sessionState s =>
    [("lastAccessTime", .int s.lastAccessTime.toInt), ("remainingTime", .int s.remainingTime.toInt),
      ("isValid", .bool s.isValid)]
  | _ => []

def toJson (p : Payload) : String := (Value.object p.members).render

def taskInfoFields {δ : Type} (face : δ → Except SyntaxError Face) :
    Fields δ [String, Option String, Bool] :=
  .cons (.scalar face "taskId" (Face.text "a string"))
    (.cons (.lenient face "statusName" (Face.text "a string"))
      (.cons (.scalar face "running" Face.flag) .nil))

def emptyTaskId : String := "task id must not be empty"

def ofTaskRow (r : Row [String, Option String, Bool]) : Except Error Payload :=
  match TaskInfo.of? r.1 r.2.1 r.2.2.1 with
  | some t => .ok (taskInfo t)
  | none => DataError.throw (.refused emptyTaskId)

def ofDraft (k : Kind) (d : Draft) : Except Error Payload :=
  match k with
  | .configurationChanged =>
    (fun _ => configurationChanged) <$> d.record "struct ServerConfigurationChanged" .nil
  | .taskInfoUpdated => do
    let r ← d.record "struct RawSessionTaskInfo" (taskInfoFields Draft.face)
    ofTaskRow r
  | .sessionExpired => (fun _ => sessionExpired) <$> d.record "struct SessionExpired" .nil
  | .sessionState => sessionState <$> SessionState.ofDraft d
  | .sessionLogUpdated => (fun _ => sessionLogUpdated) <$> d.record "struct SessionLogUpdated" .nil

def ofJson (k : Kind) (s : String) : Except Error Payload := readText (ofDraft k) s

/-- The payload of an event of the given kind, from the members that say nothing of its route. -/
def ofMembers (k : Kind) (ms : List (String × Value)) : Except Error Payload :=
  match k with
  | .configurationChanged => .ok configurationChanged
  | .taskInfoUpdated => do
    let r ← (taskInfoFields Value.faceOf).ofMembers Value.skipMember ms
    ofTaskRow r
  | .sessionExpired => .ok sessionExpired
  | .sessionState =>
    (fun r => sessionState (SessionState.ofRow r)) <$>
      (SessionState.fields Value.faceOf).ofMembers Value.skipMember ms
  | .sessionLogUpdated => .ok sessionLogUpdated

end Payload

end EventGateway
