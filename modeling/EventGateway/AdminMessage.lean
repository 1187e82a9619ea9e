import EventGateway.Event.Basic
import EventGateway.Json.Variant

/-! Bodies of the admin interface. -/

namespace EventGateway

open Json

def adminHeader : String := "Wsnotify-Admin-Authorization"

structure StartTask where
  taskId : String
  sessionId : String
  userId : Option String
  statusName : Option String
  deriving DecidableEq, Repr

structure TaskStatus where
  statusName : Option String
  running : Bool
  deriving DecidableEq, Repr

structure SessionNotice where
  userId : Option String
  deriving DecidableEq, Repr

/-- The answer to a published event: how many subscriptions it was queued for. -/
structure Receipt where
  eventId : String
  topic : Topic
  recipients : Nat
  deriving DecidableEq, Repr

structure OwnerAnswer where
  taskId : String
  sessionId : String
  userId : Option String
  deriving DecidableEq, Repr

def textField (name : String) : Field Draft String := .scalar Draft.face name (Face.text "a string")

def maybeTextField (name : String) : Field Draft (Option String) :=
  .lenient Draft.face name (Face.text "a string")

namespace StartTask

def members (r : StartTask) : List (String × Value) :=
  ("taskId", .string r.taskId) :: ("sessionId", .string r.sessionId) ::
    (Value.optionalMember "userId" r.userId ++ Value.optionalMember "statusName" r.statusName)

def toJson (r : StartTask) : String := (Value.object r.members).render

def fields : Fields Draft [String, String, Option String, Option String] :=
  .cons (textField "taskId") (.cons (textField "sessionId")
    (.cons (maybeTextField "userId") (.cons (maybeTextField "statusName") .nil)))

def ofDraft (d : Draft) : Except Error StartTask :=
  (fun r => ⟨r.1, r.2.1, r.2.2.1, r.2.2.2.1⟩) <$> d.record "struct StartTaskRequest" fields

def ofJson (s : String) : Except Error StartTask := readText ofDraft s

end StartTask

namespace TaskStatus

def members (r : TaskStatus) : List (String × Value) :=
  Value.optionalMember "statusName" r.statusName ++ [("running", .bool r.running)]

def toJson (r : TaskStatus) : String := (Value.object r.members).render

def fields : Fields Draft [Option String, Bool] :=
  .cons (maybeTextField "statusName") (.cons (.scalar Draft.face "running" Face.flag) .nil)

def ofDraft (d : Draft) : Except Error TaskStatus :=
  (fun r => ⟨r.1, r.2.1⟩) <$> d.record "struct TaskStatusRequest" fields

def ofJson (s : String) : Except Error TaskStatus := readText ofDraft s

end TaskStatus

namespace SessionNotice

def members (r : SessionNotice) : List (String × Value) := Value.optionalMember "userId" r.userId

def toJson (r : SessionNotice) : String := (Value.object r.members).render

def fields : Fields Draft [Option String] := .cons (maybeTextField "userId") .nil

def ofDraft (d : Draft) : Except Error SessionNotice :=
  (fun r => ⟨r.1⟩) <$> d.record "struct SessionNoticeRequest" fields

def ofJson (s : String) : Except Error SessionNotice := readText ofDraft s

end SessionNotice

def Topic.ofDraft (d : Draft) : Except Error Topic := do
  let name ← d.bareVariant (Topic.all.map Topic.name)
  match Topic.ofName? name with
  | some t => pure t
  | none => DataError.throw (.unknownVariant name (Topic.all.map Topic.name))

def Topic.toJson (t : Topic) : String := (Value.string t.name).render

def Topic.ofJson (s : String) : Except Error Topic := readText Topic.ofDraft s

namespace Receipt

def members (r : Receipt) : List (String × Value) :=
  [("eventId", .string r.eventId), ("topic", .string r.topic.name), ("recipients", .int r.recipients)]

def toJson (r : Receipt) : String := (Value.object r.members).render

def fields : Fields Draft [String, Topic, Nat] :=
  .cons (textField "eventId")
    (.cons { name := "topic", read := Topic.ofDraft }
      (.cons (.scalar Draft.face "recipients" Face.count) .nil))

def ofDraft (d : Draft) : Except Error Receipt :=
  (fun r => ⟨r.1, r.2.1, r.2.2.1⟩) <$> d.record "struct PublishReceipt" fields

def ofJson (s : String) : Except Error Receipt := readText ofDraft s

end Receipt

namespace OwnerAnswer

def members (r : OwnerAnswer) : List (String × Value) :=
  ("taskId", .string r.taskId) :: ("sessionId", .string r.sessionId) ::
    Value.optionalMember "userId" r.userId

def toJson (r : OwnerAnswer) : String := (Value.object r.members).render

def fields : Fields Draft [String, String, Option String] :=
  .cons (textField "taskId") (.cons (textField "sessionId") (.cons (maybeTextField "userId") .nil))

def ofDraft (d : Draft) : Except Error OwnerAnswer :=
  (fun r => ⟨r.1, r.2.1, r.2.2.1⟩) <$> d.record "struct TaskOwnerResponse" fields

def ofJson (s : String) : Except Error OwnerAnswer := readText ofDraft s

end OwnerAnswer

end EventGateway
