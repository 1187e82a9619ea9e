import EventGateway.Event.Wire
import EventGateway.Json.Variant

/-! What client and server say to each other over the event stream, events apart. -/

namespace EventGateway

open Json

/-- A client asks by the name of a topic, which need not be one. -/
inductive ClientMessage
  | subscribe (topicId : String)
  | unsubscribe (topicId : String)
  deriving DecidableEq, Repr

namespace ClientMessage

def subscribeId : String := "cb_client_topic_subscribe"

def unsubscribeId : String := "cb_client_topic_unsubscribe"

def tag : ClientMessage → String
  | subscribe _ => subscribeId
  | unsubscribe _ => unsubscribeId

def topicId : ClientMessage → String
  | subscribe t => t
  | unsubscribe t => t

def members (m : ClientMessage) : List (String × Value) :=
  [("id", .string m.tag), ("topicId", .string m.topicId)]

def toJson (m : ClientMessage) : String := (Value.object m.members).render

def fields : Fields Value [String] :=
  .cons (.scalar Value.faceOf "topicId" (Face.text "a string")) .nil

def ofTagged (t : Draft.Tagged) : Except Error ClientMessage :=
  if t.variant = subscribeId then
    (fun r => subscribe r.1) <$>
      t.content.record "struct variant WsClientMessage::TopicSubscribe" fields
  else
    (fun r => unsubscribe r.1) <$>
      t.content.record "struct variant WsClientMessage::TopicUnsubscribe" fields

def ofDraft (d : Draft) : Except Error ClientMessage := do
  let t ← d.tagged "WsClientMessage" "id" [subscribeId, unsubscribeId]
  ofTagged t

def ofJson (s : String) : Except Error ClientMessage := readText ofDraft s

end ClientMessage

structure Notice where
  message : String
  deriving DecidableEq, Repr

namespace Notice

def id : String := "cb_server_error"

def members (n : Notice) : List (String × Value) :=
  [("id", .string id), ("message", .string n.message)]

def toJson (n : Notice) : String := (Value.object n.members).render

def fields : Fields Value [String] :=
  .cons (.scalar Value.faceOf "message" (Face.text "a string")) .nil

def ofDraft (d : Draft) : Except Error Notice := do
  let t ← d.tagged "WsServerNotice" "id" [id]
  (fun r => ⟨r.1⟩) <$> t.content.record "struct variant WsServerNotice::Error" fields

def ofJson (s : String) : Except Error Notice := readText ofDraft s

end Notice

inductive Frame
  | event (e : Event)
  | notice (n : Notice)
  deriving DecidableEq

namespace Frame

def idFields : Fields Draft [String] :=
  .cons (.scalar Draft.face "id" (Face.text "a string")) .nil

def readId (s : String) : Except Error String :=
  readText (fun d => (fun r => r.1) <$> d.record "struct Peek" idFields) s

/-- The id alone tells notices from events. -/
def ofJson (s : String) : Except EventError Frame :=
  match readId s with
  | .error e => .error (.json e)
  | .ok id =>
    if id = Notice.id then
      match Notice.ofJson s with
      | .error e => .error (.json e)
      | .ok n => .ok (notice n)
    else event <$> Event.ofJson s

def toJson : Frame → String
  | event e => e.toJson
  | notice n => n.toJson

end Frame

end EventGateway
