import EventGateway.Client.ServerUrl
import EventGateway.Message

/-! The client's side of an event stream: how it is asked for, and how what arrives is read. -/

namespace EventGateway

inductive ClientError
  | webSocket
  | event (e : EventError)
  | server (message : String)
  | url (f : UrlFault)

namespace ClientError

/-- `position` is what the reader of the text says of where a fault of JSON is. -/
def message (position : String) : ClientError → String
  | webSocket => "websocket error"
  | event e => "event error: " ++ e.message position
  | server m => "server error: " ++ m
  | url f => "invalid url: " ++ f.message

end ClientError

namespace StreamRequest

def pairs (sessionId userId : Option String) : List (String × String) :=
  (sessionId.map ("sessionId", ·)).toList ++ (userId.map ("userId", ·)).toList

/-- The target of a request for a stream. The question mark is there even when no one is named. -/
def target (sessionId userId : Option String) : String :=
  "/ws?" ++ Text.Form.write (pairs sessionId userId)

def ofUrl (url : String) (sessionId userId : Option String) : Except ClientError String :=
  match ServerUrl.ofText url with
  | .error f => .error (.url f)
  | .ok u => if u.hasStreams then .ok (target sessionId userId) else .error .webSocket

end StreamRequest

/-- What the connection yields to the one who reads it. -/
inductive Arrival
  | text (s : String)
  | binary (bytes : List UInt8)
  | ping (bytes : List UInt8)
  | pong (bytes : List UInt8)
  | close
  /-- The connection is gone without a close, or what came breaks its protocol. -/
  | cut

inductive Departure
  | message (m : ClientMessage)
  | close

structure Session where
  arrived : List Arrival
  sent : List Departure
  isOver : Bool

namespace Session

def new : Session := ⟨[], [], false⟩

def arrive (s : Session) (a : Arrival) : Session := { s with arrived := s.arrived ++ [a] }

def send (s : Session) (d : Departure) : Except ClientError Unit × Session :=
  if s.isOver then (.error .webSocket, s) else (.ok (), { s with sent := s.sent ++ [d] })

def subscribe (s : Session) (t : Topic) : Except ClientError Unit × Session :=
  s.send (.message (.subscribe t.name))

def unsubscribe (s : Session) (t : Topic) : Except ClientError Unit × Session :=
  s.send (.message (.unsubscribe t.name))

def close (s : Session) : Except ClientError Unit × Session := s.send .close

inductive Reading (α : Type)
  | some (x : α)
  | failed (e : ClientError)
  | ended
  | waiting

def readFrame (text : String) : Reading Frame :=
  match Frame.ofJson text with
  | .ok f => .some f
  | .error e => .failed (.event e)

/-- The next text, with what is left and whether the stream is over. Only texts are frames. -/
def nextOf : List Arrival → Reading Frame × List Arrival × Bool
  | [] => (.waiting, [], false)
  | .text s :: r => (readFrame s, r, false)
  | .close :: r => (.ended, r, true)
  | .cut :: r => (.failed .webSocket, r, true)
  | .binary _ :: r => nextOf r
  | .ping _ :: r => nextOf r
  | .pong _ :: r => nextOf r

def nextFrame (s : Session) : Reading Frame × Session :=
  if s.isOver then (.ended, s)
  else
    let p := nextOf s.arrived
    (p.1, { s with arrived := p.2.1, isOver := p.2.2 })

def Reading.event : Reading Frame → Reading Event
  | .some (.event e) => .some e
  | .some (.notice n) => .failed (.server n.message)
  | .failed e => .failed e
  | .ended => .ended
  | .waiting => .waiting

def nextEvent (s : Session) : Reading Event × Session :=
  let p := s.nextFrame
  (p.1.event, p.2)

end Session

end EventGateway
