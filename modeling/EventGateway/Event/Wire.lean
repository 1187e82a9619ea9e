import EventGateway.Event.Basic

/-! The wire form of an event: one object with the id, the topic, the scope and the payload's
members side by side. -/

namespace EventGateway

open Json

/-- An event as read, before its id and topic are looked up. -/
structure RawEvent where
  id : String
  topic : String
  scope : Scope
  /-- The members left over, each name once and in order of the names. -/
  rest : List (String × Value)

namespace RawEvent

structure Gathered where
  id : Option String := none
  topic : Option String := none
  others : List (String × Value) := []

def readString (d : Draft) : Except Error String := do
  let f ← fromText d.face
  (f.text "a string").mapError .data

def gather (g : Gathered) (m : StringToken × Draft) : Except Error Gathered := do
  let name ← fromText m.1.read
  if name = "id" then
    match g.id with
    | some _ => DataError.throw (.duplicateField "id")
    | none => do
      let s ← readString m.2
      pure { g with id := some s }
  else if name = "topic" then
    match g.topic with
    | some _ => DataError.throw (.duplicateField "topic")
    | none => do
      let s ← readString m.2
      pure { g with topic := some s }
  else do
    let v ← fromText (m.2.value 2)
    pure { g with others := g.others ++ [(name, v)] }

def isScopeName (name : String) : Bool := name = "sessionId" ∨ name = "userId"

/-- Puts a member in its place among members in order of their names; the last of a name stays. -/
def insert (m : String × Value) : List (String × Value) → List (String × Value)
  | [] => [m]
  | x :: r => if m.1 = x.1 then m :: r else if m.1 < x.1 then m :: x :: r else x :: insert m r

def sortedByName (ms : List (String × Value)) : List (String × Value) :=
  ms.foldl (fun r m => insert m r) []

def ofGathered (g : Gathered) : Except Error RawEvent :=
  match g.id, g.topic with
  | none, _ => DataError.throw (.missingField "id")
  | some _, none => DataError.throw (.missingField "topic")
  | some id, some topic => do
    let (scopeMembers, rest) := g.others.partition fun m => isScopeName m.1
    let r ← (Scope.fields Value.faceOf).ofMembers Value.skipMember scopeMembers
    pure ⟨id, topic, Scope.ofRow r, sortedByName rest⟩

def ofDraft : Draft → Except Error RawEvent
  | .object members e => do
    let g ← members.foldlM gather {}
    fromText (e.check (Ending.objectError members.isEmpty))
    ofGathered g
  | d => d.mismatch "struct RawEvent"

end RawEvent

namespace Event

def members (e : Event) : List (String × Value) :=
  ("id", .string e.kind.id) :: ("topic", .string e.topic.name) ::
    (e.scope.members ++ e.payload.members)

def toJson (e : Event) : String := (Value.object e.members).render

def ofRaw (r : RawEvent) : Except EventError Event :=
  match Kind.ofId? r.id with
  | none => .error (.unknownId r.id)
  | some k =>
    match Topic.ofName r.topic with
    | .error e => .error (.invalidTopic e)
    | .ok t =>
      if t ≠ k.topic then .error (.topicMismatch k t)
      else
        match Payload.ofMembers k r.rest with
        | .error e => .error (.json e)
        | .ok p => .ok ⟨r.scope.normalized, p⟩

def ofJson (s : String) : Except EventError Event :=
  match readText RawEvent.ofDraft s with
  | .error e => .error (.json e)
  | .ok r => ofRaw r

/-- An event as a value of a larger text: what is wrong with it is said before what follows, and
without the place, for its payload is no text any more. -/
def ofDraft (d : Draft) : Except Error Event := do
  let r ← RawEvent.ofDraft d
  match ofRaw r with
  | .error e => DataError.throw (.refused (e.message ""))
  | .ok e => pure e

def ofWholeJson (s : String) : Except Error Event := readText ofDraft s

end Event

end EventGateway
