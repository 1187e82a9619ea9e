import EventGateway.Json.Record
import EventGateway.Json.Writer

/-! Whom an event concerns: a session, a user, both, or everyone on its topic. -/

namespace EventGateway

structure Scope where
  sessionId : Option String
  userId : Option String
  deriving DecidableEq, Repr

/-- An empty text counts as none. -/
def nonEmpty? (s : Option String) : Option String := s.filter fun s => s ≠ ""

theorem nonEmpty?_eq_self {s : Option String} : nonEmpty? s = s ↔ s ≠ some "" := by
  cases s <;> simp [nonEmpty?, Option.filter]

namespace Scope

def broadcast : Scope := ⟨none, none⟩

def of (sessionId userId : Option String) : Scope := ⟨nonEmpty? sessionId, nonEmpty? userId⟩

def isBroadcast (s : Scope) : Bool := s.sessionId.isNone && s.userId.isNone

def normalized (s : Scope) : Scope := of s.sessionId s.userId

open Json

def members (s : Scope) : List (String × Value) :=
  Value.optionalMember "sessionId" s.sessionId ++ Value.optionalMember "userId" s.userId

def toJson (s : Scope) : String := (Value.object s.members).render

def fields {δ : Type} (face : δ → Except SyntaxError Face) :
    Fields δ [Option String, Option String] :=
  .cons (.optional face "sessionId" (Face.text "a string"))
    (.cons (.optional face "userId" (Face.text "a string")) .nil)

def ofRow (r : Row [Option String, Option String]) : Scope := ⟨r.1, r.2.1⟩

/-- A scope that is read keeps its empty texts. -/
def ofDraft (d : Draft) : Except Error Scope :=
  ofRow <$> d.record "struct EventScope" (fields Draft.face)

def ofJson (s : String) : Except Error Scope := readText ofDraft s

end Scope

end EventGateway
