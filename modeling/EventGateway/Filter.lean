import EventGateway.Event.Basic

/-! Who may receive an event: each id that the filter names must be the listener's own. -/

namespace EventGateway

/-- On an event the ids narrow whom it reaches, on a subscription they say who listens. -/
structure Filter where
  sessionId : Option String := none
  userId : Option String := none
  deriving DecidableEq, Repr

namespace Filter

def ofEvent (e : Event) : Filter := ⟨e.scope.sessionId, e.scope.userId⟩

def agrees (wanted actual : Option String) : Bool := wanted.isNone || actual == wanted

def admits (f listener : Filter) : Bool :=
  agrees f.sessionId listener.sessionId && agrees f.userId listener.userId

theorem agrees_iff {wanted actual : Option String} :
    agrees wanted actual = true ↔ ∀ x, wanted = some x → actual = some x := by
  cases wanted <;> simp [agrees]

end Filter

end EventGateway
