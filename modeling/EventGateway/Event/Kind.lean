import EventGateway.Topic

/-! The kinds of event: each has one id and belongs to one topic. -/

namespace EventGateway

inductive Kind
  | configurationChanged
  | taskInfoUpdated
  | sessionExpired
  | sessionState
  | sessionLogUpdated
  deriving DecidableEq, Repr

namespace Kind

def all : List Kind :=
  [configurationChanged, taskInfoUpdated, sessionExpired, sessionState, sessionLogUpdated]

def id : Kind → String
  | configurationChanged => "cb_config_changed"
  | taskInfoUpdated => "cb_session_task_info_updated"
  | sessionExpired => "cb_session_expired"
  | sessionState => "cb_session_state"
  | sessionLogUpdated => "cb_session_log_updated"

def topic : Kind → Topic
  | configurationChanged => .serverConfig
  | taskInfoUpdated => .sessionTask
  | sessionExpired => .session
  | sessionState => .session
  | sessionLogUpdated => .sessionLog

def ofId? (s : String) : Option Kind :=
  all.find? fun k => k.id = s

theorem mem_all (k : Kind) : k ∈ all := by cases k <;> decide

@[simp] theorem ofId?_id (k : Kind) : ofId? k.id = some k := by cases k <;> decide

theorem ofId?_eq_some_iff {s : String} {k : Kind} : ofId? s = some k ↔ s = k.id := by
  constructor
  · intro h
    have := List.find?_some h
    simp_all
  · rintro rfl
    exact ofId?_id k

end Kind

end EventGateway
