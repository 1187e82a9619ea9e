/-! The topics events are published to, and their names. -/

namespace EventGateway

inductive Topic
  | serverConfig
  | session
  | sessionLog
  | sessionTask
  deriving DecidableEq, Repr

namespace Topic

def all : List Topic := [serverConfig, session, sessionLog, sessionTask]

def name : Topic → String
  | serverConfig => "cb_config"
  | session => "cb_session"
  | sessionLog => "cb_session_log"
  | sessionTask => "cb_session_task"

def ofName? (s : String) : Option Topic :=
  all.find? fun t => t.name = s

theorem mem_all (t : Topic) : t ∈ all := by cases t <;> decide

theorem name_injective {s t : Topic} (h : s.name = t.name) : s = t := by
  cases s <;> cases t <;> first | rfl | exact absurd h (by decide)

@[simp] theorem ofName?_name (t : Topic) : ofName? t.name = some t := by cases t <;> decide

theorem ofName?_eq_some_iff {s : String} {t : Topic} : ofName? s = some t ↔ s = t.name := by
  constructor
  · intro h
    have := List.find?_some h
    simp_all
  · rintro rfl
    exact ofName?_name t

end Topic

/-- The name names no topic, or none that is enabled. -/
structure InvalidTopic where
  name : String
  deriving DecidableEq, Repr

namespace InvalidTopic

def message (e : InvalidTopic) : String := "invalid topic: " ++ e.name

end InvalidTopic

def Topic.ofName (s : String) : Except InvalidTopic Topic :=
  match Topic.ofName? s with
  | some t => .ok t
  | none => .error ⟨s⟩

namespace Topic

theorem ofName_ok {s : String} {t : Topic} : ofName s = .ok t ↔ t.name = s := by
  unfold ofName
  cases h : ofName? s with
  | none =>
    refine iff_of_false nofun fun hs => ?_
    rw [ofName?_eq_some_iff.mpr hs.symm] at h
    exact nomatch h
  | some u =>
    obtain rfl := ofName?_eq_some_iff.mp h
    exact ⟨fun hu => congrArg name (Except.ok.inj hu).symm,
      fun hs => congrArg Except.ok (name_injective hs).symm⟩

theorem ofName_error {s : String} {e : InvalidTopic} :
    ofName s = .error e ↔ e.name = s ∧ ∀ t, Topic.name t ≠ s := by
  cases h : ofName s with
  | ok t => exact iff_of_false nofun fun ⟨_, hno⟩ => hno t (ofName_ok.mp h)
  | error e' =>
    have hno : ∀ t, Topic.name t ≠ s := fun t hs => nomatch h.symm.trans (ofName_ok.mpr hs)
    have hname : e' = ⟨s⟩ := by
      unfold ofName at h
      split at h
      · exact nomatch h
      · exact (Except.error.inj h).symm
    obtain ⟨m⟩ := e
    simp [hname, hno, eq_comm]

end Topic

end EventGateway
