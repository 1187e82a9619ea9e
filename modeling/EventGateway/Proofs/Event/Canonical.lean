import EventGateway.Proofs.Event.Payloads

/-! The wire form of an event is canonical. Its members are told apart by their names, stand in one
order and are never null, so that the text of an event is the text of no other. -/

namespace EventGateway

open Json

/-- The name of a member that is left out when there is nothing to be said. -/
def nameIfAny (name : String) (s : Option String) : List String := if s.isSome then [name] else []

theorem names_optionalMember (name : String) (s : Option String) :
    (Value.optionalMember name s).map Prod.fst = nameIfAny name s := by cases s <;> rfl

theorem nameIfAny_sublist (name : String) (s : Option String) :
    (nameIfAny name s).Sublist [name] := by
  cases s with
  | none => exact List.nil_sublist _
  | some s => exact .refl _

theorem valuesOf_optionalMember (name : String) (s : Option String) :
    valuesOf name (Value.optionalMember name s) = RawEvent.slot s := by
  cases s with
  | none => rfl
  | some s => exact valuesOf_cons_same name (.string s) []

theorem valuesOf_optionalMember_other {name other : String} (h : other ≠ name)
    (s : Option String) : valuesOf name (Value.optionalMember other s) = [] := by
  cases s with
  | none => rfl
  | some s => exact valuesOf_cons_other h (.string s) []

theorem Scope.valuesOf_other {name : String} (hsession : "sessionId" ≠ name) (huser : "userId" ≠ name)
    (s : Scope) : valuesOf name s.members = [] := by
  rw [Scope.members, valuesOf_append, valuesOf_optionalMember_other hsession,
    valuesOf_optionalMember_other huser, List.append_nil]

namespace Payload

def names : Payload → List String
  | taskInfo t => "taskId" :: (nameIfAny "statusName" t.statusName ++ ["running"])
  | sessionState _ => ["lastAccessTime", "remainingTime", "isValid"]
  | configurationChanged | sessionExpired | sessionLogUpdated => []

/-- Each part of the payload has its member, and a status without a name has none. -/
def SaidBy (ms : List (String × Value)) : Payload → Prop
  | taskInfo t =>
    valuesOf "taskId" ms = [.string t.taskId] ∧
      valuesOf "statusName" ms = RawEvent.slot t.statusName ∧
      valuesOf "running" ms = [.bool t.running]
  | sessionState s =>
    valuesOf "lastAccessTime" ms = [.number (.int s.lastAccessTime.toInt)] ∧
      valuesOf "remainingTime" ms = [.number (.int s.remainingTime.toInt)] ∧
      valuesOf "isValid" ms = [.bool s.isValid]
  | configurationChanged | sessionExpired | sessionLogUpdated => True

variable {p q : Payload} {ms ms' : List (String × Value)}

theorem names_members (p : Payload) : p.members.map Prod.fst = p.names := by
  cases p with
  | taskInfo t => simp [members, names, names_optionalMember]
  | sessionState s => rfl
  | configurationChanged | sessionExpired | sessionLogUpdated => rfl

theorem names_sublist (p : Payload) : p.names.Sublist memberNames := by
  cases p with
  | taskInfo t =>
    have hstatus := ((nameIfAny_sublist "statusName" t.statusName).append_right ["running"]).cons_cons
      "taskId"
    exact hstatus.trans (List.sublist_append_left _ _)
  | sessionState s => exact List.sublist_append_right ["taskId", "statusName", "running"] _
  | configurationChanged | sessionExpired | sessionLogUpdated => exact List.nil_sublist _

theorem SaidBy.unique (hp : p.SaidBy ms) (hq : q.SaidBy ms) (hkind : p.kind = q.kind) : p = q := by
  cases p <;> cases q <;> cases hkind
  case configurationChanged | sessionExpired | sessionLogUpdated => rfl
  case taskInfo t u =>
    obtain ⟨id, status, running, _⟩ := t
    obtain ⟨id', status', running', _⟩ := u
    obtain ⟨hid, hstatus, hrunning⟩ := hp
    obtain ⟨hid', hstatus', hrunning'⟩ := hq
    obtain rfl : id = id' := by simpa using hid.symm.trans hid'
    obtain rfl : status = status' := RawEvent.slot_inj (hstatus.symm.trans hstatus')
    obtain rfl : running = running' := by simpa using hrunning.symm.trans hrunning'
    rfl
  case sessionState s t =>
    obtain ⟨last, remaining, valid⟩ := s
    obtain ⟨last', remaining', valid'⟩ := t
    obtain ⟨hlast, hremaining, hvalid⟩ := hp
    obtain ⟨hlast', hremaining', hvalid'⟩ := hq
    obtain rfl : last = last' := Int64.toInt_inj.mp (by simpa using hlast.symm.trans hlast')
    obtain rfl : remaining = remaining' :=
      Int64.toInt_inj.mp (by simpa using hremaining.symm.trans hremaining')
    obtain rfl : valid = valid' := by simpa using hvalid.symm.trans hvalid'
    rfl

end Payload

namespace Event

variable {e e' : Event} {ms : List (String × Value)}

/-- A value that holds no others and is not null. -/
inductive Said : Value → Prop
  | string (s : String) : Said (.string s)
  | int (n : Int) : Said (.number (.int n))
  | bool (b : Bool) : Said (.bool b)

/-- The members are those of the event: in their order, each once, none null and none left out but
for what there is not. -/
structure SpeltBy (e : Event) (ms : List (String × Value)) : Prop where
  names_eq : ms.map Prod.fst = "id" :: "topic" :: (nameIfAny "sessionId" e.scope.sessionId ++
    (nameIfAny "userId" e.scope.userId ++ e.payload.names))
  nodup : (ms.map Prod.fst).Nodup
  said : ∀ m ∈ ms, Said m.2
  id_eq : valuesOf "id" ms = [.string e.kind.id]
  topic_eq : valuesOf "topic" ms = [.string e.topic.name]
  session_eq : valuesOf "sessionId" ms = RawEvent.slot e.scope.sessionId
  user_eq : valuesOf "userId" ms = RawEvent.slot e.scope.userId
  payload : e.payload.SaidBy ms

theorem names_members (e : Event) : e.members.map Prod.fst =
    "id" :: "topic" :: (nameIfAny "sessionId" e.scope.sessionId ++
      (nameIfAny "userId" e.scope.userId ++ e.payload.names)) := by
  simp [members, Scope.members, names_optionalMember, Payload.names_members]

/-- Every event has some of the names that there are, in one order. -/
theorem names_sublist (e : Event) : (e.members.map Prod.fst).Sublist memberNames := by
  have hscope := (nameIfAny_sublist "sessionId" e.scope.sessionId).append
    ((nameIfAny_sublist "userId" e.scope.userId).append e.payload.names_sublist)
  rw [names_members]
  exact (hscope.cons_cons "topic").cons_cons "id"

theorem nodup_members (e : Event) : (e.members.map Prod.fst).Nodup :=
  (show memberNames.Nodup by decide).sublist e.names_sublist

theorem said_optionalMember (name : String) (s : Option String) :
    ∀ m ∈ Value.optionalMember name s, Said m.2 := by
  cases s with
  | none => nofun
  | some s => exact List.forall_mem_singleton.mpr (.string s)

theorem said_payload (p : Payload) : ∀ m ∈ p.members, Said m.2 := by
  cases p with
  | taskInfo t =>
    refine List.forall_mem_cons.mpr ⟨.string _, List.forall_mem_append.mpr ⟨?_, ?_⟩⟩
    · exact said_optionalMember "statusName" t.statusName
    · exact List.forall_mem_singleton.mpr (.bool _)
  | sessionState s =>
    exact List.forall_mem_cons.mpr ⟨.int _, List.forall_mem_cons.mpr ⟨.int _,
      List.forall_mem_singleton.mpr (.bool _)⟩⟩
  | configurationChanged | sessionExpired | sessionLogUpdated => nofun

theorem said_members (e : Event) : ∀ m ∈ e.members, Said m.2 := by
  have hscope := List.forall_mem_append.mpr
    ⟨said_optionalMember "sessionId" e.scope.sessionId, said_optionalMember "userId" e.scope.userId⟩
  exact List.forall_mem_cons.mpr ⟨.string _, List.forall_mem_cons.mpr ⟨.string _,
    List.forall_mem_append.mpr ⟨hscope, said_payload e.payload⟩⟩⟩

theorem valuesOf_route {name : String} (hname : name ∈ routeNames) (e : Event) :
    valuesOf name e.members = valuesOf name e.route := by
  have hnone : valuesOf name e.payload.members = [] :=
    valuesOf_eq_nil fun m hm heq => payload_names e.payload m hm (heq ▸ hname)
  rw [members_eq, valuesOf_append, hnone, List.append_nil]

theorem valuesOf_payload {name : String} (hname : name ∉ routeNames) (e : Event) :
    valuesOf name e.members = valuesOf name e.payload.members := by
  have hnone : valuesOf name e.route = [] :=
    valuesOf_eq_nil fun m hm heq => hname (heq ▸ e.route_names m hm)
  rw [members_eq, valuesOf_append, hnone, List.nil_append]

theorem saidBy_members (e : Event) : e.payload.SaidBy e.members := by
  have hpayload {name : String} (hname : name ∉ routeNames) := valuesOf_payload hname e
  cases hp : e.payload with
  | taskInfo t =>
    rw [hp] at hpayload
    refine ⟨?_, ?_, ?_⟩
    · rw [hpayload (by decide), Payload.members, valuesOf_cons_same, valuesOf_append,
        valuesOf_optionalMember_other (by decide), valuesOf_cons_other (by decide)]
      rfl
    · rw [hpayload (by decide), Payload.members, valuesOf_cons_other (by decide), valuesOf_append,
        valuesOf_optionalMember, valuesOf_cons_other (by decide)]
      exact List.append_nil _
    · rw [hpayload (by decide), Payload.members, valuesOf_cons_other (by decide), valuesOf_append,
        valuesOf_optionalMember_other (by decide), valuesOf_cons_same]
      rfl
  | sessionState s =>
    rw [hp] at hpayload
    exact ⟨hpayload (by decide), hpayload (by decide), hpayload (by decide)⟩
  | configurationChanged | sessionExpired | sessionLogUpdated => trivial

theorem speltBy_members (e : Event) : e.SpeltBy e.members where
  names_eq := e.names_members
  nodup := e.nodup_members
  said := e.said_members
  id_eq := by
    rw [valuesOf_route (by decide), route, valuesOf_cons_same, valuesOf_cons_other (by decide),
      Scope.valuesOf_other (by decide) (by decide)]
  topic_eq := by
    rw [valuesOf_route (by decide), route, valuesOf_cons_other (by decide), valuesOf_cons_same,
      Scope.valuesOf_other (by decide) (by decide)]
  session_eq := by
    rw [valuesOf_route (by decide), route, valuesOf_cons_other (by decide),
      valuesOf_cons_other (by decide), Scope.members, valuesOf_append, valuesOf_optionalMember,
      valuesOf_optionalMember_other (by decide), List.append_nil]
  user_eq := by
    rw [valuesOf_route (by decide), route, valuesOf_cons_other (by decide),
      valuesOf_cons_other (by decide), Scope.members, valuesOf_append, valuesOf_optionalMember,
      valuesOf_optionalMember_other (by decide), List.nil_append]
  payload := e.saidBy_members

/-- The members of one event are those of no other. -/
theorem SpeltBy.unique (h : e.SpeltBy ms) (h' : e'.SpeltBy ms) : e = e' := by
  obtain ⟨⟨session, user⟩, p⟩ := e
  obtain ⟨⟨session', user'⟩, p'⟩ := e'
  have hid : p.kind.id = p'.kind.id := by simpa [kind] using h.id_eq.symm.trans h'.id_eq
  have hkind : p.kind = p'.kind := Option.some.inj <|
    (Kind.ofId?_id p.kind).symm.trans ((congrArg Kind.ofId? hid).trans (Kind.ofId?_id p'.kind))
  obtain rfl : session = session' := RawEvent.slot_inj (h.session_eq.symm.trans h'.session_eq)
  obtain rfl : user = user' := RawEvent.slot_inj (h.user_eq.symm.trans h'.user_eq)
  obtain rfl : p = p' := h.payload.unique h'.payload hkind
  rfl

/-- The text of an event is one object, and what any reader of JSON finds in it are the members of
the event. Two events have one text exactly when they agree in kind, scope and payload. -/
theorem wire_canonical :
    (∀ e : Event, ∃ ms, Denotes e.toJson (.object ms) ∧
      readText (fun d => fromText (d.value 1)) e.toJson = .ok (.object ms) ∧ e.SpeltBy ms) ∧
    ∀ e e' : Event, e.toJson = e'.toJson ↔
      e.kind = e'.kind ∧ e.scope = e'.scope ∧ e.payload = e'.payload := by
  refine ⟨fun e => ?_, fun e e' => ⟨fun htext => ?_, ?_⟩⟩
  · obtain ⟨d, hvalue, hread⟩ := readText_denoted e.denotes_toJson
    refine ⟨e.members, e.denotes_toJson, hread.mpr ?_, e.speltBy_members⟩
    rw [hvalue]
    rfl
  · have hmembers : e.members = e'.members :=
      Value.object.inj (e.denotes_toJson.unique (htext ▸ e'.denotes_toJson))
    obtain rfl : e = e' := e.speltBy_members.unique (hmembers ▸ e'.speltBy_members)
    exact ⟨rfl, rfl, rfl⟩
  · rintro ⟨-, hscope, hpayload⟩
    obtain ⟨scope, payload⟩ := e
    obtain rfl : scope = e'.scope := hscope
    obtain rfl : payload = e'.payload := hpayload
    rfl

end Event

end EventGateway
