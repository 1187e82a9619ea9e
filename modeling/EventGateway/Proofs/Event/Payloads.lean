import EventGateway.Proofs.Event.Acceptance
import EventGateway.Proofs.Event.RoundTrip

/-! A payload means the same alone and inside of an event. Both readers make of an object what its
members say, so that it does not matter that one of them takes the members straight from the text
and the other sorts their values first. -/

namespace EventGateway

open Json

variable {k : Kind} {p : Payload} {text text' : String} {ms ms' : List (String × Value)}

namespace Payload

/-- A payload that is read from a draft is read from the members of its value. -/
theorem ofDraft_value {depth : Nat} {d : Draft} (h : d.value depth = .ok (.object ms)) :
    ofDraft k d = ofMembers k ms := by
  have hnone (what : String) : d.record what .nil = .ok () := by
    rw [Draft.record_value .nil h]
    exact Fields.ofMembers_nil ms ()
  cases k with
  | configurationChanged | sessionExpired | sessionLogUpdated =>
    rw [ofDraft, hnone]
    rfl
  | taskInfoUpdated =>
    have halike : Draft.AllAlike (taskInfoFields Draft.face) (taskInfoFields Value.faceOf) :=
      .cons (Draft.alike_scalar _ _) (.cons (Draft.alike_lenient _ _)
        (.cons (Draft.alike_scalar _ _) .nil))
    rw [ofDraft, ofMembers, Draft.record_value halike h]
  | sessionState =>
    have halike : Draft.AllAlike (SessionState.fields Draft.face)
        (SessionState.fields Value.faceOf) :=
      .cons (Draft.alike_scalar _ _) (.cons (Draft.alike_scalar _ _)
        (.cons (Draft.alike_scalar _ _) .nil))
    rw [ofDraft, SessionState.ofDraft, ofMembers, Draft.record_value halike h]
    cases (SessionState.fields Value.faceOf).ofMembers Value.skipMember ms <;> rfl

theorem ofJson_ok (hd : Denotes text (.object ms)) :
    ofJson k text = .ok p ↔ ofMembers k ms = .ok p := by
  obtain ⟨d, hvalue, hread⟩ := readText_denoted hd
  rw [ofJson, hread, ofDraft_value hvalue]

theorem denotes_toJson (p : Payload) : Denotes p.toJson (.object p.members) :=
  denotes_object fun m hm => (p.plain_members m hm).1

end Payload

namespace Event

/-- The names that say where an event goes, and nothing of its payload. -/
def routeNames : List String := ["id", "topic", "sessionId", "userId"]

theorem isRest_iff {name : String} : RawEvent.isRest name = true ↔ name ∉ routeNames := by
  simp [RawEvent.isRest, RawEvent.isOther, RawEvent.isScopeName, routeNames, and_assoc]

/-- The members of an event before those of its payload. -/
def route (e : Event) : List (String × Value) :=
  ("id", .string e.kind.id) :: ("topic", .string e.topic.name) :: e.scope.members

theorem members_eq (e : Event) : e.members = e.route ++ e.payload.members := rfl

theorem route_names (e : Event) : ∀ m ∈ e.route, m.1 ∈ routeNames := by
  intro m hm
  rcases List.mem_cons.mp hm with rfl | hm
  · simp [routeNames]
  rcases List.mem_cons.mp hm with rfl | hm
  · simp [routeNames]
  · obtain ⟨_, hscope, _⟩ := e.scope.plain_members m hm
    refine Classical.not_not.mp fun hnot => ?_
    simpa [RawEvent.isRest, hscope] using isRest_iff.mpr hnot

theorem payload_names (p : Payload) : ∀ m ∈ p.members, m.1 ∉ routeNames := by
  intro m hm
  obtain ⟨_, hscope, hid, htopic⟩ := p.plain_members m hm
  exact isRest_iff.mp (by simp [RawEvent.isRest, RawEvent.isOther, hscope, hid, htopic])

theorem routed_extended (hroute : ∀ m ∈ ms, m.1 ∉ routeNames)
    (hp : ms'.Perm (("id", .string k.id) :: ("topic", .string k.topic.name) :: ms)) :
    RawEvent.Routed ms' k.id k.topic.name none none := by
  have hnone {name : String} (hname : name ∈ routeNames) : valuesOf name ms = [] :=
    valuesOf_eq_nil fun m hm heq => hroute m hm (heq ▸ hname)
  have hscope {name : String} (hname : name ∈ routeNames) (hid : "id" ≠ name)
      (htopic : "topic" ≠ name) : valuesOf name ms' = [] := by
    have hperm := valuesOf_perm hp name
    rwa [valuesOf_cons_other hid, valuesOf_cons_other htopic, hnone hname, List.perm_nil] at hperm
  have hid := valuesOf_perm hp "id"
  have htopic := valuesOf_perm hp "topic"
  rw [valuesOf_cons_same, valuesOf_cons_other (by decide), hnone (by decide),
    List.perm_singleton] at hid
  rw [valuesOf_cons_other (by decide), valuesOf_cons_same, hnone (by decide),
    List.perm_singleton] at htopic
  exact ⟨hid, htopic, .inl ⟨.inl (hscope (by decide) (by decide) (by decide)), rfl⟩,
    .inl ⟨.inl (hscope (by decide) (by decide) (by decide)), rfl⟩⟩

theorem rest_extended (hroute : ∀ m ∈ ms, m.1 ∉ routeNames)
    (hp : ms'.Perm (("id", .string k.id) :: ("topic", .string k.topic.name) :: ms)) :
    (ms'.filter fun m => RawEvent.isRest m.1).Perm ms := by
  have hkept : (ms.filter fun m => RawEvent.isRest m.1) = ms :=
    List.filter_eq_self.mpr fun m hm => isRest_iff.mpr (hroute m hm)
  have hperm := hp.filter fun m => RawEvent.isRest m.1
  rwa [List.filter_cons_of_neg (by simp [isRest_iff, routeNames]),
    List.filter_cons_of_neg (by simp [isRest_iff, routeNames]), hkept] at hperm

/-- An event for everyone is read from the members of its payload, with those of its route put
anywhere among them. -/
theorem ofJson_extended (hnd : (ms.map Prod.fst).Nodup) (hroute : ∀ m ∈ ms, m.1 ∉ routeNames)
    (hp : ms'.Perm (("id", .string k.id) :: ("topic", .string k.topic.name) :: ms))
    (hd : Denotes text' (.object ms')) {e : Event} :
    ofJson text' = .ok e ↔ ∃ p, Payload.ofMembers k ms = .ok p ∧ e = new p := by
  have hrest := rest_extended hroute hp
  have hndrest : ((ms'.filter fun m => RawEvent.isRest m.1).map Prod.fst).Nodup :=
    (hrest.map Prod.fst).nodup_iff.mpr hnd
  have hsorted := (RawEvent.sortedByName_perm hndrest).trans hrest
  have hndsorted := (hsorted.map Prod.fst).nodup_iff.mpr hnd
  rw [ofJson_routed hd (routed_extended hroute hp), ofRaw_matched rfl rfl, mapError_ok, map_ok]
  constructor
  · rintro ⟨p, hread, rfl⟩
    exact ⟨p, Payload.ofMembers_of_perm hsorted hndsorted hread, rfl⟩
  · rintro ⟨p, hread, rfl⟩
    exact ⟨p, Payload.ofMembers_of_perm hsorted.symm hnd hread, rfl⟩

theorem denotes_toJson (e : Event) : Denotes e.toJson (.object e.members) :=
  denotes_object e.plain_members

/-- An object is read as a payload exactly when it is read as an event with the id and the topic of
that payload put anywhere in it, and the payload is the same. What is written for a payload stands in
the event behind the members of the route, and has none of their names. -/
theorem payload_alone_or_within :
    (∀ (k : Kind) ms ms' text text', (ms.map Prod.fst).Nodup → (∀ m ∈ ms, m.1 ∉ routeNames) →
      ms'.Perm (("id", .string k.id) :: ("topic", .string k.topic.name) :: ms) →
      Denotes text (.object ms) → Denotes text' (.object ms') →
        ((∃ p, Payload.ofJson k text = .ok p) ↔ ∃ e, ofJson text' = .ok e) ∧
        ∀ p e, Payload.ofJson k text = .ok p → ofJson text' = .ok e → e = new p) ∧
    ∀ e : Event, ∃ route ms, Denotes e.payload.toJson (.object ms) ∧
      Denotes e.toJson (.object (route ++ ms)) ∧ (∀ m ∈ route, m.1 ∈ routeNames) ∧
        ∀ m ∈ ms, m.1 ∉ routeNames := by
  refine ⟨fun k ms ms' text text' hnd hroute hp hd hd' => ?_, fun e => ?_⟩
  · simp only [ofJson_extended hnd hroute hp hd', Payload.ofJson_ok hd]
    refine ⟨⟨fun ⟨p, hread⟩ => ⟨_, p, hread, rfl⟩, fun ⟨_, p, hread, _⟩ => ⟨p, hread⟩⟩, ?_⟩
    rintro p e hread ⟨p', hread', rfl⟩
    rw [Except.ok.inj (hread.symm.trans hread')]
  · exact ⟨e.route, e.payload.members, e.payload.denotes_toJson, e.denotes_toJson, e.route_names,
      payload_names e.payload⟩

theorem payload_alone_or_within_finished :
    let ms := [("running", Value.bool false), ("spent", .int 5), ("taskId", .string "T1")]
    let ms' := [("topic", .string "cb_session_task"), ("running", Value.bool false)] ++
      ("id", .string "cb_session_task_info_updated") :: [("spent", .int 5), ("taskId", .string "T1")]
    let p := Payload.taskInfo ⟨"T1", none, false, by decide⟩
    Payload.ofJson .taskInfoUpdated (Value.object ms).render = .ok p ∧
      ofJson (Value.object ms').render = .ok (new p) := by
  intro ms ms' p
  have hread : Payload.ofJson .taskInfoUpdated (Value.object ms).render = .ok p :=
    toOption_ok.mp (by decide +kernel)
  obtain ⟨hiff, hsame⟩ := payload_alone_or_within.1 .taskInfoUpdated ms ms' _ _ (by decide)
    (by decide) List.perm_middle (denotes_object (by simp [ms, Value.plain_int]))
    (denotes_object (by simp [ms', Value.plain_int]))
  obtain ⟨e, he⟩ := hiff.mp ⟨p, hread⟩
  exact ⟨hread, hsame p e hread he ▸ he⟩

end Event

end EventGateway
