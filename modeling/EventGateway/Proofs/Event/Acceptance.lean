import EventGateway.Proofs.Event.Raw

/-! Which texts are events: a grammar of the members, and the first thing that is wrong with a text
that is none. -/

namespace EventGateway

open Json

namespace Payload

/-- What the members say of an event beyond its route; the last of a name counts. -/
def CarriedBy (ms : List (String × Value)) : Payload → Prop
  | taskInfo t =>
    lastOf "taskId" ms = [.string t.taskId] ∧ Fields.MaybeText (lastOf "statusName" ms) t.statusName ∧
      lastOf "running" ms = [.bool t.running]
  | sessionState s =>
    lastOf "lastAccessTime" ms = [.number (.int s.lastAccessTime.toInt)] ∧
      lastOf "remainingTime" ms = [.number (.int s.remainingTime.toInt)] ∧
      lastOf "isValid" ms = [.bool s.isValid]
  | configurationChanged | sessionExpired | sessionLogUpdated => True

def memberNames : List String :=
  ["taskId", "statusName", "running", "lastAccessTime", "remainingTime", "isValid"]

variable {ms ms' : List (String × Value)}

theorem CarriedBy.congr {p : Payload} (h : p.CarriedBy ms)
    (hsame : ∀ name ∈ memberNames, valuesOf name ms = valuesOf name ms') : p.CarriedBy ms' := by
  have hlast (name : String) (hname : name ∈ memberNames) :
      lastOf name ms = lastOf name ms' := by rw [lastOf, hsame name hname, lastOf]
  cases p with
  | configurationChanged | sessionExpired | sessionLogUpdated => trivial
  | taskInfo t =>
    rw [CarriedBy] at h ⊢
    rwa [← hlast _ (by decide), ← hlast _ (by decide), ← hlast _ (by decide)]
  | sessionState s =>
    rw [CarriedBy] at h ⊢
    rwa [← hlast _ (by decide), ← hlast _ (by decide), ← hlast _ (by decide)]

theorem taskInfoFields_ok {r : Row [String, Option String, Bool]} :
    (taskInfoFields Value.faceOf).ofMembers Value.skipMember ms = .ok r ↔
      valuesOf "taskId" ms = [.string r.1] ∧ Fields.MaybeText (valuesOf "statusName" ms) r.2.1 ∧
        valuesOf "running" ms = [.bool r.2.2.1] := by
  have hstatus : valuesOf "statusName" (without "taskId" ms) = valuesOf "statusName" ms :=
    valuesOf_without (by decide) ms
  have hrunning : valuesOf "running" (without "statusName" (without "taskId" ms)) =
      valuesOf "running" ms := by
    rw [valuesOf_without (by decide), valuesOf_without (by decide)]
  rw [taskInfoFields, Fields.ofMembers_cons_ok, Fields.ofMembers_cons_ok, Fields.ofMembers_last_ok,
    Fields.reads_text, Fields.reads_lenient, Fields.reads_flag]
  simp only [Field.lenient, Field.optional, Field.scalar, hstatus, hrunning]

theorem sessionStateFields_ok {r : Row [Int64, Int64, Bool]} :
    (SessionState.fields Value.faceOf).ofMembers Value.skipMember ms = .ok r ↔
      valuesOf "lastAccessTime" ms = [.number (.int r.1.toInt)] ∧
        valuesOf "remainingTime" ms = [.number (.int r.2.1.toInt)] ∧
        valuesOf "isValid" ms = [.bool r.2.2.1] := by
  have hremaining : valuesOf "remainingTime" (without "lastAccessTime" ms) =
      valuesOf "remainingTime" ms := valuesOf_without (by decide) ms
  have hvalid : valuesOf "isValid" (without "remainingTime" (without "lastAccessTime" ms)) =
      valuesOf "isValid" ms := by
    rw [valuesOf_without (by decide), valuesOf_without (by decide)]
  rw [SessionState.fields, Fields.ofMembers_cons_ok, Fields.ofMembers_cons_ok,
    Fields.ofMembers_last_ok, Fields.reads_int64, Fields.reads_int64, Fields.reads_flag]
  simp only [Field.scalar, hremaining, hvalid]

theorem ofTaskRow_ok {r : Row [String, Option String, Bool]} {p : Payload} :
    ofTaskRow r = .ok p ↔ ∃ t, p = taskInfo t ∧
      t.taskId = r.1 ∧ t.statusName = r.2.1 ∧ t.running = r.2.2.1 := by
  constructor
  · intro h
    rw [ofTaskRow, TaskInfo.of?] at h
    by_cases hempty : r.1 = ""
    · rw [dif_pos hempty] at h
      exact nomatch h
    · rw [dif_neg hempty] at h
      exact ⟨_, (Except.ok.inj h).symm, rfl, rfl, rfl⟩
  · rintro ⟨t, rfl, hid, hstatus, hrunning⟩
    rw [ofTaskRow, ← hid, ← hstatus, ← hrunning, TaskInfo.of?, dif_neg t.taskId_ne]

theorem ofMembers_ok {k : Kind} {p : Payload} :
    Payload.ofMembers k (RawEvent.sortedByName (ms.filter fun m => RawEvent.isRest m.1)) = .ok p ↔
      p.kind = k ∧ p.CarriedBy ms := by
  have hlast {name : String} (hname : RawEvent.isRest name = true) :=
    RawEvent.lastOf_rest hname ms
  cases k with
  | configurationChanged | sessionExpired | sessionLogUpdated =>
    constructor
    · intro h
      obtain rfl := Except.ok.inj h
      exact ⟨rfl, trivial⟩
    · rintro ⟨hk, _⟩
      cases p <;> cases hk
      rfl
  | taskInfoUpdated =>
    rw [Payload.ofMembers, bind_ok]
    simp only [taskInfoFields_ok, ofTaskRow_ok]
    rw [hlast (by decide), hlast (by decide), hlast (by decide)]
    constructor
    · rintro ⟨r, ⟨hid, hstatus, hrunning⟩, t, rfl, ht, hs, hr⟩
      refine ⟨rfl, ?_, ?_, ?_⟩
      · rw [ht, hid]
      · rwa [hs]
      · rw [hr, hrunning]
    · rintro ⟨hk, hcarried⟩
      cases p with
      | taskInfo t => exact ⟨(t.taskId, t.statusName, t.running, ()), hcarried, t, rfl, rfl, rfl, rfl⟩
      | configurationChanged | sessionExpired | sessionLogUpdated | sessionState _ =>
        exact nomatch hk
  | sessionState =>
    rw [Payload.ofMembers, fmap_ok]
    simp only [sessionStateFields_ok]
    rw [hlast (by decide), hlast (by decide), hlast (by decide)]
    constructor
    · rintro ⟨r, hcarried, rfl⟩
      exact ⟨rfl, hcarried⟩
    · rintro ⟨hk, hcarried⟩
      cases p with
      | sessionState s =>
        exact ⟨(s.lastAccessTime, s.remainingTime, s.isValid, ()), hcarried, rfl⟩
      | configurationChanged | sessionExpired | sessionLogUpdated | taskInfo _ => exact nomatch hk

end Payload

namespace Event

theorem readRaw_ok {text : String} {r : RawEvent} :
    readText RawEvent.ofDraft text = .ok r ↔ ∃ ms, Denotes text (.object ms) ∧
      RawEvent.Routed ms r.id r.topic r.scope.sessionId r.scope.userId ∧
        r.rest = RawEvent.sortedByName (ms.filter fun m => RawEvent.isRest m.1) := by
  simp only [readText_ok, RawEvent.ofDraft_ok, Draft.denotes_iff]
  constructor
  · rintro ⟨d, hd, ms, hvalue, hr⟩
    exact ⟨ms, ⟨d, hd, hvalue⟩, hr⟩
  · rintro ⟨ms, ⟨d, hd, hvalue⟩, hr⟩
    exact ⟨d, hd, ms, hvalue, hr⟩

variable {text text' : String} {ms ms' : List (String × Value)} {id topic : String}
  {session user : Option String}

theorem ofJson_routed (hd : Denotes text (.object ms))
    (hr : RawEvent.Routed ms id topic session user) :
    ofJson text = ofRaw ⟨id, topic, ⟨session, user⟩,
      RawEvent.sortedByName (ms.filter fun m => RawEvent.isRest m.1)⟩ := by
  have hraw : readText RawEvent.ofDraft text = .ok ⟨id, topic, ⟨session, user⟩,
      RawEvent.sortedByName (ms.filter fun m => RawEvent.isRest m.1)⟩ :=
    readRaw_ok.mpr ⟨ms, hd, hr, rfl⟩
  rw [ofJson, hraw]

theorem ofJson_unrouted (h : ¬ ∃ ms id topic session user, Denotes text (.object ms) ∧
    RawEvent.Routed ms id topic session user) : ∃ x, ofJson text = .error (.json x) := by
  cases hraw : readText RawEvent.ofDraft text with
  | error x => exact ⟨x, by rw [ofJson, hraw]⟩
  | ok r =>
    obtain ⟨ms, hd, hr, _⟩ := readRaw_ok.mp hraw
    exact absurd ⟨ms, _, _, _, _, hd, hr⟩ h

theorem ofRaw_unknownId {r : RawEvent} (h : ∀ k : Kind, k.id ≠ r.id) :
    ofRaw r = .error (.unknownId r.id) := by
  have hnone : Kind.ofId? r.id = none := by
    cases hk : Kind.ofId? r.id with
    | none => rfl
    | some k => exact absurd (Kind.ofId?_eq_some_iff.mp hk).symm (h k)
  rw [ofRaw, hnone]

variable {k : Kind} {r : RawEvent}

theorem ofRaw_invalidTopic (hk : k.id = r.id) (h : ∀ t : Topic, t.name ≠ r.topic) :
    ofRaw r = .error (.invalidTopic ⟨r.topic⟩) := by
  have hnone : Topic.ofName r.topic = .error ⟨r.topic⟩ := by
    rw [Topic.ofName]
    cases ht : Topic.ofName? r.topic with
    | none => rfl
    | some t => exact absurd (Topic.ofName?_eq_some_iff.mp ht).symm (h t)
  rw [ofRaw, ← hk, Kind.ofId?_id]
  simp only [hnone]

theorem ofRaw_mismatch {t : Topic} (hk : k.id = r.id) (ht : t.name = r.topic)
    (hne : t ≠ k.topic) : ofRaw r = .error (.topicMismatch k t) := by
  have hname : Topic.ofName r.topic = .ok t := by rw [← ht, Topic.ofName, Topic.ofName?_name]
  rw [ofRaw, ← hk, Kind.ofId?_id]
  simp only [hname, if_pos hne]

theorem ofRaw_matched (hk : k.id = r.id) (ht : k.topic.name = r.topic) :
    ofRaw r = ((Payload.ofMembers k r.rest).map (Event.mk r.scope.normalized)).mapError .json := by
  have hname : Topic.ofName r.topic = .ok k.topic := by
    rw [← ht, Topic.ofName, Topic.ofName?_name]
  rw [ofRaw, ← hk, Kind.ofId?_id]
  simp only [hname, if_neg (not_not.mpr rfl)]
  cases Payload.ofMembers k r.rest <;> rfl

theorem known_of_ofRaw {e : Event} (h : ofRaw r = .ok e) :
    ∃ k : Kind, k.id = r.id ∧ k.topic.name = r.topic := by
  by_cases hk : ∀ k : Kind, k.id ≠ r.id
  · rw [ofRaw_unknownId hk] at h
    exact nomatch h
  obtain ⟨k, hk⟩ := not_forall.mp hk
  have hk := not_not.mp hk
  by_cases ht : ∀ t : Topic, t.name ≠ r.topic
  · rw [ofRaw_invalidTopic hk ht] at h
    exact nomatch h
  obtain ⟨t, ht⟩ := not_forall.mp ht
  have ht := not_not.mp ht
  by_cases hne : t ≠ k.topic
  · rw [ofRaw_mismatch hk ht hne] at h
    exact nomatch h
  · exact ⟨k, hk, not_not.mp hne ▸ ht⟩

theorem ofRaw_carried {e : Event}
    (hrest : r.rest = RawEvent.sortedByName (ms.filter fun m => RawEvent.isRest m.1)) :
    ofRaw r = .ok e ↔ e.kind.id = r.id ∧ e.topic.name = r.topic ∧ e.payload.CarriedBy ms ∧
      e.scope = r.scope.normalized := by
  obtain ⟨scope, p⟩ := e
  constructor
  · intro h
    obtain ⟨k, hk, ht⟩ := known_of_ofRaw h
    rw [ofRaw_matched hk ht, hrest, mapError_ok, map_ok] at h
    obtain ⟨q, hq, heq⟩ := h
    obtain ⟨rfl, rfl⟩ := Event.mk.inj heq
    obtain ⟨rfl, hcarried⟩ := Payload.ofMembers_ok.mp hq
    exact ⟨hk, ht, hcarried, rfl⟩
  · rintro ⟨hk, ht, hcarried, rfl⟩
    rw [ofRaw_matched hk ht, hrest, mapError_ok, map_ok]
    exact ⟨p, Payload.ofMembers_ok.mpr ⟨rfl, hcarried⟩, rfl⟩

theorem ofJson_ok {e : Event} : ofJson text = .ok e ↔ ∃ ms session user,
    Denotes text (.object ms) ∧ RawEvent.Routed ms e.kind.id e.topic.name session user ∧
      e.payload.CarriedBy ms ∧ e.scope = .of session user := by
  constructor
  · intro h
    cases hraw : readText RawEvent.ofDraft text with
    | error x =>
      rw [ofJson, hraw] at h
      exact nomatch h
    | ok r =>
      rw [ofJson, hraw] at h
      obtain ⟨ms, hd, hr, hrest⟩ := readRaw_ok.mp hraw
      obtain ⟨hk, ht, hcarried, hscope⟩ := (ofRaw_carried hrest).mp h
      rw [hk, ht]
      exact ⟨ms, _, _, hd, hr, hcarried, hscope⟩
  · rintro ⟨ms, session, user, hd, hr, hcarried, hscope⟩
    rw [ofJson_routed hd hr]
    exact (ofRaw_carried rfl).mpr ⟨rfl, rfl, hcarried, hscope⟩

theorem ofJson_uncarried (hd : Denotes text (.object ms))
    (hr : RawEvent.Routed ms k.id k.topic.name session user)
    (h : ¬ ∃ p : Payload, p.kind = k ∧ p.CarriedBy ms) : ∃ x, ofJson text = .error (.json x) := by
  rw [ofJson_routed hd hr, ofRaw_matched rfl rfl]
  cases hp : Payload.ofMembers k
      (RawEvent.sortedByName (ms.filter fun m => RawEvent.isRest m.1)) with
  | error x => exact ⟨x, rfl⟩
  | ok p => exact absurd ⟨p, Payload.ofMembers_ok.mp hp⟩ h

def memberNames : List String := ["id", "topic", "sessionId", "userId"] ++ Payload.memberNames

/-- Texts whose members agree under the names of an event's members are the same events. -/
theorem ofJson_congr (hd : Denotes text (.object ms)) (hd' : Denotes text' (.object ms'))
    (hsame : ∀ name ∈ memberNames, valuesOf name ms = valuesOf name ms') {e : Event}
    (he : ofJson text = .ok e) : ofJson text' = .ok e := by
  obtain ⟨ns, session, user, hns, ⟨hid, htopic, hs, hu⟩, hcarried, hscope⟩ := ofJson_ok.mp he
  obtain rfl := Value.object.inj (hns.unique hd)
  rw [hsame _ (by decide)] at hid htopic hs hu
  exact ofJson_ok.mpr ⟨ms', session, user, hd', ⟨hid, htopic, hs, hu⟩,
    hcarried.congr fun name hname => hsame name (List.mem_append_right _ hname), hscope⟩

/-- A text is read as an event exactly when it is one JSON object with the members of its route and
those of its payload, whatever else it holds. If not, the error is for the first that fails: the
JSON and the members of the route, the id, the topic, their match, the payload. -/
theorem ofJson_accepts :
    (∀ text e, ofJson text = .ok e ↔ ∃ ms session user,
      Denotes text (.object ms) ∧ RawEvent.Routed ms e.kind.id e.topic.name session user ∧
        e.payload.CarriedBy ms ∧
          e.scope = ⟨session.filter (· ≠ ""), user.filter (· ≠ "")⟩) ∧
    (∀ text, (¬ ∃ ms id topic session user, Denotes text (.object ms) ∧
        RawEvent.Routed ms id topic session user) → ∃ x, ofJson text = .error (.json x)) ∧
    (∀ text ms id topic session user, Denotes text (.object ms) →
      RawEvent.Routed ms id topic session user →
        ((∀ k : Kind, k.id ≠ id) → ofJson text = .error (.unknownId id)) ∧
        ∀ k : Kind, k.id = id →
          ((∀ t : Topic, t.name ≠ topic) → ofJson text = .error (.invalidTopic ⟨topic⟩)) ∧
          (∀ t : Topic, t.name = topic → t ≠ k.topic →
            ofJson text = .error (.topicMismatch k t)) ∧
          (k.topic.name = topic → (¬ ∃ p : Payload, p.kind = k ∧ p.CarriedBy ms) →
            ∃ x, ofJson text = .error (.json x))) ∧
    ∀ text text' ms ms', Denotes text (.object ms) → Denotes text' (.object ms') →
      (∀ name ∈ memberNames, valuesOf name ms = valuesOf name ms') →
        ∀ e, ofJson text = .ok e ↔ ofJson text' = .ok e := by
  refine ⟨fun text e => ofJson_ok, fun text => ofJson_unrouted, ?_, ?_⟩
  · intro text ms id topic session user hd hr
    have hraw := ofJson_routed hd hr
    refine ⟨fun h => hraw.trans (ofRaw_unknownId h), fun k hk => ⟨?_, ?_, ?_⟩⟩
    · exact fun h => hraw.trans (ofRaw_invalidTopic hk h)
    · exact fun t ht hne => hraw.trans (ofRaw_mismatch hk ht hne)
    · rintro rfl hp
      subst hk
      exact ofJson_uncarried hd hr hp
  · intro text text' ms ms' hd hd' hsame e
    exact ⟨ofJson_congr hd hd' hsame,
      ofJson_congr hd' hd fun name hname => (hsame name hname).symm⟩

theorem routed_of_read {text id topic : String}
    (h : (readText RawEvent.ofDraft text).toOption.map (fun r => (r.id, r.topic)) =
      some (id, topic)) :
    ∃ ms session user, Denotes text (.object ms) ∧ RawEvent.Routed ms id topic session user := by
  cases hraw : readText RawEvent.ofDraft text with
  | error x =>
    rw [hraw] at h
    exact nomatch h
  | ok r =>
    rw [hraw] at h
    obtain ⟨rfl, rfl⟩ := Prod.mk.inj (Option.some.inj h)
    obtain ⟨ms, hd, hr, _⟩ := readRaw_ok.mp hraw
    exact ⟨ms, _, _, hd, hr⟩

theorem ofJson_accepts_scoped :
    let ms := [("userId", Value.string ""), ("running", .bool false), ("taskId", .string "T1"),
      ("topic", .string "cb_session_task"), ("running", .bool true), ("sessionId", .string "S1"),
      ("id", .string "cb_session_task_info_updated")]
    let text := "\x7b\"topic\": \"cb_config\", \"id\": \"cb_session_state\"\x7d"
    ofJson (Value.object ms).render =
        .ok ⟨⟨some "S1", none⟩, .taskInfo ⟨"T1", none, true, by decide⟩⟩ ∧
      ofJson text = .error (.topicMismatch .sessionState .serverConfig) ∧
      ∃ x, ofJson "[]" = .error (.json x) := by
  intro ms text
  have hd : Denotes (Value.object ms).render (.object ms) := denotes_object (by simp [ms])
  refine ⟨(ofJson_accepts.1 _ _).mpr ⟨ms, some "S1", some "", hd, ?_, ?_, rfl⟩, ?_, ?_⟩
  · exact ⟨rfl, rfl, .inr ⟨"S1", rfl, rfl⟩, .inr ⟨"", rfl, rfl⟩⟩
  · exact ⟨rfl, .inl ⟨.inl rfl, rfl⟩, rfl⟩
  · obtain ⟨ms, session, user, hd, hr⟩ : ∃ ms session user, Denotes text (.object ms) ∧
        RawEvent.Routed ms "cb_session_state" "cb_config" session user :=
      routed_of_read (by decide +kernel)
    obtain ⟨_, hknown⟩ := ofJson_accepts.2.2.1 text ms _ _ session user hd hr
    exact (hknown .sessionState rfl).2.1 .serverConfig rfl (by decide)
  · refine ofJson_accepts.2.1 "[]" ?_
    rintro ⟨ms, id, topic, session, user, hd, hr⟩
    have hnone : (readText RawEvent.ofDraft "[]").toOption.isNone = true := by decide +kernel
    have hraw : readText RawEvent.ofDraft "[]" = .ok ⟨id, topic, ⟨session, user⟩, _⟩ :=
      readRaw_ok.mpr ⟨ms, hd, hr, rfl⟩
    rw [hraw] at hnone
    exact nomatch hnone

end Event

end EventGateway
