import EventGateway.Message
import EventGateway.Proofs.Json.Records

/-! An event that is written is read back as itself, but for the empty texts of its scope. -/

namespace EventGateway

open Json

namespace RawEvent

theorem gather_others {ms : List (String × Value)}
    (hms : ∀ m ∈ ms, m.1 ≠ "id" ∧ m.1 ≠ "topic" ∧ m.2.Plain) (g : Gathered) :
    (ms.map Draft.ofMember).foldlM gather g = .ok { g with others := g.others ++ ms } := by
  induction ms generalizing g with
  | nil => simp [pure, Except.pure]
  | cons m ms ih =>
    obtain ⟨hid, htopic, hplain⟩ := hms m (by simp)
    have hvalue : fromText (m.2.draft.value 2) = .ok m.2 := by
      rw [Value.value_draft hplain]
      rfl
    have hfirst : gather g (Draft.ofMember m) = .ok { g with others := g.others ++ [m] } := by
      rw [gather, Draft.ofMember, Draft.fromText_read]
      simp only [hvalue, bind, Except.bind, if_neg hid, if_neg htopic]
      rfl
    rw [List.map_cons, List.foldlM_cons, hfirst]
    simp only [bind, Except.bind]
    rw [ih fun x hx => hms x (List.mem_cons_of_mem _ hx)]
    simp

theorem readString_draft (s : String) : readString (Value.string s).draft = .ok s := by
  rw [readString, Value.face_draft (Value.plain_string s)]
  rfl

theorem gather_id (topic : Option String) (others : List (String × Value)) (s : String) :
    gather ⟨none, topic, others⟩ (Draft.ofMember ("id", .string s)) =
      .ok ⟨some s, topic, others⟩ := by
  rw [gather, Draft.ofMember, Draft.fromText_read]
  simp only [readString_draft, bind, Except.bind]
  rfl

theorem gather_topic (id : Option String) (others : List (String × Value)) (s : String) :
    gather ⟨id, none, others⟩ (Draft.ofMember ("topic", .string s)) =
      .ok ⟨id, some s, others⟩ := by
  rw [gather, Draft.ofMember, Draft.fromText_read]
  simp only [readString_draft, bind, Except.bind]
  rfl

theorem insert_perm {m : String × Value} {l : List (String × Value)} (hm : m.1 ∉ l.map Prod.fst) :
    (insert m l).Perm (m :: l) := by
  induction l with
  | nil => exact .refl _
  | cons x l ih =>
    obtain ⟨hne, hrest⟩ : m.1 ≠ x.1 ∧ m.1 ∉ l.map Prod.fst := by simpa using hm
    rw [insert, if_neg hne]
    split
    · exact .refl _
    · exact ((ih hrest).cons x).trans (.swap m x l)

theorem sortedByName_perm {ms : List (String × Value)} (hnd : (ms.map Prod.fst).Nodup) :
    (sortedByName ms).Perm ms := by
  -- What is sorted already has none of the names that are still to come.
  suffices ∀ acc : List (String × Value), ((ms ++ acc).map Prod.fst).Nodup →
      (ms.foldl (fun r m => insert m r) acc).Perm (ms ++ acc) by
    have hall := this [] (by rwa [List.append_nil])
    rwa [List.append_nil] at hall
  clear hnd
  induction ms with
  | nil => exact fun acc _ => .refl acc
  | cons m ms ih =>
    intro acc hacc
    have hm : m.1 ∉ acc.map Prod.fst := by
      rw [List.cons_append, List.map_cons, List.map_append] at hacc
      exact fun hin => (List.nodup_cons.mp hacc).1 (List.mem_append_right _ hin)
    have hperm : (ms ++ insert m acc).Perm (m :: (ms ++ acc)) :=
      ((insert_perm hm).append_left ms).trans List.perm_middle
    exact (ih (insert m acc) ((hperm.map Prod.fst).nodup_iff.mpr hacc)).trans hperm

end RawEvent

theorem Scope.plain_members (s : Scope) :
    ∀ m ∈ s.members, m.2.Plain ∧ RawEvent.isScopeName m.1 = true ∧ m.1 ≠ "id" ∧ m.1 ≠ "topic" := by
  obtain ⟨session, user⟩ := s
  cases session <;> cases user <;>
    simp [Scope.members, Value.optionalMember, RawEvent.isScopeName]

/-- A scope is read back from its members as it was, empty texts included. -/
theorem Scope.ofMembers_members (s : Scope) :
    (Scope.fields Value.faceOf).ofMembers Value.skipMember s.members =
      .ok (s.sessionId, s.userId, ()) := by
  obtain ⟨session, user⟩ := s
  cases session <;> cases user <;> rfl

theorem Payload.plain_members (p : Payload) :
    ∀ m ∈ p.members, m.2.Plain ∧ RawEvent.isScopeName m.1 = false ∧ m.1 ≠ "id" ∧ m.1 ≠ "topic" := by
  cases p with
  | taskInfo i =>
    cases hstatus : i.statusName <;>
      simp [Payload.members, hstatus, Value.optionalMember, RawEvent.isScopeName]
  | sessionState s =>
    simp [Payload.members, Value.plain_int64, RawEvent.isScopeName]
  | configurationChanged | sessionExpired | sessionLogUpdated => simp [Payload.members]

theorem TaskInfo.of?_self (i : TaskInfo) :
    TaskInfo.of? i.taskId i.statusName i.running = some i := by
  simp [TaskInfo.of?, i.taskId_ne]

theorem Payload.nodup_members (p : Payload) : (p.members.map Prod.fst).Nodup := by
  cases p with
  | taskInfo i =>
    cases hstatus : i.statusName <;> simp [Payload.members, hstatus, Value.optionalMember]
  | sessionState s => simp [Payload.members]
  | configurationChanged | sessionExpired | sessionLogUpdated => simp [Payload.members]

theorem TaskInfo.ofMembers_members (i : TaskInfo) :
    (Payload.taskInfoFields Value.faceOf).ofMembers Value.skipMember (Payload.taskInfo i).members =
      .ok (i.taskId, i.statusName, i.running, ()) := by
  cases hstatus : i.statusName <;> rw [Payload.members, hstatus] <;> rfl

theorem SessionState.ofMembers_members (s : SessionState) :
    (SessionState.fields Value.faceOf).ofMembers Value.skipMember (Payload.sessionState s).members =
      .ok (s.lastAccessTime, s.remainingTime, s.isValid, ()) := by
  have hlast := Field.read_int64 "lastAccessTime" s.lastAccessTime
  have hremaining := Field.read_int64 "remainingTime" s.remainingTime
  have hfirst : (SessionState.fields Value.faceOf).put Value.skipMember "lastAccessTime"
      (.int s.lastAccessTime.toInt) (SessionState.fields Value.faceOf).empty =
        .ok (some s.lastAccessTime, none, none, ()) := Fields.put_field hlast _
  have hsecond : (SessionState.fields Value.faceOf).put Value.skipMember "remainingTime"
      (.int s.remainingTime.toInt) (some s.lastAccessTime, none, none, ()) =
        .ok (some s.lastAccessTime, some s.remainingTime, none, ()) :=
    Fields.put_next (by decide) _ (Fields.put_field hremaining _)
  rw [Payload.members, Fields.ofMembers, Fields.foldlM_put hfirst, Fields.foldlM_put hsecond]
  rfl

/-- A payload is read from members of different names in whatever order they are. -/
theorem Payload.ofMembers_of_perm {k : Kind} {p : Payload} {ms ms' : List (String × Value)}
    (hp : ms.Perm ms') (hnd : (ms.map Prod.fst).Nodup) (h : Payload.ofMembers k ms = .ok p) :
    Payload.ofMembers k ms' = .ok p := by
  cases k with
  | configurationChanged | sessionExpired | sessionLogUpdated => exact h
  | taskInfoUpdated =>
    rw [Payload.ofMembers, bind_ok] at h ⊢
    obtain ⟨r, hr, h⟩ := h
    exact ⟨r, Fields.ofMembers_perm _ hp hnd hr, h⟩
  | sessionState =>
    obtain ⟨r, hr, h⟩ := map_ok.mp h
    exact map_ok.mpr ⟨r, Fields.ofMembers_perm _ hp hnd hr, h⟩

theorem Payload.ofMembers_members (p : Payload) : Payload.ofMembers p.kind p.members = .ok p := by
  cases p with
  | configurationChanged | sessionExpired | sessionLogUpdated => rfl
  | taskInfo i =>
    rw [Payload.kind, Payload.ofMembers, i.ofMembers_members]
    simp only [bind, Except.bind, Payload.ofTaskRow, i.of?_self]
  | sessionState s =>
    rw [Payload.kind, Payload.ofMembers, s.ofMembers_members]
    rfl

/-- A payload is read back from its members in any order. -/
theorem Payload.ofMembers_perm (p : Payload) {ms : List (String × Value)}
    (hp : p.members.Perm ms) : Payload.ofMembers p.kind ms = .ok p :=
  ofMembers_of_perm hp p.nodup_members p.ofMembers_members

namespace Event

theorem plain_members (e : Event) : ∀ m ∈ e.members, m.2.Plain := by
  intro m hm
  simp only [members, List.mem_cons, List.mem_append] at hm
  rcases hm with rfl | rfl | hm | hm
  · exact Value.plain_string _
  · exact Value.plain_string _
  · exact (e.scope.plain_members m hm).1
  · exact (e.payload.plain_members m hm).1

theorem plain_others (e : Event) :
    ∀ m ∈ e.scope.members ++ e.payload.members, m.1 ≠ "id" ∧ m.1 ≠ "topic" ∧ m.2.Plain := by
  intro m hm
  rcases List.mem_append.mp hm with hm | hm
  · obtain ⟨hplain, _, hid, htopic⟩ := e.scope.plain_members m hm
    exact ⟨hid, htopic, hplain⟩
  · obtain ⟨hplain, _, hid, htopic⟩ := e.payload.plain_members m hm
    exact ⟨hid, htopic, hplain⟩

theorem partition_others (e : Event) :
    (e.scope.members ++ e.payload.members).partition (fun m => RawEvent.isScopeName m.1) =
      (e.scope.members, e.payload.members) := by
  have hscope : e.scope.members.filter (fun m => RawEvent.isScopeName m.1) = e.scope.members :=
    List.filter_eq_self.mpr fun m hm => (e.scope.plain_members m hm).2.1
  have hpayload : e.payload.members.filter (fun m => RawEvent.isScopeName m.1) = [] :=
    List.filter_eq_nil_iff.mpr fun m hm => by simp [(e.payload.plain_members m hm).2.1]
  have hscope' : e.scope.members.filter (fun m => !RawEvent.isScopeName m.1) = [] :=
    List.filter_eq_nil_iff.mpr fun m hm => by simp [(e.scope.plain_members m hm).2.1]
  have hpayload' : e.payload.members.filter (fun m => !RawEvent.isScopeName m.1) =
      e.payload.members :=
    List.filter_eq_self.mpr fun m hm => by simp [(e.payload.plain_members m hm).2.1]
  rw [List.partition_eq_filter_filter, List.filter_append, List.filter_append, hscope, hpayload,
    List.append_nil]
  have hrest : (fun m : String × Value => !RawEvent.isScopeName m.1) =
      not ∘ fun m => RawEvent.isScopeName m.1 := rfl
  rw [← hrest, hscope', hpayload', List.nil_append]

def gathered (e : Event) : RawEvent.Gathered :=
  ⟨some e.kind.id, some e.topic.name, e.scope.members ++ e.payload.members⟩

def raw (e : Event) : RawEvent :=
  ⟨e.kind.id, e.topic.name, e.scope, RawEvent.sortedByName e.payload.members⟩

theorem gather_members (e : Event) :
    (e.members.map Draft.ofMember).foldlM RawEvent.gather {} = .ok e.gathered := by
  rw [members, List.map_cons, List.map_cons, List.foldlM_cons, RawEvent.gather_id]
  simp only [bind, Except.bind]
  rw [List.foldlM_cons, RawEvent.gather_topic]
  simp only [bind, Except.bind]
  rw [RawEvent.gather_others e.plain_others]
  rfl

theorem ofGathered_gathered (e : Event) : RawEvent.ofGathered e.gathered = .ok e.raw := by
  have hscope := e.scope.ofMembers_members
  simp only [RawEvent.ofGathered, gathered, partition_others, hscope, bind, Except.bind]
  rfl

theorem ofDraft_members (e : Event) :
    RawEvent.ofDraft (.object (e.members.map Draft.ofMember) .closed) = .ok e.raw := by
  have hgathered := e.ofGathered_gathered
  simp only [RawEvent.ofDraft, gather_members, bind, Except.bind, hgathered, Ending.check]
  rfl

def normalized (e : Event) : Event := ⟨e.scope.normalized, e.payload⟩

theorem ofRaw_raw (e : Event) : ofRaw e.raw = .ok e.normalized := by
  have htopic : Topic.ofName e.topic.name = .ok e.topic := by simp [Topic.ofName]
  have hpayload : Payload.ofMembers e.kind (RawEvent.sortedByName e.payload.members) =
      .ok e.payload :=
    e.payload.ofMembers_perm (RawEvent.sortedByName_perm e.payload.nodup_members).symm
  have hsame : ¬ e.topic ≠ e.kind.topic := fun h => h rfl
  simp only [ofRaw, raw, Kind.ofId?_id, htopic, if_neg hsame, hpayload]
  rfl

theorem ofJson_written (e : Event) : ofJson e.toJson = .ok e.normalized := by
  rw [ofJson, toJson, readText_object _ e.plain_members, ofDraft_members]
  exact e.ofRaw_raw

theorem id_ne_notice (k : Kind) : k.id ≠ Notice.id := by cases k <;> decide

theorem readId_written (e : Event) : Frame.readId e.toJson = .ok e.kind.id := by
  -- The id is the first member, and the only one that this reader looks at.
  have hread := Field.read_text (Value.face_draft (Value.plain_string e.kind.id)) "id" "a string"
  have hothers : ∀ m ∈ (("topic", Value.string e.topic.name) ::
      (e.scope.members ++ e.payload.members)).map fun m => (m.1, m.2.draft),
      Draft.skipMember m.2 = .ok () ∧ m.1 ≠ "id" := by
    intro x hx
    obtain ⟨m, hm, rfl⟩ := List.mem_map.mp hx
    have hplain : m.2.Plain := e.plain_members m (List.mem_cons_of_mem _ hm)
    refine ⟨Draft.skipMember_draft hplain, ?_⟩
    rcases List.mem_cons.mp hm with rfl | hm
    · simp
    · exact (e.plain_others m hm).1
  have hrow : Frame.idFields.ofMembers Draft.skipMember
      (e.members.map fun m => (m.1, m.2.draft)) = .ok (e.kind.id, ()) :=
    Fields.ofMembers_first hread hothers
  rw [Frame.readId, toJson, readText_object _ e.plain_members, Draft.record_flat, hrow]
  rfl

theorem frame_written (e : Event) : Frame.ofJson e.toJson = .ok (.event e.normalized) := by
  rw [Frame.ofJson, readId_written]
  simp only [if_neg (id_ne_notice e.kind), ofJson_written]
  rfl

theorem nonEmpty_nonEmpty (s : Option String) : nonEmpty? (nonEmpty? s) = nonEmpty? s := by
  simp [nonEmpty?]

theorem normalized_scopedTo (p : Payload) (session user : Option String) :
    (scopedTo p session user).normalized = scopedTo p session user := by
  simp only [normalized, scopedTo, Scope.normalized, Scope.of, nonEmpty_nonEmpty]

/-- An event that was read has no empty texts in its scope. -/
theorem normalized_ofJson {text : String} {e : Event} (he : ofJson text = .ok e) :
    e.normalized = e := by
  unfold ofJson at he
  split at he
  · simp at he
  next r _ =>
    obtain ⟨p, rfl⟩ : ∃ p, e = scopedTo p r.scope.sessionId r.scope.userId := by
      unfold ofRaw at he
      repeat' split at he
      all_goals simp at he
      next p _ => exact ⟨p, he.symm⟩
    exact normalized_scopedTo p r.scope.sessionId r.scope.userId

/-- An event that is written, with whatever texts and numbers, is read back as it was but for the
empty texts of its scope, alone and as a frame. Events that were made or read have none of these. -/
theorem decode_undoes_encode :
    (∀ e : Event,
      let e' : Event :=
        ⟨⟨e.scope.sessionId.filter (· ≠ ""), e.scope.userId.filter (· ≠ "")⟩, e.payload⟩
      ofJson e.toJson = .ok e' ∧ Frame.ofJson e.toJson = .ok (.event e')) ∧
    (∀ p, ofJson (new p).toJson = .ok (new p)) ∧
    (∀ p session user, ofJson (scopedTo p session user).toJson = .ok (scopedTo p session user)) ∧
    ∀ text e, ofJson text = .ok e → ofJson e.toJson = .ok e := by
  refine ⟨fun e => ⟨e.ofJson_written, e.frame_written⟩, fun p => ?_, fun p session user => ?_,
    fun text e he => ?_⟩
  · exact ofJson_written (new p)
  · rw [ofJson_written, normalized_scopedTo]
  · rw [ofJson_written, normalized_ofJson he]

theorem decode_undoes_encode_twoIds :
    let text := "\x7b\"id\":\"cb_session_expired\",\"topic\":\"cb_session\"," ++
      "\"sessionId\":\"S1\",\"userId\":\"u\\u0001\"\x7d"
    let e : Event := ⟨⟨some "S1", some "u\x01"⟩, .sessionExpired⟩
    ofJson text = .ok e ∧ e.toJson = text ∧ ofJson e.toJson = .ok e ∧
      ofJson (Event.mk ⟨some "S1", some ""⟩ .sessionExpired).toJson =
        .ok ⟨⟨some "S1", none⟩, .sessionExpired⟩ := by
  intro text e
  have hwritten : e.toJson = text := by decide +kernel
  have hread : ofJson text = .ok e := hwritten ▸ (decode_undoes_encode.1 e).1
  exact ⟨hread, hwritten, decode_undoes_encode.2.2.2 text e hread, (decode_undoes_encode.1 _).1⟩

end Event

end EventGateway
