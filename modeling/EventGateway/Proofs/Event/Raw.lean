import EventGateway.Event.Wire
import EventGateway.Proofs.Json.Peeking

/-! What an event's object has to say of its route, and what is kept of its other members. -/

namespace EventGateway

open Json

namespace RawEvent

/-- The members that say where an event goes: two texts once each, and two that may be absent. -/
structure Routed (ms : List (String × Value)) (id topic : String) (session user : Option String) :
    Prop where
  id_eq : valuesOf "id" ms = [.string id]
  topic_eq : valuesOf "topic" ms = [.string topic]
  session_text : Fields.MaybeText (valuesOf "sessionId" ms) session
  user_text : Fields.MaybeText (valuesOf "userId" ms) user

variable {ms : List (String × Value)} {m : String × Value}

theorem readString_ok {d : Draft} {s : String} :
    readString d = .ok s ↔ d.value 2 = .ok (.string s) := by
  have htext {f : Face} : (f.text "a string").mapError Error.data = .ok s ↔ f = .string s := by
    rw [mapError_ok]
    cases f <;> simp [Face.text]
  rw [readString, bind_ok, ← Draft.face_string]
  simp only [fromText_ok, htext]
  constructor
  · rintro ⟨_, hface, rfl⟩
    exact hface
  · exact fun h => ⟨_, h, rfl⟩

/-- The values a slot stands for. -/
def slot (x : Option String) : List Value := x.toList.map .string

theorem slot_inj {x y : Option String} (h : slot x = slot y) : x = y := by
  cases x <;> cases y <;> simp_all [slot]

theorem slot_append {y : Option String} {vs ws : List Value} (h : slot y = vs ++ ws) :
    ∃ x, slot x = vs := by
  cases vs with
  | nil => exact ⟨none, rfl⟩
  | cons v vs =>
    refine ⟨y, ?_⟩
    obtain ⟨rfl, rfl⟩ : vs = [] ∧ ws = [] := by cases y <;> simp_all [slot]
    rw [h, List.append_nil]

theorem slot_fill {x y : Option String} {v : Value} :
    slot y = slot x ++ [v] ↔ x = none ∧ ∃ s, v = .string s ∧ y = some s := by
  constructor
  · intro h
    cases x with
    | some s => cases y <;> simp [slot] at h
    | none =>
      cases y with
      | none => simp [slot] at h
      | some s =>
        obtain rfl : Value.string s = v := by simpa [slot] using h
        exact ⟨rfl, s, rfl, rfl⟩
  · rintro ⟨rfl, s, rfl, rfl⟩
    rfl

def isOther (name : String) : Bool := name ≠ "id" ∧ name ≠ "topic"

/-- What has been gathered after some more members. -/
structure Collects (g : Gathered) (ms : List (String × Value)) (g' : Gathered) : Prop where
  id_eq : slot g'.id = slot g.id ++ valuesOf "id" ms
  topic_eq : slot g'.topic = slot g.topic ++ valuesOf "topic" ms
  others_eq : g'.others = g.others ++ ms.filter fun m => isOther m.1

theorem collects_nil {g g' : Gathered} : Collects g [] g' ↔ g' = g := by
  constructor
  · rintro ⟨hid, htopic, hothers⟩
    obtain ⟨id, topic, others⟩ := g
    obtain ⟨id', topic', others'⟩ := g'
    obtain rfl := slot_inj (hid.trans (List.append_nil _))
    obtain rfl := slot_inj (htopic.trans (List.append_nil _))
    obtain rfl : others' = others := hothers.trans (List.append_nil _)
    rfl
  · rintro rfl
    exact ⟨(List.append_nil _).symm, (List.append_nil _).symm, (List.append_nil _).symm⟩

theorem collects_cons {g g' : Gathered} :
    Collects g (m :: ms) g' ↔ ∃ g₁, Collects g [m] g₁ ∧ Collects g₁ ms g' := by
  have hvalues (name : String) : valuesOf name (m :: ms) = valuesOf name [m] ++ valuesOf name ms :=
    valuesOf_append name [m] ms
  have hothers : (m :: ms).filter (fun m => isOther m.1) =
      [m].filter (fun m => isOther m.1) ++ ms.filter fun m => isOther m.1 :=
    List.filter_append [m] ms
  constructor
  · rintro ⟨hid, htopic, hrest⟩
    rw [hvalues, ← List.append_assoc] at hid htopic
    rw [hothers, ← List.append_assoc] at hrest
    obtain ⟨id, hid₁⟩ := slot_append hid
    obtain ⟨topic, htopic₁⟩ := slot_append htopic
    rw [← hid₁] at hid
    rw [← htopic₁] at htopic
    exact ⟨⟨id, topic, _⟩, ⟨hid₁, htopic₁, rfl⟩, hid, htopic, hrest⟩
  · rintro ⟨g₁, ⟨hid₁, htopic₁, hrest₁⟩, hid, htopic, hrest⟩
    refine ⟨?_, ?_, ?_⟩
    · rw [hid, hid₁, hvalues, List.append_assoc]
    · rw [htopic, htopic₁, hvalues, List.append_assoc]
    · rw [hrest, hrest₁, hothers, List.append_assoc]

theorem collects_id {g g' : Gathered} {v : Value} : Collects g [("id", v)] g' ↔
    g.id = none ∧ ∃ s, v = .string s ∧ { g with id := some s } = g' := by
  obtain ⟨id, topic, others⟩ := g
  obtain ⟨id', topic', others'⟩ := g'
  constructor
  · rintro ⟨hid, htopic, hothers⟩
    obtain ⟨hfree, s, hv, rfl⟩ := slot_fill.mp hid
    obtain rfl := slot_inj (htopic.trans (List.append_nil _))
    obtain rfl : others' = others := hothers.trans (List.append_nil _)
    exact ⟨hfree, s, hv, rfl⟩
  · rintro ⟨hfree, s, hv, h⟩
    cases h
    exact ⟨slot_fill.mpr ⟨hfree, s, hv, rfl⟩, (List.append_nil _).symm, (List.append_nil _).symm⟩

theorem collects_topic {g g' : Gathered} {v : Value} : Collects g [("topic", v)] g' ↔
    g.topic = none ∧ ∃ s, v = .string s ∧ { g with topic := some s } = g' := by
  obtain ⟨id, topic, others⟩ := g
  obtain ⟨id', topic', others'⟩ := g'
  constructor
  · rintro ⟨hid, htopic, hothers⟩
    obtain ⟨hfree, s, hv, rfl⟩ := slot_fill.mp htopic
    obtain rfl := slot_inj (hid.trans (List.append_nil _))
    obtain rfl : others' = others := hothers.trans (List.append_nil _)
    exact ⟨hfree, s, hv, rfl⟩
  · rintro ⟨hfree, s, hv, h⟩
    cases h
    exact ⟨(List.append_nil _).symm, slot_fill.mpr ⟨hfree, s, hv, rfl⟩, (List.append_nil _).symm⟩

theorem collects_other {g g' : Gathered} {name : String} {v : Value} (hid : name ≠ "id")
    (htopic : name ≠ "topic") :
    Collects g [(name, v)] g' ↔ { g with others := g.others ++ [(name, v)] } = g' := by
  have hother : isOther name = true := by simp [isOther, hid, htopic]
  obtain ⟨id, topic, others⟩ := g
  obtain ⟨id', topic', others'⟩ := g'
  constructor
  · rintro ⟨h, h', hothers⟩
    rw [valuesOf_cons_other hid] at h
    rw [valuesOf_cons_other htopic] at h'
    obtain rfl := slot_inj (h.trans (List.append_nil _))
    obtain rfl := slot_inj (h'.trans (List.append_nil _))
    simp [hother] at hothers
    rw [hothers]
  · intro h
    cases h
    refine ⟨?_, ?_, by simp [hother]⟩
    · rw [valuesOf_cons_other hid]
      exact (List.append_nil _).symm
    · rw [valuesOf_cons_other htopic]
      exact (List.append_nil _).symm

/-- A text is taken into a slot that is still free. -/
theorem take_ok {x : Option String} {name : String} {d : Draft} {f : String → Gathered}
    {g : Gathered} :
    (match x with
      | some _ => DataError.throw (.duplicateField name)
      | none => do
        let s ← readString d
        pure (f s)) = Except.ok g ↔
      ∃ v, d.value 2 = .ok v ∧ x = none ∧ ∃ s, v = .string s ∧ f s = g := by
  cases x with
  | some s => simp [DataError.throw]
  | none =>
    simp only [bind_ok, readString_ok, ok_inj]
    constructor
    · rintro ⟨s, hs, hg⟩
      exact ⟨_, hs, trivial, s, rfl, hg⟩
    · rintro ⟨_, hs, _, s, rfl, hg⟩
      exact ⟨s, hs, hg⟩

theorem gather_ok {g g' : Gathered} {n : StringToken} {d : Draft} :
    gather g (n, d) = .ok g' ↔
      ∃ name v, n.read = .ok name ∧ d.value 2 = .ok v ∧ Collects g [(name, v)] g' := by
  rw [gather, bind_ok]
  simp only [fromText_ok]
  refine exists_congr fun name => ?_
  by_cases hid : name = "id"
  · subst hid
    simp only [collects_id, if_true, exists_and_left]
    exact and_congr_right fun _ => take_ok
  by_cases htopic : name = "topic"
  · subst htopic
    simp only [collects_topic, if_neg hid, if_true, exists_and_left]
    exact and_congr_right fun _ => take_ok
  · simp only [collects_other hid htopic, if_neg hid, if_neg htopic, bind_ok, fromText_ok, ok_inj,
      exists_and_left]

theorem foldlM_gather_ok {members : List (StringToken × Draft)} {g g' : Gathered} :
    members.foldlM gather g = .ok g' ↔
      ∃ ms, Draft.memberValues 2 members = .ok ms ∧ Collects g ms g' := by
  induction members generalizing g with
  | nil =>
    have hnil : Draft.memberValues 2 [] = .ok [] := rfl
    rw [List.foldlM_nil, ok_inj, hnil]
    constructor
    · rintro rfl
      exact ⟨[], rfl, collects_nil.mpr rfl⟩
    · rintro ⟨ms, h, hg⟩
      obtain rfl := Except.ok.inj h
      exact (collects_nil.mp hg).symm
  | cons m members ih =>
    obtain ⟨n, d⟩ := m
    rw [List.foldlM_cons, bind_ok]
    simp only [gather_ok, ih, Draft.memberValues_cons_ok]
    constructor
    · rintro ⟨g₁, ⟨name, v, hn, hv, hfirst⟩, ms, hms, hrest⟩
      exact ⟨_, ⟨name, v, ms, hn, hv, hms, rfl⟩, collects_cons.mpr ⟨g₁, hfirst, hrest⟩⟩
    · rintro ⟨_, ⟨name, v, ms, hn, hv, hms, rfl⟩, hg⟩
      obtain ⟨g₁, hfirst, hrest⟩ := collects_cons.mp hg
      exact ⟨g₁, ⟨name, v, hn, hv, hfirst⟩, ms, hms, hrest⟩

/-- The scope is read from the members of its two names. -/
theorem scope_ok {r : Row [Option String, Option String]} :
    (Scope.fields Value.faceOf).ofMembers Value.skipMember ms = .ok r ↔
      Fields.MaybeText (valuesOf "sessionId" ms) r.1 ∧
        Fields.MaybeText (valuesOf "userId" ms) r.2.1 := by
  have huser : valuesOf "userId" (without "sessionId" ms) = valuesOf "userId" ms :=
    valuesOf_without (by decide) ms
  rw [Scope.fields, Fields.ofMembers_cons_ok, Fields.ofMembers_last_ok, Fields.reads_optional,
    Fields.reads_optional]
  simp only [Field.optional, Field.scalar, huser]

def isRest (name : String) : Bool := isOther name && !isScopeName name

theorem ofGathered_ok {g : Gathered} {r : RawEvent} (hg : Collects {} ms g) :
    ofGathered g = .ok r ↔
      Routed ms r.id r.topic r.scope.sessionId r.scope.userId ∧
        r.rest = sortedByName (ms.filter fun m => isRest m.1) := by
  obtain ⟨id, topic, others⟩ := g
  obtain ⟨hid, htopic, hothers⟩ := hg
  obtain rfl : others = ms.filter fun m => isOther m.1 := hothers
  have hsession : valuesOf "sessionId" ((ms.filter fun m => isOther m.1).filter
      fun m => isScopeName m.1) = valuesOf "sessionId" ms := by
    rw [valuesOf_filter (p := isScopeName) (by decide), valuesOf_filter (p := isOther) (by decide)]
  have huser : valuesOf "userId" ((ms.filter fun m => isOther m.1).filter
      fun m => isScopeName m.1) = valuesOf "userId" ms := by
    rw [valuesOf_filter (p := isScopeName) (by decide), valuesOf_filter (p := isOther) (by decide)]
  have hrest : (ms.filter fun m => isOther m.1).filter (not ∘ fun m => isScopeName m.1) =
      ms.filter fun m => isRest m.1 := by
    rw [List.filter_filter]
    exact List.filter_congr fun m _ => Bool.and_comm _ _
  constructor
  · intro h
    cases id with
    | none => simp [ofGathered, DataError.throw] at h
    | some id =>
    cases topic with
    | none => simp [ofGathered, DataError.throw] at h
    | some topic =>
    simp only [ofGathered, List.partition_eq_filter_filter, bind_ok, scope_ok, ok_inj, hsession,
      huser, hrest] at h
    obtain ⟨row, ⟨hs, hu⟩, rfl⟩ := h
    exact ⟨⟨hid.symm, htopic.symm, hs, hu⟩, rfl⟩
  · rintro ⟨⟨hid', htopic', hs, hu⟩, hr⟩
    obtain rfl : id = some r.id := slot_inj (hid.trans hid')
    obtain rfl : topic = some r.topic := slot_inj (htopic.trans htopic')
    simp only [ofGathered, List.partition_eq_filter_filter, bind_ok, scope_ok, ok_inj, hsession,
      huser, hrest]
    refine ⟨(r.scope.sessionId, r.scope.userId, ()), ⟨hs, hu⟩, ?_⟩
    rw [← hr]
    rfl

theorem ofDraft_ok {d : Draft} {r : RawEvent} :
    ofDraft d = .ok r ↔ ∃ ms, d.value 1 = .ok (.object ms) ∧
      Routed ms r.id r.topic r.scope.sessionId r.scope.userId ∧
        r.rest = sortedByName (ms.filter fun m => isRest m.1) := by
  constructor
  · intro h
    cases d with
    | object members e =>
      simp only [ofDraft, bind_ok, fromText_ok, Ending.check_ok, foldlM_gather_ok] at h
      obtain ⟨g, ⟨ms, hms, hg⟩, _, rfl, hr⟩ := h
      exact ⟨ms, Draft.value_object_ok.mpr ⟨members, rfl, by decide, hms⟩,
        (ofGathered_ok hg).mp hr⟩
    | null | bool _ | word _ | number _ | string _ | array _ _ | absent _ | uncoloned _ =>
      exact absurd h (Draft.mismatch_ne_ok _ _ _)
  · rintro ⟨ms, hvalue, hr⟩
    obtain ⟨members, rfl, _, hms⟩ := Draft.value_object_ok.mp hvalue
    have hg : Collects {} ms ⟨some r.id, some r.topic, ms.filter fun m => isOther m.1⟩ :=
      ⟨hr.1.id_eq.symm, hr.1.topic_eq.symm, rfl⟩
    simp only [ofDraft, bind_ok, fromText_ok, Ending.check_ok, foldlM_gather_ok]
    exact ⟨_, ⟨ms, hms, hg⟩, (), trivial, (ofGathered_ok hg).mpr hr⟩

/-! Sorting by the names keeps the last of each name. -/

theorem mem_insert {x : String × Value} {l : List (String × Value)} (hx : x ∈ insert m l) :
    x = m ∨ x ∈ l := by
  induction l with
  | nil => exact .inl (by simpa [insert] using hx)
  | cons y l ih =>
    rw [insert] at hx
    split at hx
    · rcases List.mem_cons.mp hx with rfl | hx
      · exact .inl rfl
      · exact .inr (List.mem_cons_of_mem y hx)
    split at hx
    · exact List.mem_cons.mp hx
    · rcases List.mem_cons.mp hx with rfl | hx
      · exact .inr List.mem_cons_self
      · exact (ih hx).imp_right (List.mem_cons_of_mem y)

def Ordered (l : List (String × Value)) : Prop := l.Pairwise fun x y => x.1 < y.1

theorem ordered_insert {l : List (String × Value)} (hl : Ordered l) : Ordered (insert m l) := by
  induction l with
  | nil => exact List.pairwise_singleton _ _
  | cons y l ih =>
    obtain ⟨hy, hl⟩ := List.pairwise_cons.mp hl
    rw [insert]
    split
    next heq => exact List.pairwise_cons.mpr ⟨fun z hz => heq ▸ hy z hz, hl⟩
    next hne =>
    split
    next hlt =>
      refine List.pairwise_cons.mpr ⟨fun z hz => ?_, List.pairwise_cons.mpr ⟨hy, hl⟩⟩
      rcases List.mem_cons.mp hz with rfl | hz
      · exact hlt
      · exact String.lt_trans hlt (hy z hz)
    next hge =>
      have hlt : y.1 < m.1 := by
        refine Classical.not_not.mp fun h => hne ?_
        exact String.le_antisymm (String.not_lt.mp h) (String.not_lt.mp hge)
      refine List.pairwise_cons.mpr ⟨fun z hz => ?_, ih hl⟩
      rcases mem_insert hz with rfl | hz
      · exact hlt
      · exact hy z hz

theorem valuesOf_insert {l : List (String × Value)} (hl : Ordered l) (name : String) :
    valuesOf name (insert m l) = if m.1 = name then [m.2] else valuesOf name l := by
  obtain ⟨n, v⟩ := m
  induction l with
  | nil => by_cases hn : n = name <;> simp [insert, valuesOf, hn]
  | cons y l ih =>
    obtain ⟨n', w⟩ := y
    obtain ⟨hy, hl⟩ := List.pairwise_cons.mp hl
    -- What comes after an entry has none of the names up to that of the entry.
    have hafter (hle : ¬ n' < name) : valuesOf name l = [] :=
      valuesOf_eq_nil fun z hz hzn => hle (hzn ▸ hy z hz)
    rw [insert]
    by_cases hn : n = name
    · subst hn
      rw [if_pos rfl]
      split
      next heq =>
        obtain rfl : n = n' := heq
        rw [valuesOf_cons_same, hafter (String.lt_irrefl n)]
      next hne =>
      have hother : n' ≠ n := fun h => hne h.symm
      split
      next hlt =>
        have hle : ¬ n' < n := fun h => String.lt_irrefl n (String.lt_trans hlt h)
        rw [valuesOf_cons_same, valuesOf_cons_other hother, hafter hle]
      · rw [valuesOf_cons_other hother, ih hl, if_pos rfl]
    · rw [if_neg hn]
      split
      next heq =>
        obtain rfl : n = n' := heq
        rw [valuesOf_cons_other hn, valuesOf_cons_other hn]
      split
      · rw [valuesOf_cons_other hn]
      · have hrest : valuesOf name (insert (n, v) l) = valuesOf name l := by rw [ih hl, if_neg hn]
        rw [← List.singleton_append, valuesOf_append, hrest, ← valuesOf_append,
          List.singleton_append]

theorem sortedByName_snoc (ms : List (String × Value)) (m : String × Value) :
    sortedByName (ms ++ [m]) = insert m (sortedByName ms) := by
  rw [sortedByName, List.foldl_append]
  rfl

theorem ordered_sortedByName (ms : List (String × Value)) : Ordered (sortedByName ms) := by
  induction ms using List.reverseRecOn with
  | nil => exact .nil
  | append_singleton ms m ih =>
    rw [sortedByName_snoc]
    exact ordered_insert ih

theorem valuesOf_sortedByName (name : String) (ms : List (String × Value)) :
    valuesOf name (sortedByName ms) = lastOf name ms := by
  induction ms using List.reverseRecOn with
  | nil => rfl
  | append_singleton ms m ih =>
    rw [sortedByName_snoc, valuesOf_insert (ordered_sortedByName ms), ih, lastOf_snoc]

theorem lastOf_rest {name : String} (hname : isRest name = true) (ms : List (String × Value)) :
    valuesOf name (sortedByName (ms.filter fun m => isRest m.1)) = lastOf name ms := by
  rw [valuesOf_sortedByName, lastOf, valuesOf_filter hname, lastOf]

end RawEvent

end EventGateway
