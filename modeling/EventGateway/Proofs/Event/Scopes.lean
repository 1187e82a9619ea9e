import EventGateway.Proofs.Event.Acceptance
import EventGateway.Proofs.Event.RoundTrip

/-! Empty texts in a scope. A scope that is made has none, and neither has the scope of an event that
is read; a scope that is read by itself keeps those of its text. What they do to an event is seen
once it has been written: a scope of nothing but empty texts is then the scope of everyone. -/

namespace EventGateway

open Json

namespace Scope

variable {s : Scope} {text : String} {ms : List (String × Value)}

def texts (s : Scope) : List String := s.sessionId.toList ++ s.userId.toList

theorem isBroadcast_iff : s.isBroadcast = true ↔ s.texts = [] := by
  obtain ⟨session, user⟩ := s
  cases session <;> cases user <;> simp [isBroadcast, texts]

theorem toList_nonEmpty (s : Option String) :
    (nonEmpty? s).toList = s.toList.filter fun t => t ≠ "" := by
  cases s with
  | none => rfl
  | some t => by_cases ht : t = "" <;> simp [nonEmpty?, Option.filter, ht]

theorem texts_of (session user : Option String) :
    (of session user).texts = (session.toList ++ user.toList).filter fun t => t ≠ "" := by
  rw [List.filter_append, ← toList_nonEmpty, ← toList_nonEmpty]
  rfl

theorem texts_normalized (s : Scope) : s.normalized.texts = s.texts.filter fun t => t ≠ "" :=
  texts_of s.sessionId s.userId

theorem nonempty_of (session user : Option String) : "" ∉ (of session user).texts := by
  simp [texts_of]

theorem normalized_eq_self (h : "" ∉ s.texts) : s.normalized = s := by
  obtain ⟨hsession, huser⟩ : s.sessionId ≠ some "" ∧ s.userId ≠ some "" := by simpa [texts] using h
  rw [normalized, of, nonEmpty?_eq_self.mpr hsession, nonEmpty?_eq_self.mpr huser]

/-- Without its empty texts a scope is that of everyone only if it had no others. -/
theorem isBroadcast_normalized (s : Scope) : s.normalized.isBroadcast = s.isBroadcast ↔
    s.texts = [] ∨ ∃ t ∈ s.texts, t ≠ "" := by
  have hnormal : s.normalized.isBroadcast = true ↔ ∀ t ∈ s.texts, t = "" := by
    rw [isBroadcast_iff, texts_normalized, List.filter_eq_nil_iff]
    simp
  rw [Bool.eq_iff_iff, hnormal, isBroadcast_iff]
  constructor
  · intro h
    by_cases hall : ∀ t ∈ s.texts, t = ""
    · exact .inl (h.mp hall)
    · simpa using Or.inr hall
  · rintro (hnone | ⟨t, ht, hne⟩)
    · simp [hnone]
    · exact ⟨fun hall => absurd (hall t ht) hne, fun hnone => by simp [hnone] at ht⟩

theorem ofDraft_value {depth : Nat} {d : Draft} (h : d.value depth = .ok (.object ms)) :
    ofDraft d = ofRow <$> (fields Value.faceOf).ofMembers Value.skipMember ms := by
  have halike : Draft.AllAlike (fields Draft.face) (fields Value.faceOf) :=
    .cons (Draft.alike_optional _ _) (.cons (Draft.alike_optional _ _) .nil)
  rw [ofDraft, Draft.record_value halike h]

theorem ofJson_ok (hd : Denotes text (.object ms)) : ofJson text = .ok s ↔
    Fields.MaybeText (valuesOf "sessionId" ms) s.sessionId ∧
      Fields.MaybeText (valuesOf "userId" ms) s.userId := by
  obtain ⟨d, hvalue, hread⟩ := readText_denoted hd
  rw [ofJson, hread, ofDraft_value hvalue, fmap_ok]
  simp only [RawEvent.scope_ok]
  constructor
  · rintro ⟨r, hr, rfl⟩
    exact hr
  · exact fun hs => ⟨(s.sessionId, s.userId, ()), hs, rfl⟩

theorem ofJson_written (s : Scope) : ofJson s.toJson = .ok s := by
  have hd : Denotes s.toJson (.object s.members) :=
    denotes_object fun m hm => (s.plain_members m hm).1
  exact (ofJson_ok hd).mpr (RawEvent.scope_ok.mp s.ofMembers_members)

example : (ofJson "[\"\", null]").toOption = some ⟨some "", none⟩ := by decide +kernel

theorem empty_of_maybeText {vs : List Value} {x : Option String} (h : Fields.MaybeText vs x) :
    "" ∈ x.toList ↔ .string "" ∈ vs := by
  rcases h with ⟨rfl | rfl, rfl⟩ | ⟨t, rfl, rfl⟩
  · simp
  · simp
  · simp

/-- There is no empty text in a scope that is made, but there is in one that is read from a text
exactly when the text has one, and every scope is read from some text. An event that is written and
read again has lost the empty texts of its scope. Whether it is for everyone stays the same exactly
when its scope had no texts, or not only empty ones. -/
theorem empty_texts (session user : Option String) (hd : Denotes text (.object ms)) (s : Scope)
    (p : Payload) :
    "" ∉ (of session user).texts ∧ "" ∉ broadcast.texts ∧
    (ofJson text = .ok s ↔ Fields.MaybeText (valuesOf "sessionId" ms) s.sessionId ∧
      Fields.MaybeText (valuesOf "userId" ms) s.userId) ∧
    (ofJson text = .ok s →
      ("" ∈ s.texts ↔ .string "" ∈ valuesOf "sessionId" ms ++ valuesOf "userId" ms)) ∧
    ofJson s.toJson = .ok s ∧
    ∃ e, Event.ofJson (Event.mk s p).toJson = .ok e ∧ e.payload = p ∧
      e.scope.texts = (s.texts.filter fun t => t ≠ "") ∧ ("" ∉ s.texts → e.scope = s) ∧
      (e.scope.isBroadcast = s.isBroadcast ↔ s.texts = [] ∨ ∃ t ∈ s.texts, t ≠ "") := by
  refine ⟨nonempty_of session user, by decide, ofJson_ok hd, fun hs => ?_, s.ofJson_written,
    ⟨s.normalized, p⟩, Event.ofJson_written ⟨s, p⟩, rfl, s.texts_normalized, normalized_eq_self,
    s.isBroadcast_normalized⟩
  obtain ⟨hsession, huser⟩ := (ofJson_ok hd).mp hs
  rw [texts, List.mem_append, List.mem_append, empty_of_maybeText hsession,
    empty_of_maybeText huser]

theorem empty_texts_oneEmpty :
    let ms := [("userId", Value.string ""), ("tenant", .string "t1"), ("sessionId", .string "S1")]
    let s : Scope := ⟨some "S1", some ""⟩
    Denotes (Value.object ms).render (.object ms) ∧ ofJson (Value.object ms).render = .ok s ∧
      ∃ e, Event.ofJson (Event.mk s .sessionExpired).toJson = .ok e ∧ e.scope.texts = ["S1"] ∧
        e.scope.isBroadcast = false := by
  intro ms s
  have hd : Denotes (Value.object ms).render (.object ms) := denotes_object (by simp [ms])
  obtain ⟨_, _, hread, _, _, e, he, _, htexts, _, hsame⟩ :=
    empty_texts none (some "") hd s .sessionExpired
  exact ⟨hd, hread.mpr ⟨.inr ⟨"S1", rfl, rfl⟩, .inr ⟨"", rfl, rfl⟩⟩, e, he, htexts,
    hsame.mpr (.inr ⟨"S1", by decide, by decide⟩)⟩

/-- A scope with an empty session is read, an event in it is for nobody, and the same event off the
wire is for everyone. -/
theorem nobody_becomes_everyone :
    let s : Scope := ⟨some "", none⟩
    ofJson "\x7b\"sessionId\":\"\"\x7d" = .ok s ∧ "" ∈ s.texts ∧
      (Event.mk s .sessionExpired).scope.isBroadcast = false ∧
      ∃ e, Event.ofJson (Event.mk s .sessionExpired).toJson = .ok e ∧
        e.scope.isBroadcast = true := by
  intro s
  have hwritten : s.toJson = "\x7b\"sessionId\":\"\"\x7d" := by decide +kernel
  exact ⟨hwritten ▸ s.ofJson_written, by decide, rfl, ⟨s.normalized, .sessionExpired⟩,
    Event.ofJson_written ⟨s, .sessionExpired⟩, rfl⟩

end Scope

end EventGateway
