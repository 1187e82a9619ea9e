import EventGateway.Proofs.Event.Acceptance
import EventGateway.Proofs.Event.RoundTrip

/-! Three readers look at one text: one at its id alone, one for a notice and one for an event. What
each makes of an object is said of the members that the text denotes, so that they agree however
these are written and whatever stands between them. -/

namespace EventGateway

open Json

variable {text : String} {ms : List (String × Value)}

namespace Notice

variable {n : Notice}

theorem content_ok {ms : List (String × Value)} :
    (fun r => (⟨r.1⟩ : Notice)) <$> Value.record "struct variant WsServerNotice::Error" fields
      (.object ms) = .ok n ↔ valuesOf "message" ms = [.string n.message] := by
  rw [Value.record, fmap_ok]
  simp only [fields, Fields.ofMembers_last_ok, Fields.reads_text]
  constructor
  · rintro ⟨r, hr, rfl⟩
    exact hr
  · exact fun h => ⟨(n.message, ()), h, rfl⟩

theorem ofDraft_object {members : List (StringToken × Draft)} {e : Ending} :
    ofDraft (.object members e) = .ok n ↔ ∃ ms,
      (Draft.object members e).value 1 = .ok (.object ms) ∧
        valuesOf "id" ms = [.string Notice.id] ∧ valuesOf "message" ms = [.string n.message] := by
  rw [ofDraft, bind_ok]
  simp only [Draft.tagged_ok, List.mem_singleton]
  constructor
  · rintro ⟨⟨s, content⟩, ⟨ms, hvalue, rfl, hid, rfl⟩, hn⟩
    rw [content_ok, valuesOf_without (by decide)] at hn
    exact ⟨ms, hvalue, hid, hn⟩
  · rintro ⟨ms, hvalue, hid, hn⟩
    refine ⟨⟨id, .object (without "id" ms)⟩, ⟨ms, hvalue, rfl, hid, rfl⟩, ?_⟩
    rwa [content_ok, valuesOf_without (by decide)]

/-- A list of one item has the id of a notice at most, and no message. -/
theorem ofDraft_one (d : Draft) (e : Ending) : ofDraft (.array [d] e) ≠ .ok n := by
  intro h
  rw [ofDraft, bind_ok] at h
  obtain ⟨t, ht, h⟩ := h
  rw [Draft.tagged, bind_ok] at ht
  obtain ⟨v, _, ht⟩ := ht
  obtain ⟨vs, hvs, ht⟩ := bind_ok.mp ht
  obtain rfl : [] = vs := Except.ok.inj hvs
  obtain ⟨_, _, ht⟩ := bind_ok.mp ht
  obtain rfl := ok_inj.mp ht
  cases h

theorem ofJson_ok (hd : Denotes text (.object ms)) : ofJson text = .ok n ↔
    valuesOf "id" ms = [.string Notice.id] ∧ valuesOf "message" ms = [.string n.message] := by
  obtain ⟨d, hvalue, hread⟩ := readText_denoted hd
  obtain ⟨members, rfl, _⟩ := Draft.value_object_ok.mp hvalue
  rw [ofJson, hread, ofDraft_object]
  constructor
  · rintro ⟨ms', hvalue', hn⟩
    obtain rfl := Value.object.inj (Except.ok.inj (hvalue.symm.trans hvalue'))
    exact hn
  · exact fun hn => ⟨ms, hvalue, hn⟩

end Notice

namespace Frame

theorem peek_ok {d : Draft} {id : String} :
    (fun r => r.1) <$> d.record "struct Peek" idFields = .ok id ↔
      d.record "struct Peek" idFields = .ok (id, ()) := by
  rw [fmap_ok]
  constructor
  · rintro ⟨r, hr, rfl⟩
    exact hr
  · exact fun h => ⟨_, h, rfl⟩

theorem readId_ok (hd : Denotes text (.object ms)) {id : String} :
    readId text = .ok id ↔ valuesOf "id" ms = [.string id] := by
  obtain ⟨d, hvalue, hread⟩ := readText_denoted hd
  rw [readId, hread, peek_ok]
  exact (Draft.record_value_ok hvalue).trans Fields.reads_text

/-- Of the lists only those of one item have an id. -/
theorem peek_list {items : List Draft} {e : Ending} {row : Row [String]}
    (h : (Draft.array items e).record "struct Peek" idFields = .ok row) : ∃ d, items = [d] := by
  rw [Draft.record, bind_ok] at h
  obtain ⟨⟨row', rest⟩, hrow, h⟩ := h
  obtain ⟨_, hend, _⟩ := bind_ok.mp h
  cases items with
  | nil =>
    obtain ⟨_, _, hrow⟩ := bind_ok.mp hrow
    cases hrow
  | cons d r =>
    obtain ⟨a, _, hrow⟩ := bind_ok.mp hrow
    obtain rfl : r = rest := congrArg Prod.snd (Except.ok.inj hrow)
    cases r with
    | nil => exact ⟨d, rfl⟩
    | cons x r => cases x <;> cases hend

/-- What has an id and is a notice is an object, although a notice may also be read from a list. -/
theorem denotes_of_notice {n : Notice} {id : String} (hid : readId text = .ok id)
    (hn : Notice.ofJson text = .ok n) : ∃ ms, Denotes text (.object ms) := by
  obtain ⟨d, hd, hn⟩ := readText_ok.mp hn
  obtain ⟨d', hd', hid⟩ := readText_ok.mp hid
  obtain ⟨rfl, _⟩ := Prod.mk.inj (hd.symm.trans hd')
  -- A list that is long enough for a notice is too long for the reader of the id.
  cases d with
  | object members e =>
    obtain ⟨ms, hvalue, _⟩ := Notice.ofDraft_object.mp hn
    exact ⟨ms, Draft.denotes_iff.mpr ⟨_, hd, hvalue⟩⟩
  | array items e =>
    obtain ⟨d, rfl⟩ := peek_list (peek_ok.mp hid)
    exact absurd hn (Notice.ofDraft_one d e)
  | null | bool _ | word _ | number _ | string _ | absent _ | uncoloned _ =>
    exact absurd (peek_ok.mp hid) (Draft.mismatch_ne_ok _ _ _)

theorem event_iff {e : Event} : ofJson text = .ok (.event e) ↔ Event.ofJson text = .ok e := by
  constructor
  · intro h
    unfold ofJson at h
    split at h
    · exact nomatch h
    split at h
    · split at h
      · exact nomatch h
      · exact nomatch h
    · obtain ⟨e', he, heq⟩ := map_ok.mp h
      obtain rfl := Frame.event.inj heq
      exact he
  · intro he
    obtain ⟨ms, session, user, hd, hr, _⟩ := Event.ofJson_ok.mp he
    rw [ofJson, (readId_ok hd).mpr hr.id_eq]
    simp only [if_neg (Event.id_ne_notice e.kind), he]
    rfl

theorem notice_iff {n : Notice} : ofJson text = .ok (.notice n) ↔
    (∃ ms, Denotes text (.object ms)) ∧ Notice.ofJson text = .ok n := by
  constructor
  · intro h
    unfold ofJson at h
    split at h
    · exact nomatch h
    next id hid =>
    split at h
    · split at h
      · exact nomatch h
      next m hm =>
        obtain rfl := Frame.notice.inj (Except.ok.inj h)
        exact ⟨denotes_of_notice hid hm, hm⟩
    · obtain ⟨e', _, heq⟩ := map_ok.mp h
      exact nomatch heq
  · rintro ⟨⟨ms, hd⟩, hn⟩
    have hid : readId text = .ok Notice.id := (readId_ok hd).mpr ((Notice.ofJson_ok hd).mp hn).1
    rw [ofJson, hid]
    simp only [if_true, hn]

example : (Notice.ofJson "[\"cb_server_error\",\"nope\"]").toOption = some ⟨"nope"⟩ ∧
    (ofJson "[\"cb_server_error\",\"nope\"]").toOption = none := by decide +kernel

theorem event_not_notice {e : Event} (he : Event.ofJson text = .ok e) (n : Notice) :
    Notice.ofJson text ≠ .ok n := by
  intro hn
  obtain ⟨ms, session, user, hd, hr, _⟩ := Event.ofJson_ok.mp he
  have hid := hr.id_eq.symm.trans ((Notice.ofJson_ok hd).mp hn).1
  simp at hid
  exact Event.id_ne_notice e.kind hid

theorem notice_written (n : Notice) : ofJson n.toJson = .ok (.notice n) := by
  have hplain : ∀ m ∈ n.members, m.2.Plain := by simp [Notice.members]
  have hd : Denotes n.toJson (.object n.members) := denotes_object hplain
  refine notice_iff.mpr ⟨⟨_, hd⟩, (Notice.ofJson_ok hd).mpr ⟨?_, ?_⟩⟩
  · simp [Notice.members, valuesOf]
  · simp [Notice.members, valuesOf]

end Frame

end EventGateway
