import EventGateway.AdminMessage
import EventGateway.Proofs.Event.Frames
import EventGateway.Proofs.Event.Payloads
import EventGateway.Proofs.Event.Scopes
import EventGateway.Proofs.Json.Rows

/-! Messages, bodies of the admin interface, scopes and payloads on the wire. What is written of one
of them is read as the same again, also where the members of a message with a tag come in another
order. -/

namespace EventGateway

open Json

/-- The values that fit are read from what is written of them, and no others are read at all. -/
structure Survives {α : Type} (fits : α → Prop) (write : α → String)
    (read : String → Except Error α) : Prop where
  written : ∀ a, fits a → read (write a) = .ok a
  rewritten : ∀ text a, read text = .ok a → fits a ∧ read (write a) = .ok a

/-- The members of a value are read as the value in every order, and in every text that has them. -/
def SurvivesReordering {α : Type} (members : α → List (String × Value))
    (read : String → Except Error α) : Prop :=
  ∀ a ms, (members a).Perm ms → read (Value.object ms).render = .ok a ∧
    ∀ text, Denotes text (.object ms) → read text = .ok a

namespace Survives

variable {α : Type} {fits : α → Prop} {write : α → String} {read : String → Except Error α}

theorem of_fits (hwritten : ∀ a, fits a → read (write a) = .ok a)
    (hfits : ∀ text a, read text = .ok a → fits a) : Survives fits write read where
  written := hwritten
  rewritten := fun text a h => ⟨hfits text a h, hwritten a (hfits text a h)⟩

theorem of_written (hwritten : ∀ a, read (write a) = .ok a) :
    Survives (fun _ => True) write read :=
  of_fits (fun a _ => hwritten a) fun _ _ _ => trivial

end Survives

theorem survivesReordering_of_denotes {α : Type} {members : α → List (String × Value)}
    {read : String → Except Error α} (hplain : ∀ a, ∀ m ∈ members a, m.2.Plain)
    (hread : ∀ a ms text, (members a).Perm ms → Denotes text (.object ms) → read text = .ok a) :
    SurvivesReordering members read := by
  intro a ms hperm
  have hms : ∀ m ∈ ms, m.2.Plain := fun m hm => hplain a m (hperm.mem_iff.mpr hm)
  exact ⟨hread a ms _ hperm (denotes_object hms), fun text => hread a ms text hperm⟩

namespace ClientMessage

variable {m : ClientMessage} {text : String} {ms : List (String × Value)}

theorem content_ok {what : String} {make : String → ClientMessage} :
    (fun r => make r.1) <$> Value.record what fields (.object ms) = .ok m ↔
      ∃ t, valuesOf "topicId" ms = [.string t] ∧ make t = m := by
  rw [Value.record, fmap_ok]
  simp only [fields, Fields.ofMembers_last_ok, Fields.reads_text]
  constructor
  · rintro ⟨r, hr, rfl⟩
    exact ⟨r.1, hr, rfl⟩
  · rintro ⟨t, ht, rfl⟩
    exact ⟨(t, ()), ht, rfl⟩

theorem ofTagged_ok {s : String} (hs : s ∈ [subscribeId, unsubscribeId]) :
    ofTagged ⟨s, .object ms⟩ = .ok m ↔
      s = m.tag ∧ valuesOf "topicId" ms = [.string m.topicId] := by
  have hne : subscribeId ≠ unsubscribeId := by decide
  rw [ofTagged]
  by_cases hsub : s = subscribeId
  · rw [if_pos hsub, content_ok]
    constructor
    · rintro ⟨t, ht, rfl⟩
      exact ⟨hsub, ht⟩
    · rintro ⟨htag, ht⟩
      cases m with
      | subscribe t => exact ⟨t, ht, rfl⟩
      | unsubscribe t => exact absurd (hsub.symm.trans htag) hne
  · have hunsub : s = unsubscribeId := by simpa [hsub] using hs
    rw [if_neg hsub, content_ok]
    constructor
    · rintro ⟨t, ht, rfl⟩
      exact ⟨hunsub, ht⟩
    · rintro ⟨htag, ht⟩
      cases m with
      | subscribe t => exact absurd htag hsub
      | unsubscribe t => exact ⟨t, ht, rfl⟩

theorem ofDraft_object {members : List (StringToken × Draft)} {e : Ending} :
    ofDraft (.object members e) = .ok m ↔ ∃ ms,
      (Draft.object members e).value 1 = .ok (.object ms) ∧
        valuesOf "id" ms = [.string m.tag] ∧ valuesOf "topicId" ms = [.string m.topicId] := by
  rw [ofDraft, bind_ok]
  simp only [Draft.tagged_ok]
  constructor
  · rintro ⟨⟨s, content⟩, ⟨ms, hvalue, hs, hid, rfl⟩, hm⟩
    obtain ⟨rfl, htopic⟩ := (ofTagged_ok hs).mp hm
    rw [valuesOf_without (by decide)] at htopic
    exact ⟨ms, hvalue, hid, htopic⟩
  · rintro ⟨ms, hvalue, hid, htopic⟩
    have htag : m.tag ∈ [subscribeId, unsubscribeId] := by cases m <;> simp [tag]
    refine ⟨⟨m.tag, .object (without "id" ms)⟩, ⟨ms, hvalue, htag, hid, rfl⟩, ?_⟩
    rw [ofTagged_ok htag, valuesOf_without (by decide)]
    exact ⟨rfl, htopic⟩

theorem ofJson_ok (hd : Denotes text (.object ms)) : ofJson text = .ok m ↔
    valuesOf "id" ms = [.string m.tag] ∧ valuesOf "topicId" ms = [.string m.topicId] := by
  obtain ⟨d, hvalue, hread⟩ := readText_denoted hd
  obtain ⟨members, rfl, _⟩ := Draft.value_object_ok.mp hvalue
  rw [ofJson, hread, ofDraft_object]
  constructor
  · rintro ⟨ms', hvalue', hm⟩
    obtain rfl := Value.object.inj (Except.ok.inj (hvalue.symm.trans hvalue'))
    exact hm
  · exact fun hm => ⟨ms, hvalue, hm⟩

end ClientMessage

theorem ClientMessage.survives_reordering : SurvivesReordering members ofJson := by
  refine survivesReordering_of_denotes (fun m => by simp [members]) fun m ms text hperm hd => ?_
  exact (ofJson_ok hd).mpr (valuesOf_pair (by decide) hperm)

theorem Notice.survives_reordering : SurvivesReordering members ofJson := by
  refine survivesReordering_of_denotes (fun n => by simp [members]) fun n ms text hperm hd => ?_
  exact (ofJson_ok hd).mpr (valuesOf_pair (by decide) hperm)

/-! The records of the admin interface. -/

theorem StartTask.says_members (r : StartTask) :
    fields.Says (r.taskId, r.sessionId, r.userId, r.statusName, ()) r.members :=
  .text r.taskId (by decide) (.text r.sessionId (by decide)
    (.maybeText r.userId (by decide) (.lastMaybeText r.statusName)))

theorem TaskStatus.says_members (r : TaskStatus) :
    fields.Says (r.statusName, r.running, ()) r.members :=
  .maybeText r.statusName (by decide) (.flag r.running (by decide) .nil)

theorem SessionNotice.says_members (r : SessionNotice) :
    fields.Says (r.userId, ()) r.members := .lastMaybeText r.userId

theorem OwnerAnswer.says_members (r : OwnerAnswer) :
    fields.Says (r.taskId, r.sessionId, r.userId, ()) r.members :=
  .text r.taskId (by decide) (.text r.sessionId (by decide) (.lastMaybeText r.userId))

theorem OwnerAnswer.ofJson_written (r : OwnerAnswer) : ofJson r.toJson = .ok r :=
  readText_said r.says_members _ _

theorem Topic.ofDraft_name (t : Topic) : ofDraft (Value.string t.name).draft = .ok t := by
  cases t <;> rfl

namespace Receipt

theorem says_members {r : Receipt} (hr : r.recipients < UInt64.size) :
    fields.Says (r.eventId, r.topic, r.recipients, ()) r.members := by
  have hcount : Fields.Says (.cons (.scalar Draft.face "recipients" Face.count) .nil)
      (r.recipients, ()) [("recipients", .int r.recipients)] := .count hr List.not_mem_nil .nil
  have htopic := Fields.Says.member (f := { name := "topic", read := Topic.ofDraft })
    (Value.plain_string r.topic.name) r.topic.ofDraft_name (by decide) hcount
  exact .text r.eventId (by decide) htopic

theorem ofJson_written {r : Receipt} (hr : r.recipients < UInt64.size) : ofJson r.toJson = .ok r :=
  readText_said (says_members hr) _ _

theorem recipients_lt {text : String} {r : Receipt} (h : ofJson text = .ok r) :
    r.recipients < UInt64.size := by
  obtain ⟨d, _, h⟩ := readText_ok.mp h
  obtain ⟨row, hrow, rfl⟩ := fmap_ok.mp h
  obtain ⟨_, _, hcount, _⟩ := Draft.give_record hrow
  exact Field.lt_of_gives_count hcount

end Receipt

theorem Payload.kind_of_ofJson {k : Kind} {text : String} {p : Payload}
    (h : ofJson k text = .ok p) : p.kind = k := by
  obtain ⟨d, _, h⟩ := readText_ok.mp h
  cases k with
  | configurationChanged | sessionExpired | sessionLogUpdated | sessionState =>
    obtain ⟨_, _, rfl⟩ := fmap_ok.mp h
    rfl
  | taskInfoUpdated =>
    obtain ⟨r, _, h⟩ := bind_ok.mp h
    obtain ⟨i, rfl, _⟩ := ofTaskRow_ok.mp h
    rfl

theorem Payload.ofJson_written (p : Payload) : ofJson p.kind p.toJson = .ok p :=
  (ofJson_ok p.denotes_toJson).mpr p.ofMembers_members

/-- Every message, every body of the admin interface, every scope and every payload is read as
itself from what is written of it, whatever texts are in it and whichever of them are left out, and
so is what was read from any text, a list too. The recipients of a receipt are a number of 64 bits.
A message with a tag does not depend on the order of its members. -/
theorem survive_wire :
    (Survives (fun _ => True) ClientMessage.toJson ClientMessage.ofJson ∧
      SurvivesReordering ClientMessage.members ClientMessage.ofJson) ∧
    (Survives (fun _ => True) Notice.toJson Notice.ofJson ∧
      SurvivesReordering Notice.members Notice.ofJson) ∧
    Survives (fun _ => True) StartTask.toJson StartTask.ofJson ∧
    Survives (fun _ => True) TaskStatus.toJson TaskStatus.ofJson ∧
    Survives (fun _ => True) SessionNotice.toJson SessionNotice.ofJson ∧
    Survives (fun r : Receipt => r.recipients < UInt64.size) Receipt.toJson Receipt.ofJson ∧
    Survives (fun _ => True) OwnerAnswer.toJson OwnerAnswer.ofJson ∧
    Survives (fun _ => True) Scope.toJson Scope.ofJson ∧
    ∀ k, Survives (fun p : Payload => p.kind = k) Payload.toJson (Payload.ofJson k) := by
  have hmessage (m : ClientMessage) : ClientMessage.ofJson m.toJson = .ok m :=
    (ClientMessage.survives_reordering m m.members (.refl _)).1
  have hnotice (n : Notice) : Notice.ofJson n.toJson = .ok n :=
    (Notice.survives_reordering n n.members (.refl _)).1
  have hstart (r : StartTask) : StartTask.ofJson r.toJson = .ok r :=
    readText_said r.says_members _ _
  have hstatus (r : TaskStatus) : TaskStatus.ofJson r.toJson = .ok r :=
    readText_said r.says_members _ _
  have hsession (r : SessionNotice) : SessionNotice.ofJson r.toJson = .ok r :=
    readText_said r.says_members _ _
  refine ⟨⟨.of_written hmessage, ClientMessage.survives_reordering⟩,
    ⟨.of_written hnotice, Notice.survives_reordering⟩, .of_written hstart, .of_written hstatus,
    .of_written hsession,
    .of_fits (fun _ => Receipt.ofJson_written) fun _ _ => Receipt.recipients_lt,
    .of_written OwnerAnswer.ofJson_written, .of_written Scope.ofJson_written,
    fun k => .of_fits ?_ fun _ _ => Payload.kind_of_ofJson⟩
  rintro p rfl
  exact p.ofJson_written

theorem survive_wire_reordered :
    let m := ClientMessage.subscribe "cb_\"\u0007é🜁"
    let r : Receipt := ⟨"", .sessionLog, UInt64.size - 1⟩
    let s : StartTask := ⟨"T1", "", some "", none⟩
    ClientMessage.ofJson (Value.object m.members.reverse).render = .ok m ∧
      Receipt.ofJson r.toJson = .ok r ∧
      StartTask.ofJson "[\"T1\",\"\",\"\",null]" = .ok s ∧ StartTask.ofJson s.toJson = .ok s := by
  intro m r s
  obtain ⟨⟨_, hreordered⟩, _, hstart, _, _, hreceipt, _⟩ := survive_wire
  have hread : StartTask.ofJson "[\"T1\",\"\",\"\",null]" = .ok s :=
    toOption_ok.mp (by decide +kernel)
  exact ⟨(hreordered m _ m.members.reverse_perm.symm).1, hreceipt.written r (by decide), hread,
    (hstart.rewritten _ s hread).2⟩

end EventGateway
