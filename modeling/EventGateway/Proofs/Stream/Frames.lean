import EventGateway.Proofs.Event.Frames
import EventGateway.Proofs.Stream.Changes
import EventGateway.Proofs.Stream.Isolation

/-! Whatever a stream sends on is a frame that its client reads as it was written. An event is sent
only to whom it is for, and no listener has an empty session or user, so that no event which is sent
has an empty text in its scope. -/

namespace EventGateway

/-- Since no listener has an empty session or user, no event with one of these reaches any. -/
theorem Event.normalized_of_reaches {r : Registry} {fresh : String} {f : Filter} {e : Event}
    (hfresh : fresh ≠ "") (h : Reaches r (Identity.settle fresh f) e) : e.normalized = e := by
  obtain ⟨hsession, huser⟩ := reaches_settled h
  have hmade (s : Option String) : s.filter (· ≠ "") ≠ some "" := by
    simp [Option.filter_eq_some_iff]
  have hsession' : e.scope.sessionId ≠ some "" := by
    rcases hsession with hnone | hown
    · simp [hnone]
    · rw [hown]
      cases hs : f.sessionId.filter (· ≠ "") with
      | none => simpa using hfresh
      | some s => exact hs ▸ hmade f.sessionId
  have huser' : e.scope.userId ≠ some "" := by
    rcases huser with hnone | hown
    · simp [hnone]
    · exact hown ▸ hmade f.userId
  rw [normalized, Scope.normalized, Scope.of, nonEmpty?_eq_self.mpr hsession',
    nonEmpty?_eq_self.mpr huser']

theorem Act.sent_of_output {verify : Verifier} {a : Act} {g g' : Gateway} {n : Nat}
    {c c' : Connection} {e : Event} (hc : g.connections[n]? = some c)
    (hc' : g'.connections[n]? = some c') (he : .frame (.event e) ∈ c'.sent.drop c.sent.length) :
    .sent e ∈ a.marks verify g g' n := by
  have houtput : .sent e ∈ c.output c' :=
    List.mem_map.mpr ⟨e, List.mem_filterMap.mpr ⟨_, he, rfl⟩, rfl⟩
  simp only [marks, hc, hc']
  exact List.mem_append_right _ (List.mem_append_right _ houtput)

theorem Connection.Step.sent {c : Connection} {h : Hub} {p : Connection × Hub} (hp : c.Step h p)
    {o : Outgoing} (ho : o ∈ p.1.sent) : o ∈ c.sent ∨ o ∈ p.1.sent.drop c.sent.length := by
  cases hp with
  | sends x => simpa [Connection.send] using ho
  | forwards _ _ => simpa [Connection.send] using ho
  | collects => cases ho
  | idle | subscribes _ _ _ | unsubscribes _ | releases | lets _ _ => exact .inl ho

theorem Gateway.Change.sent {g g' : Gateway} {who : Option Nat} (hg : g.Change who g') {n : Nat}
    {c' : Connection} (hc' : g'.connections[n]? = some c') {o : Outgoing} (ho : o ∈ c'.sent) :
    ∃ c, g.connections[n]? = some c ∧ (o ∈ c.sent ∨ o ∈ c'.sent.drop c.sent.length) := by
  cases hg with
  | idle | service _ _ => exact ⟨c', hc', .inl ho⟩
  | opens identity =>
    rcases Nat.lt_or_ge n g.connections.length with hlt | hge
    · exact ⟨c', List.getElem?_append_left hlt ▸ hc', .inl ho⟩
    · rw [List.getElem?_append_right hge] at hc'
      obtain rfl := List.mem_singleton.mp (List.mem_of_getElem? hc')
      exact nomatch ho
  | @stream k c p hc hp =>
    by_cases hk : k = n
    · subst hk
      rw [List.getElem?_set_self (List.getElem?_eq_some_iff.mp hc).1] at hc'
      obtain rfl := Option.some.inj hc'
      exact ⟨c, hc, hp.sent ho⟩
    · rw [List.getElem?_set_ne hk] at hc'
      exact ⟨c', hc', .inl ho⟩

namespace Journal

/-- The history of a stream tells of every event that it still has to hand over. -/
def Tells (J : Journal) : Prop :=
  ∀ n c e, J.gateway.connections[n]? = some c → .frame (.event e) ∈ c.sent → .sent e ∈ J.log n

variable {verify : Verifier} {J : Journal} {g : Gateway}

theorem Tells.step (hJ : J.Tells) (a : Act) : (J.step verify a).Tells := by
  intro n c' e hc' he
  obtain ⟨c, hc, hold | hnew⟩ := (Gateway.change_act verify J.gateway a).sent hc' he
  · exact List.mem_append_left _ (hJ n c e hc hold)
  · exact List.mem_append_right _ (Act.sent_of_output hc hc' hnew)

theorem tells_ofRun (hg : g.connections = []) (acts : List Act) : (ofRun verify g acts).Tells := by
  have hstart : (⟨g, fun _ => []⟩ : Journal).Tells := fun n c e hc _ => by simp [hg] at hc
  exact List.foldlRecOn acts _ hstart fun J hJ a _ => hJ.step a

/-- An event that a stream has sent and not yet handed over is for the listener for whom the stream
was opened. -/
theorem sent_reaches (verify : Verifier) (runtime : Runtime) (r : Registry) (positions : Positions)
    (capacity : Nat) (acts : List Act) {n : Nat} {c : Connection} {e : Event}
    (hc : ((Gateway.start (Service.start runtime r positions capacity)).run verify
      acts).connections[n]? = some c)
    (he : .frame (.event e) ∈ c.sent) :
    ∃ fresh query f, .connect fresh query ∈ acts ∧ Identity.ofQuery query = .ok f ∧
      Reaches r (Identity.settle fresh f) e := by
  obtain ⟨own, hs⟩ := sound_ofRun verify runtime r positions capacity acts
  have ho := opened_ofRun verify runtime r positions capacity acts
  rw [← gateway_ofRun] at hc
  have hsent := tells_ofRun rfl acts n c e hc he
  rcases hs.orderly n with hnil | ⟨fresh, f, M, hopened, hord⟩
  · rw [hnil] at hsent
    cases hsent
  · obtain ⟨A, B, hsplit⟩ := List.append_of_mem hsent
    obtain ⟨query, hquery, hf⟩ := exists_connect_of_opening (ho.first n fresh f M hopened)
    exact ⟨fresh, query, f, hquery, hf, (hord A e B hsplit).1⟩

/-- An event that a stream has sent and not yet handed over has no empty texts in its scope. -/
theorem sent_normalized {verify : Verifier} {runtime : Runtime} {r : Registry}
    {positions : Positions} {capacity : Nat} {acts : List Act} {n : Nat} {c : Connection} {e : Event}
    (hfresh : ∀ fresh query, .connect fresh query ∈ acts → fresh ≠ "")
    (hc : ((Gateway.start (Service.start runtime r positions capacity)).run verify
      acts).connections[n]? = some c)
    (he : .frame (.event e) ∈ c.sent) : e.normalized = e := by
  obtain ⟨fresh, query, f, hquery, _, hreaches⟩ :=
    sent_reaches verify runtime r positions capacity acts hc he
  exact Event.normalized_of_reaches (hfresh fresh query hquery) hreaches

end Journal

namespace Frame

/-- A text is read as an event exactly when it is one, and as a notice exactly when it is an object
that is one; none is both. So whatever a stream sends, a notice with any message or an event, is
read by its client as the frame that was written, if no listener is given an empty session. -/
theorem reading_disjoint :
    (∀ text e, ofJson text = .ok (.event e) ↔ Event.ofJson text = .ok e) ∧
    (∀ text n, ofJson text = .ok (.notice n) ↔
      (∃ ms, Json.Denotes text (.object ms)) ∧ Notice.ofJson text = .ok n) ∧
    (∀ text e n, ¬ (Event.ofJson text = .ok e ∧
      (∃ ms, Json.Denotes text (.object ms)) ∧ Notice.ofJson text = .ok n)) ∧
    (∀ n : Notice, ofJson n.toJson = .ok (.notice n)) ∧
    (∀ p session user, ofJson (Event.scopedTo p session user).toJson =
      .ok (.event (.scopedTo p session user))) ∧
    ∀ verify runtime r positions capacity acts,
      (∀ fresh query, .connect fresh query ∈ acts → fresh ≠ "") →
      ∀ (k : Nat) c f,
        ((Gateway.start (Service.start runtime r positions capacity)).run verify
          acts).connections[k]? = some c →
        .frame f ∈ c.sent → ofJson f.toJson = .ok f := by
  refine ⟨fun _ _ => event_iff, fun _ _ => notice_iff,
    fun _ _ n ⟨he, _, hn⟩ => event_not_notice he n hn, notice_written, fun p session user => ?_, ?_⟩
  · rw [Event.frame_written, Event.normalized_scopedTo]
  · intro verify runtime r positions capacity acts hfresh k c f hc hf
    cases f with
    | notice n => exact notice_written n
    | event e => rw [Frame.toJson, e.frame_written, Journal.sent_normalized hfresh hc hf]

/-- A client sends what is no message, then asks for changes of the configuration. -/
def misspelt : List Act :=
  let subscribe : Incoming :=
    .text "\x7b\"id\":\"cb_client_topic_subscribe\",\"topicId\":\"cb_config\"\x7d"
  [.connect "F1" "sessionId=S1", .receive 0 (.text "\"\\"), .receive 0 subscribe,
    .reload ⟨.v4 127 0 0 1 8080, ""⟩, .publish (.new .configurationChanged), .poll 0 .serverConfig]

/-- The reader of JSON tells where a text breaks off. -/
def misspeltStart : Gateway :=
  Gateway.start (Service.start ⟨.v4 127 0 0 1 8080, ""⟩ .all
    ⟨fun _ _ => " at line 1 column 2", fun _ _ => ""⟩ 4)

def misspeltSent : List Outgoing :=
  ((misspeltStart.run (fun _ _ => true) misspelt).connections[0]?.map Connection.sent).getD []

theorem misspelt_fresh (fresh query : String) (h : .connect fresh query ∈ misspelt) :
    fresh ≠ "" := by
  obtain ⟨rfl, rfl⟩ : fresh = "F1" ∧ query = "sessionId=S1" := by simpa [misspelt] using h
  decide

theorem misspelt_opened : ∃ c,
    (misspeltStart.run (fun _ _ => true) misspelt).connections[0]? = some c ∧
      c.sent = misspeltSent := by
  obtain ⟨c, hc⟩ := Option.isSome_iff_exists.mp
    (show ((misspeltStart.run (fun _ _ => true) misspelt).connections[0]?).isSome = true by
      decide +kernel)
  exact ⟨c, hc, by simp [misspeltSent, hc]⟩

theorem reading_disjoint_misspelt :
    misspeltSent.map (fun o => (o.notice?, o.event?)) =
      [(some ⟨"invalid client message: EOF while parsing a string at line 1 column 2"⟩, none),
        (none, some (.new .configurationChanged))] ∧
    ∀ f, .frame f ∈ misspeltSent → ofJson f.toJson = .ok f := by
  obtain ⟨c, hc, hsent⟩ := misspelt_opened
  refine ⟨by decide +kernel, fun f hf => ?_⟩
  exact reading_disjoint.2.2.2.2.2 _ _ _ _ _ _ misspelt_fresh 0 c f hc (hsent ▸ hf)

end Frame

end EventGateway
