import EventGateway.Proofs.Cli.Reloads

/-! Publisher, streams and the check at the start go by one registry, from the start of the program
to its end. -/

namespace EventGateway.Cli

/-- The publisher refuses an event for its topic, and then without a call of the transport, exactly
when the name of the topic does not resolve, which is when a stream tells its client that the topic
is invalid. Otherwise it makes one call, with the event, its topic and the filter of its scope, and
gives the answer. The check of kinds passes exactly if none of them can ever be refused, and names
the first that can. So the announcement of a program that has started is never refused. -/
theorem registry_agrees :
    (∀ (r : Registry) (e : Event) (σ : Type) (send : Transport σ) (s : σ)
      (calls : List (Topic × Filter × Event)),
      let p := r.publish send.noting e (s, calls)
      ((∃ u, p.1 = .error (.unknownTopic u)) ↔ ∃ x, r.resolve e.topic.name = .error x) ∧
      (∀ u, p.1 = .error (.unknownTopic u) → u = e.topic ∧ p.2 = (s, calls)) ∧
      (r.contains e.topic = true →
        let f : Filter := ⟨e.scope.sessionId, e.scope.userId⟩
        p = ((send e.topic f e s).1.mapError .delivery, (send e.topic f e s).2,
          calls ++ [(e.topic, f, e)]))) ∧
    (∀ (position : String → Json.Error → String) (r : Registry) (t : Topic) (text : String)
      (m : ClientMessage) (c : Connection) (h : Hub),
      ClientMessage.ofJson text = .ok m → m.topicId = t.name →
      ((∃ x : InvalidTopic, (c.receiveText position r h text).1.sent =
          c.sent ++ [.frame (.notice ⟨x.message⟩)]) ↔ ∃ x, r.resolve t.name = .error x) ∧
      ∀ x, r.resolve t.name = .error x →
        c.receiveText position r h text = (c.send (.frame (.notice ⟨x.message⟩)), h)) ∧
    (∀ (r : Registry) (ks : List Kind),
      (r.ensureKinds ks = .ok () ↔ ∀ k ∈ ks, ¬r.CanRefuse k) ∧
      ∀ x, r.ensureKinds ks = .error x ↔ ∃ before k after, ks = before ++ k :: after ∧
        (∀ j ∈ before, ¬r.CanRefuse j) ∧ r.CanRefuse k ∧
        x = ⟨k.topic.name ++ " (required by " ++ k.id ++ ")"⟩) ∧
    ∀ (w : Surroundings) (a : Arguments) (d : Directory) (l : Listening),
      (start w a d).state = .ok l → ∀ (verify : Verifier) (turns : List Turn),
      ¬(World.run verify ⟨l, (start w a d).directory⟩ turns).service.registry.CanRefuse
        .configurationChanged := by
  refine ⟨fun r e σ send s calls => ?_, fun position r t text m c h hm hname => ?_, fun r ks => ?_,
    fun w a d l hstart verify turns => ?_⟩
  · refine ⟨Registry.publish_unknown.trans Registry.resolve_fails.symm, fun u hu => ?_,
      fun hr => ?_⟩
    · have hr := Registry.publish_unknown.mp ⟨u, hu⟩
      rw [Registry.publish_disabled hr] at hu ⊢
      exact ⟨PublishError.unknownTopic.inj (Except.error.inj hu.symm), rfl⟩
    · exact Registry.publish_enabled hr send.noting (s, calls)
  · have hanswer := Connection.answered_receiveText hm hname position r c h
    refine ⟨hanswer.told.trans Registry.resolve_fails.symm, fun x hx => ?_⟩
    have hr := Registry.resolve_fails.mp ⟨x, hx⟩
    rw [Registry.resolve_name, hr] at hx
    obtain rfl := Except.error.inj hx
    exact hanswer.disabled hr
  · simp only [Registry.canRefuse_iff, Bool.not_eq_false]
    exact ⟨Registry.ensureKinds_ok, fun x => Registry.ensureKinds_error⟩
  · simp [Registry.canRefuse_iff, serves_announcements hstart verify turns]

def asksForChanges : String :=
  "\x7b\"id\":\"cb_client_topic_subscribe\",\"topicId\":\"cb_config\"\x7d"

/-- With the sessions alone, neither the announcement nor a listener for it is let through. -/
theorem registry_agrees_sessions :
    let r : Registry := .ofTopics [.session]
    let c := Connection.new {}
    ClientMessage.ofJson asksForChanges = .ok (.subscribe Topic.serverConfig.name) ∧
    c.receiveText (fun _ _ => "") r (Hub.new 4) asksForChanges =
      (c.send (.frame (.notice ⟨"invalid topic: cb_config"⟩)), Hub.new 4) ∧
    (∃ u, (r.publish Hub.transport.noting .announcement (Hub.new 4, [])).1 =
      .error (.unknownTopic u)) ∧
    (start quiet ⟨"gateway.toml", none⟩ (holding firstText)).state = .ok firstListening ∧
    ¬(World.run (fun _ _ => true)
      ⟨firstListening, (start quiet ⟨"gateway.toml", none⟩ (holding firstText)).directory⟩
      (narrowing ++ [.attempt id])).service.registry.CanRefuse .configurationChanged := by
  intro r c
  obtain ⟨hpublish, hclient, -, hprogram⟩ := registry_agrees
  have hresolve : r.resolve Topic.serverConfig.name = .error ⟨Topic.serverConfig.name⟩ :=
    r.resolve_name .serverConfig
  have hm : ClientMessage.ofJson asksForChanges = .ok (.subscribe Topic.serverConfig.name) := by
    decide +kernel
  exact ⟨hm, (hclient _ r .serverConfig asksForChanges _ c (Hub.new 4) hm rfl).2 _ hresolve,
    (hpublish r .announcement Hub Hub.transport (Hub.new 4) []).1.mpr ⟨_, hresolve⟩, start_first,
    hprogram _ _ _ _ start_first _ _⟩

end EventGateway.Cli
