import EventGateway.Proofs.Cli.Lifetime
import EventGateway.Proofs.Config.Reloading

/-! What a reload does to the running program. The address and the secret are replaced and everyone
is told; topics, buffer, tasks and subscriptions are those of before. -/

namespace EventGateway

/-- What everyone is told when the configuration has changed. -/
def Event.announcement : Event := .new .configurationChanged

namespace Hub

variable {h : Hub}

/-- Whether somebody who is to have everything on the topic holds the subscription, with room. -/
def awaits (h : Hub) (t : Topic) (id : SubscriptionId) : Bool :=
  !h.closed && h.slots.any fun s =>
    s.id = id && s.topic = t && h.held id && (h.queue id).length < h.capacity

/-- An event without a scope is for everyone on its topic. -/
theorem delivers_unscoped (h : Hub) (t : Topic) (id : SubscriptionId) :
    h.delivers t {} id = h.awaits t id := by
  have hadmits : ∀ who : Filter, Filter.admits {} who = true := fun _ => rfl
  rw [Bool.eq_iff_iff]
  simp only [delivers, awaits, takes, addressed, hasRoom, hadmits, Bool.and_eq_true,
    List.any_eq_true, decide_eq_true_eq]
  constructor
  · rintro ⟨hopen, s, hs, rfl, ⟨⟨rfl, _⟩, hheld⟩, hroom⟩
    exact ⟨hopen, s, hs, ⟨⟨rfl, rfl⟩, hheld⟩, hroom⟩
  · rintro ⟨hopen, s, hs, ⟨⟨rfl, rfl⟩, hheld⟩, hroom⟩
    exact ⟨hopen, s, hs, rfl, ⟨⟨rfl, trivial⟩, hheld⟩, hroom⟩

end Hub

namespace Cli

/-- The program after a load that has succeeded. -/
structure Reloaded (hash : String → String) (W W' : World) : Prop where
  loader : W'.loader = W.loader
  /-- The address and the secret of the file that was there, but for the address that was given. -/
  runtime : ∃ text s, W.directory.readText W.loader.name = .ok text ∧
    Settings.ofText text = .ok s ∧ W'.service.runtime =
      ⟨W.loader.listen.getD s.listen, if s.isHashed then s.secret else hash s.secret⟩
  registry : W'.service.registry = W.service.registry
  tasks : W'.service.tasks = W.service.tasks
  connections : W'.gateway.connections = W.gateway.connections
  /-- The one thing done with the hub is to publish the announcement, which an open one takes. -/
  hub : W'.service.hub = (W.service.hub.publish .serverConfig {} .announcement).2
  published : W.service.hub.closed = false →
    ∃ n, (W.service.hub.publish .serverConfig {} .announcement).1 = .ok n
  queue : ∀ id, W'.service.hub.queue id = W.service.hub.queue id ++
    if W.service.hub.awaits .serverConfig id then [.announcement] else []
  held : ∀ id, W'.service.hub.held id = W.service.hub.held id
  slots : ∀ s ∈ W.service.hub.slots, W.service.hub.held s.id = true → s ∈ W'.service.hub.slots

theorem runtime_of_load {l : Loader} {hash : String → String} {d d' : Directory} {x : Loaded}
    (hload : l.load hash d = (.ok x, d')) : ∃ text s, d.readText l.name = .ok text ∧
      Settings.ofText text = .ok s ∧
      x.runtime = ⟨l.listen.getD s.listen, if s.isHashed then s.secret else hash s.secret⟩ := by
  obtain ⟨_, _, hread, _, hcase⟩ := Loader.load_ok hload
  obtain ⟨text, s, htext, hs, rfl⟩ := Loader.read_ok.mp hread
  refine ⟨text, s, htext, hs, ?_⟩
  rcases hcase with ⟨hhashed, rfl, _⟩ | ⟨hhashed, rfl, _⟩
  · rw [if_pos (show s.isHashed = true from hhashed)]
    rfl
  · rw [if_neg (Bool.eq_false_iff.mp (show s.isHashed = false from hhashed))]
    rfl

variable {W : World} {hash : String → String} {d : Directory}

theorem reloaded_turn (verify : Verifier) {c : Loaded}
    (hload : W.loader.load hash W.directory = (.ok c, d))
    (hserved : W.service.registry.contains .serverConfig = true) (hv : W.service.hub.Valid) :
    Reloaded hash W (W.turn verify (.attempt hash)) := by
  have hturn : W.turn verify (.attempt hash) =
      ⟨⟨W.loader, W.gateway.act verify (.reload c.runtime)⟩, d⟩ := World.turn_loaded hload
  have hhub : (W.gateway.act verify (.reload c.runtime)).service.hub =
      (W.service.hub.publish .serverConfig {} .announcement).2 :=
    spread_served hserved W.service.hub
  rw [hturn]
  exact
    { loader := rfl
      runtime := runtime_of_load hload
      registry := rfl
      tasks := rfl
      connections := rfl
      hub := hhub
      published := fun hopen => by simp [Hub.publish, hopen]
      queue := fun id => by
        have hqueue := Hub.queue_publish hv.nodup .serverConfig {} .announcement id
        rw [Hub.delivers_unscoped] at hqueue
        exact (congrArg (Hub.queue · id) hhub).trans hqueue
      held := fun id => (congrArg (Hub.held · id) hhub).trans (Hub.held_publish hv.nodup _ _ _ id)
      slots := fun s hs hheld => by
        have hmem : s ∈ (W.service.hub.publish .serverConfig {} .announcement).2.slots :=
          Hub.mem_slots_publish_of_held hs hheld
        exact hhub ▸ hmem }

/-- A reload replaces the address and the secret, and nothing else. However often the program has
been told to load its configuration, and whatever requests and messages have come in between, it
serves the topics and has the buffer of its start. A load that fails changes nothing. One that
succeeds puts in the address and the secret of the file, and publishes one announcement without a
scope to all that listen for it. -/
theorem reload_replaces_runtime {w : Surroundings} {a : Arguments} {l : Listening}
    (hstart : (start w a d).state = .ok l) (verify : Verifier) (turns : List Turn) :
    let W := World.run verify ⟨l, (start w a d).directory⟩ turns
    ∃ c, l.loader.load w.hash d = (.ok c, (start w a d).directory) ∧
      l.gateway.service.runtime = c.runtime ∧
      W.loader = l.loader ∧ W.service.registry = c.registry ∧
      W.service.hub.capacity = c.subscriberBuffer ∧
      (∀ t, (W.turn verify t).service.runtime = (W.loads? t).getD W.service.runtime) ∧
      (∀ hash e d', W.loader.load hash W.directory = (.error e, d') →
        W.turn verify (.attempt hash) = { W with directory := d' }) ∧
      ∀ hash x d', W.loader.load hash W.directory = (.ok x, d') →
        W.loads? (.attempt hash) = some x.runtime ∧
        Reloaded hash W (W.turn verify (.attempt hash)) := by
  intro W
  obtain ⟨c, hload, -, hruntime, hbecomes⟩ := start_becomes hstart
  have hruns := (hbecomes verify turns).runs
  refine ⟨c, hload, hruntime, World.loader_run _ turns, hruns.registry, ?_,
    W.runtime_turn, fun hash e d' => World.turn_failed, fun hash x d' hx => ⟨?_, ?_⟩⟩
  · exact hruns.capacity.trans (Nat.max_eq_left (Loader.buffer_of_load hload))
  · simp [World.loads?, hx, Except.toOption]
  · exact reloaded_turn verify hx (serves_announcements hstart verify turns)
      (hbecomes verify turns).valid

/-- The reload of the program itself, which also has the streams send on what the announcement has
put into their queues. -/
theorem reload_keeps {w : Surroundings} {a : Arguments} {l : Listening}
    (hstart : (start w a d).state = .ok l) (verify : Verifier) (turns : List Turn) :
    let W := World.run verify ⟨l, (start w a d).directory⟩ turns
    let t := reload w W.listening W.directory
    (∀ e d', W.loader.load w.hash W.directory = (.error e, d') →
      t.state = W.listening ∧ t.directory = d') ∧
    ∀ x d', W.loader.load w.hash W.directory = (.ok x, d') →
      t.state.loader = W.loader ∧ t.state.gateway.service.runtime = x.runtime ∧
      t.state.gateway.service.registry = W.service.registry ∧
      t.state.gateway.service.tasks = W.service.tasks ∧ t.directory = d' ∧
      ∃ W', Reloaded w.hash W W' ∧ t.state.gateway = W'.gateway.settle := by
  intro W t
  have hserved := serves_announcements hstart verify turns
  obtain ⟨_, _, _, _, hbecomes⟩ := start_becomes hstart
  refine ⟨fun e d' hload => ?_, fun x d' hload => ?_⟩
  · have hload' : W.listening.loader.load w.hash W.directory = (.error e, d') := hload
    simp only [t, reload, attempt, hload', and_self]
  · have hload' : W.listening.loader.load w.hash W.directory = (.ok x, d') := hload
    have hreloaded := reloaded_turn verify hload hserved (hbecomes verify turns).valid
    rw [World.turn_loaded hload] at hreloaded
    simp only [t, reload, attempt, hload']
    exact ⟨rfl, rfl, rfl, rfl, trivial, _, hreloaded, rfl⟩

def quiet : Surroundings where
  environment _ := none
  home := "/"
  bind _ := .ok ()
  hash := id
  positions := .silent

/-- Where the program that is told of `gateway.toml` looks for it. -/
def homeLoader : Loader := ⟨Directory.nameOf "/" "gateway.toml", none⟩

def holding (text : String) : Directory := ⟨[(homeLoader.name, .file (Text.toUtf8 text))]⟩

def settingsOf (secret : String) (topics : List Topic) (buffer : Nat) : Settings :=
  ⟨Settings.defaultListen, secret, topics.map Topic.name, buffer⟩

def firstText : String := "[admin]\nsecret = \"$argon2i\"\n[events]\nsubscriber_buffer = 4\n"

/-- The topic of the announcement is left out, with another secret and another buffer. -/
def narrowText : String :=
  "[admin]\nsecret = \"$argon2id\"\n[events]\ntopics = [\"cb_session\"]\nsubscriber_buffer = 9\n"

theorem load_holding {text secret : String} {t : Topic} {ts : List Topic} {buffer : Nat}
    (hs : Settings.ofText text = .ok (settingsOf secret (t :: ts) buffer))
    (hsecret : "$argon2".toList <+: secret.toList) (hbuffer : buffer ≠ 0) :
    homeLoader.load id (holding text) =
      (.ok ⟨⟨Settings.defaultListen, secret⟩, .ofTopics (t :: ts), buffer⟩, holding text) := by
  have htext : (holding text).readText homeLoader.name = .ok text :=
    Directory.readText_file (by simp [holding, Directory.find?])
  have hfull : (Registry.ofTopics (t :: ts)).isEmpty = false := by
    have hmem : t ∈ (Registry.ofTopics (t :: ts)).topics :=
      Registry.mem_topics.mpr (by simp [Registry.ofTopics, Registry.contains])
    exact List.isEmpty_eq_false_iff.mpr (List.ne_nil_of_mem hmem)
  have hvalid :
      Loader.validate (settingsOf secret (t :: ts) buffer) = .ok (.ofTopics (t :: ts)) := by
    refine Loader.validate_ok.mpr ⟨?_, hbuffer, Registry.ofNames_names (t :: ts), hfull⟩
    rintro rfl
    exact absurd (List.prefix_nil.mp hsecret) (by decide)
  exact Loader.load_stored (Loader.read_ok.mpr ⟨text, _, htext, hs, rfl⟩) hvalid
    (Settings.isHashed_iff.mpr hsecret)

theorem load_first : homeLoader.load id (holding firstText) =
    (.ok ⟨⟨Settings.defaultListen, "$argon2i"⟩, .ofTopics Topic.all, 4⟩, holding firstText) := by
  refine load_holding ?_ (List.isPrefixOf_iff_prefix.mp (by decide +kernel)) (by decide)
  decide +kernel

theorem load_narrow : homeLoader.load id (holding narrowText) =
    (.ok ⟨⟨Settings.defaultListen, "$argon2id"⟩, .ofTopics [.session], 9⟩, holding narrowText) := by
  refine load_holding ?_ (List.isPrefixOf_iff_prefix.mp (by decide +kernel)) (by decide)
  decide +kernel

def firstListening : Listening :=
  ⟨homeLoader, .start (.start ⟨Settings.defaultListen, "$argon2i"⟩ (.ofTopics Topic.all) .silent 4)⟩

theorem start_first : (start quiet ⟨"gateway.toml", none⟩ (holding firstText)).state =
    .ok firstListening := by
  have hload : (⟨Directory.nameOf quiet.home "gateway.toml", none⟩ : Loader).load quiet.hash
      (holding firstText) = _ := load_first
  simp only [start, prepare, hload]
  rfl

/-- A listener on the topic of the announcement, which the new file leaves out. -/
def narrowing : List Turn := [.call (.subscribe .serverConfig {}), .edit (holding narrowText)]

theorem reload_replaces_runtime_narrowing :
    (start quiet ⟨"gateway.toml", none⟩ (holding firstText)).state = .ok firstListening ∧
    let W := World.run (fun _ _ => true)
      ⟨firstListening, (start quiet ⟨"gateway.toml", none⟩ (holding firstText)).directory⟩ narrowing
    let W' := W.turn (fun _ _ => true) (.attempt id)
    W'.service.runtime.secretHash = "$argon2id" ∧
    W'.service.registry.contains .serverConfig = true ∧
    W.service.hub.capacity = 4 ∧ W'.service.hub.queue 0 = [.announcement] := by
  refine ⟨start_first, ?_⟩
  intro W W'
  obtain ⟨c, -, -, -, -, -, hruntime, -, hloaded⟩ :=
    reload_replaces_runtime start_first (fun _ _ => true) narrowing
  obtain ⟨hloads, hreloaded⟩ := hloaded id _ _ load_narrow
  have hsecret := hruntime (.attempt id)
  rw [hloads] at hsecret
  refine ⟨congrArg Runtime.secretHash hsecret, ?_, rfl, ?_⟩
  · rw [hreloaded.registry]
    rfl
  · rw [hreloaded.queue 0]
    rfl

end Cli

end EventGateway
