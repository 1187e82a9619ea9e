import EventGateway.Cli.Program
import EventGateway.Proofs.Config.Loading
import EventGateway.Proofs.Outcome
import EventGateway.Proofs.Service.Capacity
import EventGateway.Proofs.Service.Gate
import EventGateway.Proofs.Service.Topics

/-! The program while it listens. Somebody edits its directory, a signal has it load its
configuration again, and requests and messages come in between, in any order. -/

namespace EventGateway.Cli

inductive Turn
  | edit (d : Directory)
  /-- The program is told to load its configuration, with the salt that `hash` has this time. -/
  | attempt (hash : String → String)
  | act (a : Act)
  | call (op : HubOp)
  /-- The streams send on all that they have. -/
  | settle

structure World where
  listening : Listening
  directory : Directory

namespace World

variable {verify : Verifier} {W : World}

def gateway (W : World) : Gateway := W.listening.gateway

def service (W : World) : Service := W.gateway.service

def loader (W : World) : Loader := W.listening.loader

def serving (W : World) (g : Gateway) : World :=
  { W with listening := { W.listening with gateway := g } }

/-- A configuration is put in by an attempt only. -/
def turn (verify : Verifier) (W : World) : Turn → World
  | .edit d => { W with directory := d }
  | .attempt hash =>
    let p := attempt hash W.listening W.directory
    ⟨p.2.1, p.2.2⟩
  | .act a =>
    match a.configures? with
    | some _ => W
    | none => W.serving (W.gateway.act verify a)
  | .call op =>
    W.serving ⟨{ W.service with hub := (W.service.hub.perform op).2 }, W.gateway.connections⟩
  | .settle => W.serving W.gateway.settle

def run (verify : Verifier) (W : World) (turns : List Turn) : World := turns.foldl (turn verify) W

def loads? (W : World) : Turn → Option Runtime
  | .attempt hash => (W.loader.load hash W.directory).1.toOption.map Loaded.runtime
  | _ => none

theorem turn_failed {hash : String → String} {e : ConfigError} {d : Directory}
    (hload : W.loader.load hash W.directory = (.error e, d)) :
    W.turn verify (.attempt hash) = { W with directory := d } := by
  have hload' : W.listening.loader.load hash W.directory = (.error e, d) := hload
  simp only [turn, attempt, hload']

theorem turn_loaded {hash : String → String} {c : Loaded} {d : Directory}
    (hload : W.loader.load hash W.directory = (.ok c, d)) : W.turn verify (.attempt hash) =
      { W.serving (W.gateway.act verify (.reload c.runtime)) with directory := d } := by
  have hload' : W.listening.loader.load hash W.directory = (.ok c, d) := hload
  simp only [turn, attempt, hload']
  rfl

theorem loader_turn (W : World) (t : Turn) : (W.turn verify t).loader = W.loader := by
  cases t with
  | edit | call | settle => rfl
  | attempt hash =>
    rcases hload : W.loader.load hash W.directory with ⟨e | c, d⟩
    · rw [turn_failed hload]
      rfl
    · rw [turn_loaded hload]
      rfl
  | act a =>
    simp only [turn]
    split <;> rfl

theorem runtime_turn (W : World) (t : Turn) :
    (W.turn verify t).service.runtime = (W.loads? t).getD W.service.runtime := by
  cases t with
  | edit | call | settle => rfl
  | attempt hash =>
    rcases hload : W.loader.load hash W.directory with ⟨e | c, d⟩
    · rw [turn_failed hload, loads?, hload]
      rfl
    · rw [turn_loaded hload, loads?, hload]
      rfl
  | act a =>
    simp only [turn, loads?, Option.getD_none]
    split
    · rfl
    next hnone =>
      have hact : (W.gateway.act verify a).service.runtime =
          a.configures?.getD W.service.runtime := W.gateway.runtime_act a
      rwa [hnone] at hact

/-- All that is done with the service and its streams is done by acts and calls. -/
theorem becomes_turn {g : Gateway} (hW : g.Becomes verify W.gateway) (t : Turn) :
    g.Becomes verify (W.turn verify t).gateway := by
  cases t with
  | edit d => exact hW
  | attempt hash =>
    rcases hload : W.loader.load hash W.directory with ⟨e | c, d⟩
    · rw [turn_failed hload]
      exact hW
    · rw [turn_loaded hload]
      exact hW.act (.reload c.runtime)
  | act a =>
    simp only [turn]
    split
    · exact hW
    · exact hW.act a
  | call op => exact hW.hub op
  | settle =>
    obtain ⟨acts, hacts⟩ := Gateway.settle_run verify W.gateway
    have hrun := hW.run acts
    rwa [hacts] at hrun

theorem becomes_run {g : Gateway} (hW : g.Becomes verify W.gateway) (turns : List Turn) :
    g.Becomes verify (W.run verify turns).gateway := by
  induction turns generalizing W with
  | nil => exact hW
  | cons t turns ih => exact ih (becomes_turn hW t)

theorem loader_run (W : World) (turns : List Turn) : (W.run verify turns).loader = W.loader := by
  induction turns generalizing W with
  | nil => rfl
  | cons t turns ih => exact (ih (W.turn verify t)).trans (W.loader_turn t)

end World

variable {w : Surroundings} {a : Arguments} {d : Directory} {l : Listening} {p : Prepared}

theorem checkTopics_ok {c : Loaded} (h : (checkTopics c).2 = .ok ()) :
    c.registry.ensureKinds ownKinds = .ok () := by
  unfold checkTopics at h
  split at h
  · exact nomatch h
  · assumption

theorem prepare_ok (hprepare : (prepare w a d).state = .ok p) :
    p.loader.load w.hash d = (.ok p.loaded, (prepare w a d).directory) ∧
      p.loaded.registry.ensureKinds ownKinds = .ok () ∧ p.positions = w.positions := by
  unfold prepare at hprepare ⊢
  rcases hload : (⟨Directory.nameOf w.home a.config, a.listen⟩ : Loader).load w.hash d with
    ⟨e | c, d'⟩
  · simp [hload] at hprepare
  · simp only [hload] at hprepare ⊢
    obtain ⟨_, hcheck, rfl⟩ := map_ok.mp hprepare
    exact ⟨hload, checkTopics_ok hcheck, rfl⟩

theorem start_ok (hstart : (start w a d).state = .ok l) : ∃ c,
    l.loader.load w.hash d = (.ok c, (start w a d).directory) ∧
      c.registry.ensureKinds ownKinds = .ok () ∧
      l.gateway = .start (.start c.runtime c.registry w.positions c.subscriberBuffer) := by
  unfold start at hstart ⊢
  cases hprepare : (prepare w a d).state with
  | error e => simp [hprepare] at hstart
  | ok p =>
    obtain ⟨hload, hcheck, hpositions⟩ := prepare_ok hprepare
    simp only [hprepare] at hstart ⊢
    obtain rfl : p.listening = l := by
      cases hbind : w.bind p.loaded.runtime.listen with
      | error e => simp [hbind, Prepared.settle] at hstart
      | ok u => simpa [hbind, Prepared.settle] using hstart
    exact ⟨p.loaded, hload, hcheck, by rw [Prepared.listening, hpositions]⟩

/-- Whatever happens, it is still the service that was started with the first configuration. -/
theorem start_becomes (hstart : (start w a d).state = .ok l) : ∃ c,
    l.loader.load w.hash d = (.ok c, (start w a d).directory) ∧
      c.registry.ensureKinds ownKinds = .ok () ∧ l.gateway.service.runtime = c.runtime ∧
      ∀ verify turns,
        (Gateway.start (.start c.runtime c.registry w.positions c.subscriberBuffer)).Becomes verify
          (World.run verify ⟨l, (start w a d).directory⟩ turns).gateway := by
  obtain ⟨c, hload, hchecked, hgateway⟩ := start_ok hstart
  exact ⟨c, hload, hchecked, by rw [hgateway]; rfl,
    fun verify turns => World.becomes_run (hgateway ▸ .start) turns⟩

/-- The topic of the announcements is one of those that the program serves, from its start on. -/
theorem serves_announcements (hstart : (start w a d).state = .ok l) (verify : Verifier)
    (turns : List Turn) :
    (World.run verify ⟨l, (start w a d).directory⟩ turns).service.registry.contains
      Kind.configurationChanged.topic = true := by
  obtain ⟨c, -, hchecked, -, hbecomes⟩ := start_becomes hstart
  rw [World.service, (hbecomes verify turns).runs.registry]
  exact Registry.ensureKinds_ok.mp hchecked _ List.mem_cons_self

/-- What somebody does to the program, turn by turn. Once a configuration has been put in, the
streams send on all that they have. -/
def turnsOf (w : Surroundings) (l : Listening) (d : Directory) : Happening → List Turn
  | .write bytes => [.edit (d.put l.loader.name (.file bytes))]
  | .remove => [.edit (d.remove l.loader.name)]
  | .signal _ =>
    .attempt w.hash :: if (l.loader.load w.hash d).1.isOk then [.settle] else []

theorem turnsOf_failed {d' : Directory} {e : ConfigError}
    (hload : l.loader.load w.hash d = (.error e, d')) (s : Signal) :
    turnsOf w l d (.signal s) = [.attempt w.hash] := by
  rw [turnsOf, hload]
  rfl

theorem turnsOf_loaded {d' : Directory} {c : Loaded}
    (hload : l.loader.load w.hash d = (.ok c, d')) (s : Signal) :
    turnsOf w l d (.signal s) = [.attempt w.hash, .settle] := by
  rw [turnsOf, hload]
  rfl

theorem reload_turns (verify : Verifier) (w : Surroundings) (l : Listening) (d : Directory)
    (s : Signal) : World.run verify ⟨l, d⟩ (turnsOf w l d (.signal s)) =
      ⟨(reload w l d).state, (reload w l d).directory⟩ := by
  rcases hload : l.loader.load w.hash d with ⟨e | c, d'⟩
  · simp only [turnsOf_failed hload, World.run, List.foldl, World.turn, reload, attempt, hload]
  · simp only [turnsOf_loaded hload, World.run, List.foldl, World.turn, reload, attempt, hload]
    rfl

theorem happen_turns (verify : Verifier) {w : Surroundings} {d : Directory} {l l' : Listening}
    {h : Happening} (hstate : (happen w l d h).state = .ok l') :
    World.run verify ⟨l, d⟩ (turnsOf w l d h) = ⟨l', (happen w l d h).directory⟩ := by
  cases h with
  | write bytes =>
    obtain rfl := Except.ok.inj hstate
    rfl
  | remove =>
    obtain rfl := Except.ok.inj hstate
    rfl
  | signal s =>
    cases s with
    | hangUp =>
      obtain rfl := Except.ok.inj hstate
      exact reload_turns verify w l d .hangUp
    | terminate | interrupt => exact nomatch hstate

def turnsLived (w : Surroundings) (t : Trace (Except Ending Listening)) : List Happening → List Turn
  | [] => []
  | h :: hs =>
    match t.state with
    | .error _ => []
    | .ok l =>
      let u := happen w l t.directory h
      turnsOf w l t.directory h ++ turnsLived w ⟨u.state, t.log ++ u.log, u.directory⟩ hs

/-- Whatever the program lives through is a run of turns. -/
theorem live_turns (verify : Verifier) (w : Surroundings) (hs : List Happening)
    {t : Trace (Except Ending Listening)} {l' : Listening} (hlive : (live w t hs).state = .ok l') :
    ∃ l, t.state = .ok l ∧ World.run verify ⟨l, t.directory⟩ (turnsLived w t hs) =
      ⟨l', (live w t hs).directory⟩ := by
  induction hs generalizing t with
  | nil => exact ⟨l', hlive, rfl⟩
  | cons h hs ih =>
    cases ht : t.state with
    | error e => simp [live, ht] at hlive
    | ok l =>
      simp only [live, turnsLived, ht] at hlive ⊢
      obtain ⟨l₁, hfirst, hrest⟩ := ih hlive
      refine ⟨l, rfl, ?_⟩
      rw [World.run, List.foldl_append]
      exact (congrArg (World.run verify · _) (happen_turns verify hfirst)).trans hrest

end EventGateway.Cli
