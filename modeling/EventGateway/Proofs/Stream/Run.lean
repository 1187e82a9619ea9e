import EventGateway.Proofs.Stream.Steps
import EventGateway.Service.Gateway

/-! Runs of the service with its streams, in any order and with nothing done in between, and the
history that each stream has in such a run. -/

namespace EventGateway

inductive Act
  | handle (r : Http.Request)
  | reload (r : Runtime)
  | publish (e : Event)
  | connect (fresh query : String)
  | receive (n : Nat) (m : Incoming)
  | poll (n : Nat) (t : Topic)
  | disconnect (n : Nat)
  | collect (n : Nat)
  | close

namespace Gateway

def act (verify : Verifier) (g : Gateway) : Act → Gateway
  | .handle r => { g with service := (g.service.handle verify r).2 }
  | .reload r => { g with service := (g.service.reload r).2 }
  | .publish e => (g.publish e).2
  | .connect fresh query => (g.connect fresh query).2
  | .receive n m =>
    if g.isOpen n then
      g.withConnection n fun c h => c.receive g.service.positions.message g.service.registry h m
    else g
  | .poll n t => g.withConnection n fun c h => c.poll h t
  | .disconnect n => g.withConnection n Connection.release
  | .collect n => (g.collect n).2
  | .close => { g with service := { g.service with hub := g.service.hub.close } }

def run (verify : Verifier) (g : Gateway) (acts : List Act) : Gateway := acts.foldl (act verify) g

theorem withConnection_some {g : Gateway} {k : Nat} {c : Connection}
    (hk : g.connections[k]? = some c) (f : Connection → Hub → Connection × Hub) :
    g.withConnection k f = ⟨{ g.service with hub := (f c g.service.hub).2 },
      g.connections.set k (f c g.service.hub).1⟩ := by
  simp [withConnection, hk]

theorem withConnection_none {g : Gateway} {k : Nat} (hk : g.connections[k]? = none)
    (f : Connection → Hub → Connection × Hub) : g.withConnection k f = g := by
  simp [withConnection, hk]

theorem poll_at (verify : Verifier) (s : Service) (before after : List Connection) (c : Connection)
    (t : Topic) :
    (⟨s, before ++ c :: after⟩ : Gateway).act verify (.poll before.length t) =
      ⟨{ s with hub := (c.poll s.hub t).2 }, before ++ (c.poll s.hub t).1 :: after⟩ := by
  simp [act, withConnection]

theorem pollTimes_run (verify : Verifier) (s : Service) (before after : List Connection)
    (c : Connection) (t : Topic) (n : Nat) :
    (⟨s, before ++ c :: after⟩ : Gateway).run verify (List.replicate n (.poll before.length t)) =
      ⟨{ s with hub := (Connection.pollTimes t n (c, s.hub)).2 },
        before ++ (Connection.pollTimes t n (c, s.hub)).1 :: after⟩ := by
  induction n generalizing s c with
  | zero => rfl
  | succ n ih =>
    have hpoll := poll_at verify s before after c t
    simp only [run] at ih ⊢
    rw [List.replicate_succ, List.foldl_cons, hpoll, ih]
    rfl

theorem settle_run_one (verify : Verifier) (s : Service) (before after : List Connection)
    (c : Connection) : ∃ acts,
    (⟨s, before ++ c :: after⟩ : Gateway).run verify acts =
      ⟨{ s with hub := (c.settle s.hub).2 }, before ++ (c.settle s.hub).1 :: after⟩ := by
  unfold Connection.settle
  generalize Topic.all = ts
  induction ts generalizing s c with
  | nil => exact ⟨[], rfl⟩
  | cons t ts ih =>
    have hfirst := pollTimes_run verify s before after c t (c.polls s.hub t)
    obtain ⟨acts, hacts⟩ := ih
      { s with hub := (Connection.pollTimes t (c.polls s.hub t) (c, s.hub)).2 }
      (Connection.pollTimes t (c.polls s.hub t) (c, s.hub)).1
    refine ⟨List.replicate (c.polls s.hub t) (.poll before.length t) ++ acts, ?_⟩
    simp only [run] at hfirst hacts ⊢
    rw [List.foldl_append, hfirst, hacts]
    rfl

theorem settleAll_run (verify : Verifier) (s : Service) (before cs : List Connection) : ∃ acts,
    (⟨s, before ++ cs⟩ : Gateway).run verify acts =
      ⟨{ s with hub := (settleAll s.hub cs).2 }, before ++ (settleAll s.hub cs).1⟩ := by
  induction cs generalizing s before with
  | nil => exact ⟨[], rfl⟩
  | cons c cs ih =>
    obtain ⟨first, hfirst⟩ := settle_run_one verify s before cs c
    obtain ⟨rest, hrest⟩ := ih { s with hub := (c.settle s.hub).2 } (before ++ [(c.settle s.hub).1])
    refine ⟨first ++ rest, ?_⟩
    simp only [List.append_assoc, List.singleton_append] at hrest
    simp only [run] at hfirst hrest ⊢
    rw [List.foldl_append, hfirst, hrest]
    rfl

/-- Sending on all that there is means polling often enough. -/
theorem settle_run (verify : Verifier) (g : Gateway) : ∃ acts, g.run verify acts = g.settle :=
  settleAll_run verify g.service [] g.connections

/-- Each operation is one act, after which the streams send on what they can. -/
theorem operation_run (verify : Verifier) (g : Gateway) :
    (∀ r, ∃ acts, g.run verify (.handle r :: acts) = (g.handle verify r).2) ∧
    (∀ r, ∃ acts, g.run verify (.reload r :: acts) = (g.reload r).2) ∧
    (∀ n m, ∃ acts, g.run verify (.receive n m :: acts) = (g.receive n m).2) ∧
    ∀ n, ∃ acts, g.run verify (.disconnect n :: acts) = g.disconnect n := by
  have hrun : ∀ a acts, g.run verify (a :: acts) = (g.act verify a).run verify acts :=
    fun _ _ => rfl
  simp only [hrun]
  refine ⟨fun r => ?_, fun r => ?_, fun n m => ?_, fun n => ?_⟩
  · have hhandle : (g.handle verify r).2 = (g.act verify (.handle r)).settle := by
      simp only [handle, act]
    rw [hhandle]
    exact settle_run verify (g.act verify (.handle r))
  · exact settle_run verify (g.act verify (.reload r))
  · cases hopen : g.isOpen n with
    | false => exact ⟨[], by simp [run, act, receive, hopen]⟩
    | true =>
      obtain ⟨acts, hacts⟩ := settle_run verify (g.act verify (.receive n m))
      refine ⟨acts, hacts.trans ?_⟩
      simp [act, receive, hopen]
  · exact settle_run verify (g.act verify (.disconnect n))

end Gateway

namespace Act

def event? (verify : Verifier) (s : Service) : Act → Option Event
  | .handle r => s.outgoing verify r
  | .reload _ => some (.new .configurationChanged)
  | .publish e => some e
  | _ => none

/-- The marks of a message that the stream `n` takes from its client. -/
def heard (n : Nat) (r : Registry) (c c' : Connection) : Act → List Mark
  | .receive k m => if k = n ∧ c.isOpen = true then c.heard r m c' else []
  | _ => []

/-- Who has a stream opened, with the session that is for a listener that brings none. -/
def opens? : Act → Option (String × Filter)
  | .connect fresh query => (Identity.ofQuery query).toOption.map fun f => (fresh, f)
  | _ => none

theorem exists_of_opens? {a : Act} {fresh : String} {f : Filter}
    (h : a.opens? = some (fresh, f)) :
    ∃ query, a = .connect fresh query ∧ Identity.ofQuery query = .ok f := by
  cases a with
  | connect fresh' query =>
    obtain ⟨f', hf, ⟨⟩⟩ := Option.map_eq_some_iff.mp h
    exact ⟨query, rfl, toOption_ok.mp hf⟩
  | _ => cases h

/-- What an act that leads from `g` to `g'` adds to the history of the stream `n`. -/
def marks (verify : Verifier) (a : Act) (g g' : Gateway) (n : Nat) : List Mark :=
  match g.connections[n]?, g'.connections[n]? with
  | some c, some c' =>
    a.heard n g.service.registry c c' ++
      ((a.event? verify g.service).toList.map fun e =>
        .published e (c.grows g.service.hub g'.service.hub e.topic)) ++ c.marks c'
  | none, some _ => a.opens?.toList.map fun p => .opened p.1 p.2
  | _, none => []

variable {verify : Verifier} {a : Act} {g g' : Gateway} {n : Nat} {c c' : Connection}

theorem marks_unopened (hc' : g'.connections[n]? = none) : a.marks verify g g' n = [] := by
  cases hc : g.connections[n]? <;> simp [marks, hc, hc']

theorem marks_quiet (hc : g.connections[n]? = some c) (hc' : g'.connections[n]? = some c')
    (hquiet : a.event? verify g.service = none) :
    a.marks verify g g' n = a.heard n g.service.registry c c' ++ c.marks c' := by
  simp [marks, hc, hc', hquiet]

/-- A stream that an act leaves alone is marked by nothing but a publish. -/
theorem marks_kept (hc : g.connections[n]? = some c) (hc' : g'.connections[n]? = some c)
    (hheard : a.heard n g.service.registry c c = []) :
    a.marks verify g g' n = (a.event? verify g.service).toList.map fun e =>
      .published e (c.grows g.service.hub g'.service.hub e.topic) := by
  have hsame : c.marks c = [] := Connection.marks_same rfl rfl
  simp [marks, hc, hc', hheard, hsame]

end Act

/-- A gateway, and the history of each of its streams. -/
structure Journal where
  gateway : Gateway
  log : Nat → List Mark

namespace Journal

def step (verify : Verifier) (J : Journal) (a : Act) : Journal :=
  let g := J.gateway.act verify a
  ⟨g, fun n => J.log n ++ a.marks verify J.gateway g n⟩

def ofRun (verify : Verifier) (g : Gateway) (acts : List Act) : Journal :=
  acts.foldl (step verify) ⟨g, fun _ => []⟩

theorem gateway_ofRun (verify : Verifier) (g : Gateway) (acts : List Act) :
    (ofRun verify g acts).gateway = g.run verify acts := by
  suffices ∀ J : Journal, (acts.foldl (step verify) J).gateway = J.gateway.run verify acts from
    this _
  induction acts with
  | nil => exact fun _ => rfl
  | cons a acts ih => exact fun J => ih (J.step verify a)

end Journal

end EventGateway
