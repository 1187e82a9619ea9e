import EventGateway.Proofs.Stream.Changes

/-! Sessions are isolated on the event streams: whatever is done with the service, a stream sends
only what is for its listener, in the order in which it was published. -/

namespace EventGateway

/-- What reaches a listener is for everyone, or for its own session and its own user. -/
theorem reaches_settled {r : Registry} {fresh : String} {f : Filter} {e : Event}
    (h : Reaches r (Identity.settle fresh f) e) :
    (e.scope.sessionId = none ∨
      e.scope.sessionId = some ((f.sessionId.filter (· ≠ "")).getD fresh)) ∧
      (e.scope.userId = none ∨ e.scope.userId = f.userId.filter (· ≠ "")) := by
  obtain ⟨hsession, huser⟩ : _ ∧ _ := by simpa [Filter.admits] using h.2
  rw [Filter.agrees_iff] at hsession huser
  constructor
  · cases hs : e.scope.sessionId with
    | none => exact .inl rfl
    | some s => exact .inr (hsession s hs).symm
  · cases hu : e.scope.userId with
    | none => exact .inl rfl
    | some u => exact .inr (huser u hu).symm

namespace Journal

/-- Every stream goes on in order, and each subscription has one owner. -/
structure Sound (r : Registry) (own : Owners) (J : Journal) : Prop where
  registry : J.gateway.service.registry = r
  valid : J.gateway.service.hub.Valid
  unopened : ∀ n, J.gateway.connections.length ≤ n → J.log n = []
  tracks : ∀ n c, J.gateway.connections[n]? = some c →
    Tracks r own J.gateway.service.hub n c (J.log n)

variable {verify : Verifier} {r : Registry} {own : Owners} {J : Journal} {a : Act}

theorem sound_start (runtime : Runtime) (r : Registry) (positions : Positions) (capacity : Nat)
    (own : Owners) :
    Sound r own ⟨Gateway.start (Service.start runtime r positions capacity), fun _ => []⟩ where
  registry := rfl
  valid := Hub.valid_new capacity
  unopened _ _ := rfl
  tracks n c hc := by simp [Gateway.start] at hc

/-- An act that changes no stream, and of the service only the hub. -/
theorem Sound.withHub (hs : Sound r own J) (hheard : ∀ n c, a.heard n r c c = [])
    (hconn : (J.gateway.act verify a).connections = J.gateway.connections)
    (hreg : (J.gateway.act verify a).service.registry = J.gateway.service.registry)
    (hvalid : (J.gateway.act verify a).service.hub.Valid)
    (hstep : ∀ n c M, Tracks r own J.gateway.service.hub n c M →
      Tracks r own (J.gateway.act verify a).service.hub n c
        (M ++ (a.event? verify J.gateway.service).toList.map fun e => .published e
          (c.grows J.gateway.service.hub (J.gateway.act verify a).service.hub e.topic))) :
    Sound r own (J.step verify a) := by
  refine ⟨hreg.trans hs.registry, hvalid, fun n hn => ?_, fun n c hc => ?_⟩
  · have hnone : (J.gateway.act verify a).connections[n]? = none := List.getElem?_eq_none hn
    rw [step, hconn] at hn
    simp only [step]
    rw [hs.unopened n hn, Act.marks_unopened hnone, List.nil_append]
  · have hkept : J.gateway.connections[n]? = some c := hconn ▸ hc
    simp only [step] at hc ⊢
    rw [Act.marks_kept hkept hc (hs.registry ▸ hheard n c)]
    exact hstep n c _ (hs.tracks n c hkept)

theorem Sound.publishes (hs : Sound r own J) (hheard : ∀ n c, a.heard n r c c = [])
    (hconn : (J.gateway.act verify a).connections = J.gateway.connections)
    (hreg : (J.gateway.act verify a).service.registry = J.gateway.service.registry)
    (hhub : (J.gateway.act verify a).service.hub =
      J.gateway.service.hubAfter (a.event? verify J.gateway.service)) :
    Sound r own (J.step verify a) := by
  have hregistry := hs.registry
  refine hs.withHub hheard hconn hreg ?_ fun n c M ht => ?_
  · rw [hhub]
    cases a.event? verify J.gateway.service with
    | none => exact hs.valid
    | some e => exact valid_spread hs.valid _ e
  · rw [hhub]
    cases a.event? verify J.gateway.service with
    | none => simpa [Service.hubAfter] using ht
    | some e => simpa [Service.hubAfter, hregistry] using ht.spread hs.valid e

theorem Sound.close (hs : Sound r own J) : Sound r own (J.step verify .close) := by
  refine hs.withHub (fun _ _ => rfl) rfl rfl hs.valid.close fun n c M ht => ?_
  have hspared := ht.spared (fun _ id _ => Hub.spares_close _ id) fun _ _ _ => rfl
  simpa [Act.event?, Gateway.act] using hspared

theorem Sound.idle (hs : Sound r own J) (hact : J.gateway.act verify a = J.gateway)
    (hquiet : a.event? verify J.gateway.service = none)
    (hheard : ∀ n c, J.gateway.connections[n]? = some c → a.heard n r c c = []) :
    Sound r own (J.step verify a) := by
  have hmarks : ∀ n, a.marks verify J.gateway J.gateway n = [] := by
    intro n
    cases hc : J.gateway.connections[n]? with
    | none => exact Act.marks_unopened hc
    | some c =>
      rw [Act.marks_kept hc hc (hs.registry ▸ hheard n c hc), hquiet]
      rfl
  simpa [step, hact, hmarks] using hs

/-- An act on one stream leaves the histories of the others alone. -/
theorem Sound.withConnection (hs : Sound r own J) {k : Nat}
    {f : Connection → Hub → Connection × Hub}
    (hact : J.gateway.act verify a = J.gateway.withConnection k f)
    (hquiet : a.event? verify J.gateway.service = none)
    (hheard : ∀ n c, n ≠ k → a.heard n r c c = [])
    (hstep : ∀ c, J.gateway.connections[k]? = some c →
      Tracks r own J.gateway.service.hub k c (J.log k) →
      ∃ own', Proceeds r own own' J.gateway.service.hub (f c J.gateway.service.hub).2 k
        (f c J.gateway.service.hub).1
        (J.log k ++ (a.heard k r c (f c J.gateway.service.hub).1 ++
          c.marks (f c J.gateway.service.hub).1))) :
    ∃ own', Sound r own' (J.step verify a) := by
  cases hk : J.gateway.connections[k]? with
  | none =>
    have hsame : J.gateway.act verify a = J.gateway :=
      hact.trans (Gateway.withConnection_none hk f)
    refine ⟨own, hs.idle hsame hquiet fun n c hc => hheard n c ?_⟩
    rintro rfl
    simp [hk] at hc
  | some c =>
    obtain ⟨own', hp⟩ := hstep c hk (hs.tracks k c hk)
    have hlt : k < J.gateway.connections.length := (List.getElem?_eq_some_iff.mp hk).1
    have hnext := hact.trans (Gateway.withConnection_some hk f)
    have hconn : (J.gateway.act verify a).connections =
        J.gateway.connections.set k (f c J.gateway.service.hub).1 := by rw [hnext]
    have hhub : (J.gateway.act verify a).service.hub = (f c J.gateway.service.hub).2 := by
      rw [hnext]
    refine ⟨own', ?_, ?_, fun n hn => ?_, fun n x hx => ?_⟩
    · simp only [step, hnext]
      exact hs.registry
    · simp only [step, hhub]
      exact hp.valid
    · have hnone : (J.gateway.act verify a).connections[n]? = none := List.getElem?_eq_none hn
      simp only [step, hconn, List.length_set] at hn
      simp only [step]
      rw [hs.unopened n hn, Act.marks_unopened hnone, List.nil_append]
    · simp only [step, hhub] at hx ⊢
      -- The stream itself has gone on; every other one is as it was, and its queues too.
      by_cases hn : n = k
      · subst hn
        obtain rfl : (f c J.gateway.service.hub).1 = x := by
          simpa [hconn, List.getElem?_set_self hlt] using hx
        rw [Act.marks_quiet hk hx hquiet, hs.registry]
        exact hp.tracks
      · have hkept : J.gateway.connections[n]? = some x := by
          rwa [hconn, List.getElem?_set_ne (Ne.symm hn)] at hx
        rw [Act.marks_kept hkept hx (hs.registry ▸ hheard n x hn), hquiet, Option.toList_none,
          List.map_nil, List.append_nil]
        exact (hs.tracks n x hkept).elsewhere hp hn

theorem Sound.connect (hs : Sound r own J) (fresh query : String) :
    Sound r own (J.step verify (.connect fresh query)) := by
  cases hq : Identity.ofQuery query with
  | error e =>
    refine hs.idle ?_ rfl fun _ _ _ => rfl
    simp [Gateway.act, Gateway.connect, hq]
  | ok f =>
    have hservice : (J.gateway.act verify (.connect fresh query)).service = J.gateway.service := by
      simp [Gateway.act, Gateway.connect, hq]
    have hconn : (J.gateway.act verify (.connect fresh query)).connections =
        J.gateway.connections ++ [.new (Identity.settle fresh f)] := by
      simp [Gateway.act, Gateway.connect, hq]
    refine ⟨?_, ?_, fun n hn => ?_, fun n c hc => ?_⟩
    · simp only [step, hservice]
      exact hs.registry
    · simp only [step, hservice]
      exact hs.valid
    · have hnone : (J.gateway.act verify (.connect fresh query)).connections[n]? = none :=
        List.getElem?_eq_none hn
      simp only [step, hconn, List.length_append, List.length_singleton] at hn
      simp only [step]
      rw [hs.unopened n (by omega), Act.marks_unopened hnone, List.nil_append]
    · simp only [step, hservice] at hc ⊢
      rcases Nat.lt_trichotomy n J.gateway.connections.length with hlt | rfl | hgt
      · have hkept : J.gateway.connections[n]? = some c := by
          rwa [hconn, List.getElem?_append_left hlt] at hc
        rw [Act.marks_kept hkept hc rfl]
        simpa [Act.event?] using hs.tracks n c hkept
      · obtain rfl : Connection.new (Identity.settle fresh f) = c := by simpa [hconn] using hc
        have hmarks : (Act.connect fresh query).marks verify J.gateway
            (J.gateway.act verify (.connect fresh query)) J.gateway.connections.length =
              [.opened fresh f] := by
          simp [Act.marks, hconn, Act.opens?, hq, Except.toOption]
        rw [hs.unopened _ (Nat.le_refl _), hmarks]
        exact tracks_new r own _ _ fresh f
      · rw [hconn, List.getElem?_eq_none (by simpa using Nat.succ_le_of_lt hgt)] at hc
        simp at hc

theorem Sound.collect (hs : Sound r own J) (k : Nat) :
    ∃ own', Sound r own' (J.step verify (.collect k)) := by
  refine hs.withConnection (k := k) (f := fun c h => (c.collect.2, h)) ?_ rfl (fun _ _ _ => rfl) ?_
  · simp only [Gateway.act, Gateway.collect, Gateway.withConnection]
    cases J.gateway.connections[k]? <;> rfl
  · intro c _ ht
    have hmarks : c.marks c.collect.2 = [] := by
      simp [Connection.marks, Connection.ending, Connection.output, Connection.collect]
    refine ⟨own, ?_⟩
    simp only [Act.heard, hmarks, List.append_nil]
    have hcollect : Tracks r own J.gateway.service.hub k c.collect.2 (J.log k) :=
      ⟨ht.identity, ht.orderly, ht.listens⟩
    exact hcollect.proceeds hs.valid

theorem Sound.receive (hs : Sound r own J) (k : Nat) (m : Incoming) :
    ∃ own', Sound r own' (J.step verify (.receive k m)) := by
  cases hopen : J.gateway.isOpen k with
  | false =>
    refine ⟨own, hs.idle ?_ rfl fun n c hc => ?_⟩
    · simp [Gateway.act, hopen]
    · have hclosed : ¬ (k = n ∧ c.isOpen = true) := by
        rintro ⟨rfl, hc'⟩
        simp [Gateway.isOpen, hc, hc'] at hopen
      simp [Act.heard, hclosed]
  | true =>
    refine hs.withConnection (k := k)
      (f := fun c h => c.receive J.gateway.service.positions.message J.gateway.service.registry h m)
      ?_ rfl ?_ ?_
    · simp [Gateway.act, hopen]
    · intro n c hn
      simp [Act.heard, Ne.symm hn]
    · intro c hc ht
      have hc' : c.isOpen = true := by simpa [Gateway.isOpen, hc] using hopen
      rw [hs.registry]
      simpa [Act.heard, hc'] using ht.receive hs.valid _ m

/-- Whatever is done next, the journal stays sound. -/
theorem Sound.step (hs : Sound r own J) (a : Act) : ∃ own', Sound r own' (J.step verify a) := by
  cases a with
  | handle q =>
    obtain ⟨hhub, hreg⟩ := J.gateway.service.handle_publishes verify q
    refine ⟨own, hs.publishes (fun _ _ => rfl) ?_ ?_ ?_⟩
    · simp only [Gateway.act]
    · simpa only [Gateway.act] using hreg
    · simpa only [Gateway.act, Act.event?] using hhub
  | reload runtime =>
    obtain ⟨hhub, hreg⟩ := J.gateway.service.reload_publishes runtime
    refine ⟨own, hs.publishes (fun _ _ => rfl) ?_ ?_ ?_⟩
    · simp only [Gateway.act]
    · simpa only [Gateway.act] using hreg
    · simpa only [Gateway.act, Act.event?] using hhub
  | publish e => exact ⟨own, hs.publishes (fun _ _ => rfl) rfl rfl rfl⟩
  | connect fresh query => exact ⟨own, hs.connect fresh query⟩
  | receive k m => exact hs.receive k m
  | poll k t =>
    refine hs.withConnection (k := k) (f := fun c h => c.poll h t) rfl rfl (fun _ _ _ => rfl)
      fun c _ ht => ⟨own, ?_⟩
    exact ht.poll hs.valid t
  | disconnect k =>
    refine hs.withConnection rfl rfl (fun _ _ _ => rfl) fun c _ ht => ⟨own, ?_⟩
    exact ht.release hs.valid
  | collect k => exact hs.collect k
  | close => exact ⟨own, hs.close⟩

theorem sound_ofRun (verify : Verifier) (runtime : Runtime) (r : Registry) (positions : Positions)
    (capacity : Nat) (acts : List Act) :
    ∃ own, Sound r own
      (ofRun verify (Gateway.start (Service.start runtime r positions capacity)) acts) := by
  suffices ∀ J : Journal, (∃ own, Sound r own J) →
      ∃ own, Sound r own (acts.foldl (Journal.step verify) J) from
    this _ ⟨fun _ => (0, .session), sound_start runtime r positions capacity _⟩
  induction acts with
  | nil => exact fun _ hs => hs
  | cons a acts ih =>
    rintro J ⟨own, hs⟩
    exact ih _ (hs.step a)

theorem Sound.orderly (hs : Sound r own J) (n : Nat) :
    J.log n = [] ∨ ∃ fresh f M, J.log n = .opened fresh f :: M ∧
      Mark.Orderly (Reaches r (Identity.settle fresh f)) (J.log n) := by
  rcases Nat.lt_or_ge n J.gateway.connections.length with hlt | hge
  · have ht := hs.tracks n _ (List.getElem?_eq_getElem hlt)
    obtain ⟨fresh, f, M, hlog, hf⟩ := ht.identity
    exact .inr ⟨fresh, f, M, hlog, hf ▸ ht.orderly⟩
  · exact .inl (hs.unopened n hge)

/-- A stream was opened before it sent anything, and it sends what it may in the period of a topic
in which this was published. -/
theorem Sound.sent (hs : Sound r own J) {n : Nat} {A B : List Mark} {e : Event}
    (hsplit : J.log n = A ++ .sent e :: B) : ∃ fresh f A₁ P,
      A = .opened fresh f :: A₁ ++ .subscribed e.topic :: P ∧
      (∀ m ∈ P, m.ends e.topic = false) ∧ Reaches r (Identity.settle fresh f) e ∧
      .published e true ∈ P ∧ Mark.sentOn e.topic P ++ [e] <+: Mark.queuedOn e.topic P := by
  rcases hs.orderly n with hnil | ⟨fresh, f, M, hopened, hord⟩
  · simp [hnil] at hsplit
  · obtain ⟨hreach, P, hP, hnext⟩ := hord A e B hsplit
    obtain ⟨A₀, rfl, hends⟩ := Mark.exists_of_period hP
    have hmem : e ∈ Mark.queuedOn e.topic P := hnext.subset (by simp)
    -- The history begins with the opening, so that the period begins after it.
    cases A₀ with
    | nil => simp [hopened] at hsplit
    | cons x A₁ =>
      obtain ⟨rfl, _⟩ : Mark.opened fresh f = x ∧ _ := by simpa [hopened] using hsplit
      exact ⟨fresh, f, A₁, P, rfl, hends, hreach, Mark.mem_of_queuedOn hmem, hnext⟩

theorem Sound.in_order (hs : Sound r own J) {n : Nat} {A P B : List Mark} {t : Topic}
    (hsplit : J.log n = A ++ .subscribed t :: P ++ B) (hends : ∀ m ∈ P, m.ends t = false) :
    Mark.sentOn t P <+: Mark.queuedOn t P := by
  rcases hs.orderly n with hnil | ⟨_, _, _, _, hord⟩
  · simp [hnil] at hsplit
  · exact (hsplit ▸ hord).in_order hends

theorem Sound.silent (hs : Sound r own J) {n : Nat} {A P B : List Mark} {t : Topic}
    (hsplit : J.log n = A ++ .unsubscribed t :: P ++ B) (hnone : .subscribed t ∉ P) :
    Mark.sentOn t P = [] := by
  rcases hs.orderly n with hnil | ⟨_, _, _, _, hord⟩
  · simp [hnil] at hsplit
  · exact (hsplit ▸ hord).silent hnone

/-- Streams are opened one after the other, and each for the one who had it opened. -/
structure Opened (acts : List Act) (J : Journal) : Prop where
  length : J.gateway.connections.length = (acts.filterMap Act.opens?).length
  first : ∀ n fresh f M, J.log n = .opened fresh f :: M →
    (acts.filterMap Act.opens?)[n]? = some (fresh, f)

theorem exists_connect_of_opening {acts : List Act} {n : Nat} {fresh : String} {f : Filter}
    (h : (acts.filterMap Act.opens?)[n]? = some (fresh, f)) :
    ∃ query, .connect fresh query ∈ acts ∧ Identity.ofQuery query = .ok f := by
  obtain ⟨a, ha, hopens⟩ := List.mem_filterMap.mp (List.mem_of_getElem? h)
  obtain ⟨query, rfl, hquery⟩ := Act.exists_of_opens? hopens
  exact ⟨query, ha, hquery⟩

theorem Opened.step {acts : List Act} (ho : Opened acts J) (hs : Sound r own J) (a : Act) :
    Opened (acts ++ [a]) (J.step verify a) := by
  have hlength := J.gateway.length_act verify a
  have hopens : (acts ++ [a]).filterMap Act.opens? =
      acts.filterMap Act.opens? ++ a.opens?.toList := by
    rw [List.filterMap_append]
    cases ha : a.opens? <;> simp [ha]
  refine ⟨?_, fun n fresh f M hlog => ?_⟩
  · rw [hopens, List.length_append, ← ho.length]
    exact hlength
  rw [Journal.step] at hlog
  rcases Nat.lt_or_ge n J.gateway.connections.length with hlt | hge
  · obtain ⟨fresh₀, f₀, M₀, hfirst, _⟩ := (hs.tracks n _ (List.getElem?_eq_getElem hlt)).identity
    obtain ⟨⟨rfl, rfl⟩, _⟩ : (fresh₀ = fresh ∧ f₀ = f) ∧ _ := by simpa [hfirst] using hlog
    rw [hopens, List.getElem?_append_left (ho.length ▸ hlt)]
    exact ho.first n fresh₀ f₀ M₀ hfirst
  · -- A stream that was not there before has been opened by the act, and is the next one.
    have hnone : J.gateway.connections[n]? = none := List.getElem?_eq_none hge
    simp only [hs.unopened n hge, List.nil_append, Act.marks, hnone] at hlog
    split at hlog
    next hsome => simp_all
    next c _ hsome =>
      have hlt := (List.getElem?_eq_some_iff.mp hsome).1
      cases ha : a.opens? with
      | none => simp [ha] at hlog
      | some p =>
        obtain ⟨⟨rfl, rfl⟩, _⟩ : (p.1 = fresh ∧ p.2 = f) ∧ _ := by simpa [ha] using hlog
        obtain rfl : n = (acts.filterMap Act.opens?).length := by
          rw [hlength, ha, Option.toList_some, List.length_singleton] at hlt
          rw [← ho.length]
          exact Nat.le_antisymm (Nat.lt_succ_iff.mp hlt) hge
        rw [hopens, ha]
        simp
    next => simp at hlog

theorem opened_ofRun (verify : Verifier) (runtime : Runtime) (r : Registry) (positions : Positions)
    (capacity : Nat) (acts : List Act) :
    Opened acts (ofRun verify (Gateway.start (Service.start runtime r positions capacity)) acts) := by
  induction acts using List.reverseRecOn with
  | nil => exact ⟨rfl, fun n fresh f M h => nomatch h⟩
  | append_singleton acts a ih =>
    obtain ⟨own, hs⟩ := sound_ofRun verify runtime r positions capacity acts
    rw [ofRun, List.foldl_append]
    exact ih.step hs a

def ofService (verify : Verifier) (runtime : Runtime) (r : Registry) (positions : Positions)
    (capacity : Nat) (acts : List Act) : Journal :=
  ofRun verify (Gateway.start (Service.start runtime r positions capacity)) acts

/-- Whatever is done with the service, every event that a stream has sent is for the session and the
user it was opened for, on a topic that is served, and was published in the period of the topic in
which it is sent. In each period the events sent are the first ones of those that were queued, and
once the topic has been given up there are none. The stream has been opened for one who asked for
it, and no two have the same session from those that are given out, if these are all different. -/
theorem stream_isolated (verify : Verifier) (runtime : Runtime) (r : Registry)
    (positions : Positions) (capacity : Nat) (acts : List Act) (n : Nat) :
    let log := (ofService verify runtime r positions capacity acts).log
    let openings := acts.filterMap Act.opens?
    (∀ A e B, log n = A ++ .sent e :: B → ∃ fresh f A₁ P,
      A = .opened fresh f :: A₁ ++ .subscribed e.topic :: P ∧
      (∀ m ∈ P, m.ends e.topic = false) ∧
      (e.scope.sessionId = none ∨
        e.scope.sessionId = some ((f.sessionId.filter (· ≠ "")).getD fresh)) ∧
      (e.scope.userId = none ∨ e.scope.userId = f.userId.filter (· ≠ "")) ∧
      r.contains e.topic = true ∧
      .published e true ∈ P ∧
      Mark.sentOn e.topic P ++ [e] <+: Mark.queuedOn e.topic P) ∧
    (∀ A t P B, log n = A ++ .subscribed t :: P ++ B →
      (∀ m ∈ P, m.ends t = false) → Mark.sentOn t P <+: Mark.queuedOn t P) ∧
    (∀ A t P B, log n = A ++ .unsubscribed t :: P ++ B →
      .subscribed t ∉ P → Mark.sentOn t P = []) ∧
    ∀ fresh f M, log n = .opened fresh f :: M →
      openings[n]? = some (fresh, f) ∧
      (∃ query, .connect fresh query ∈ acts ∧ Identity.ofQuery query = .ok f) ∧
      ((openings.map Prod.fst).Nodup → ∀ k f' M', log k = .opened fresh f' :: M' → k = n) := by
  intro log openings
  obtain ⟨own, hs⟩ := sound_ofRun verify runtime r positions capacity acts
  have ho := opened_ofRun verify runtime r positions capacity acts
  refine ⟨fun A e B hsplit => ?_, fun _ _ _ _ => hs.in_order, fun _ _ _ _ => hs.silent,
    fun fresh f M hopened => ?_⟩
  · obtain ⟨fresh, f, A₁, P, hA, hends, hreach, hpublished, hnext⟩ := hs.sent hsplit
    obtain ⟨hsession, huser⟩ := reaches_settled hreach
    exact ⟨fresh, f, A₁, P, hA, hends, hsession, huser, hreach.1, hpublished, hnext⟩
  · have hthis : openings[n]? = some (fresh, f) := ho.first n fresh f M hopened
    refine ⟨hthis, exists_connect_of_opening hthis, fun hnodup k f' M' hother => ?_⟩
    have hthat : openings[k]? = some (fresh, f') := ho.first k fresh f' M' hother
    have hlt : k < (openings.map Prod.fst).length := by
      simpa using (List.getElem?_eq_some_iff.mp hthat).1
    exact (List.getElem?_inj hlt hnodup).mp (by simp [hthat, hthis])

/-- One listener has the session S1; the other brings an empty one, and is given F2. Each is sent
the event that is for it, although the first one subscribes twice. -/
def twoSessions : List Act :=
  let subscribe : Incoming :=
    .text "\x7b\"id\":\"cb_client_topic_subscribe\",\"topicId\":\"cb_session\"\x7d"
  [.connect "F1" "sessionId=S1", .connect "F2" "sessionId=", .receive 0 subscribe,
    .receive 0 subscribe, .receive 1 subscribe,
    .publish (.scopedTo .sessionExpired (some "S1") none),
    .publish (.scopedTo .sessionExpired (some "F2") none), .poll 0 .session, .poll 1 .session]

def listening : Runtime := ⟨.v4 127 0 0 1 8080, ""⟩

def periodOfF2 : List Mark :=
  [.published (.scopedTo .sessionExpired (some "S1") none) false,
    .published (.scopedTo .sessionExpired (some "F2") none) true,
    .sent (.scopedTo .sessionExpired (some "F2") none)]

theorem stream_isolated_twoSessions :
    let log := (ofService (fun _ _ => true) listening .all .silent 4 twoSessions).log
    log 0 = [.opened "F1" ⟨some "S1", none⟩, .subscribed .session,
      .published (.scopedTo .sessionExpired (some "S1") none) true,
      .published (.scopedTo .sessionExpired (some "F2") none) false,
      .sent (.scopedTo .sessionExpired (some "S1") none)] ∧
    log 1 = [.opened "F2" ⟨some "", none⟩] ++ .subscribed .session :: periodOfF2 ++ [] ∧
    (∀ m ∈ periodOfF2, m.ends .session = false) ∧
    Mark.sentOn .session periodOfF2 <+: Mark.queuedOn .session periodOfF2 ∧
    ((twoSessions.filterMap Act.opens?).map Prod.fst).Nodup ∧
    ∀ k f M, log k = .opened "F2" f :: M → k = 1 := by
  intro log
  have hfirst : log 0 = [.opened "F1" ⟨some "S1", none⟩, .subscribed .session,
      .published (.scopedTo .sessionExpired (some "S1") none) true,
      .published (.scopedTo .sessionExpired (some "F2") none) false,
      .sent (.scopedTo .sessionExpired (some "S1") none)] := by
    decide +kernel
  have hlog : log 1 =
      [.opened "F2" ⟨some "", none⟩] ++ .subscribed .session :: periodOfF2 ++ [] := by
    decide +kernel
  have hends : ∀ m ∈ periodOfF2, m.ends .session = false := by decide
  have hnodup : ((twoSessions.filterMap Act.opens?).map Prod.fst).Nodup := by decide +kernel
  obtain ⟨_, hprefix, _, hopened⟩ :=
    stream_isolated (fun _ _ => true) listening .all .silent 4 twoSessions 1
  exact ⟨hfirst, hlog, hends, hprefix _ _ _ _ hlog hends, hnodup,
    (hopened _ _ _ hlog).2.2 hnodup⟩

end Journal

end EventGateway
