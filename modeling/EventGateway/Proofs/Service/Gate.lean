import EventGateway.Proofs.Secret.Opening
import EventGateway.Proofs.Service.Credentials
import EventGateway.Proofs.Service.Refused
import EventGateway.Proofs.Stream.Run

/-! The gate of the admin interface. What a request shows of the secret is all that counts before it
is let in, and the hash that it is checked against is the one that was configured last. -/

namespace EventGateway

open Http

/-- The request is for a route of the admin interface, by a method that the route has. -/
structure Route.Matches (route : Route) (r : Request) : Prop where
  path : ofPath? r.path = some route
  method : r.method ∈ route.methods
  admin : route.isAdmin = true

namespace Service

variable {verify : Verifier} {s : Service} {r : Request} {route : Route} {c : Credential}

/-- What a route does with a request that has been let in. -/
def attend (s : Service) (route : Route) (r : Request) : Except Refusal Answer × Service :=
  match AdminRequest.ofRoute r route with
  | .error e => (.error e, s)
  | .ok a => s.perform a

theorem dispatch_matched (hm : route.Matches r) (verify : Verifier) (s : Service) :
    s.dispatch verify r = s.administer verify route r := by
  obtain ⟨hpath, hmethod, hadmin⟩ := hm
  unfold dispatch
  cases route with
  | health | stream => cases hadmin
  | _ => simp only [hpath, hmethod, not_true_eq_false, if_false]

theorem dispatch_shows (hm : route.Matches r) (hc : r.Shows c) (verify : Verifier) (s : Service) :
    s.dispatch verify r = if c.opens verify s.runtime.secretHash then s.attend route r
      else (.error c.refusal, s) := by
  rw [dispatch_matched hm, administer, AdminRequest.authorize_shows hc]
  cases c.opens verify s.runtime.secretHash <;> rfl

theorem opens_of_granted {a : AdminRequest} (hc : r.Shows c) (ha : s.granted? verify r = some a) :
    c.opens verify s.runtime.secretHash = true := by
  obtain ⟨_, _, _, hauth, _⟩ := granted?_eq_some.mp ha
  rw [AdminRequest.authorize_shows hc] at hauth
  cases hopens : c.opens verify s.runtime.secretHash with
  | true => rfl
  | false => simp [hopens] at hauth

/-- The answer to a request that is not let in depends on what it shows, and on nothing else but
whether the head alone is asked for. -/
theorem handle_shut (hm : route.Matches r) (hc : r.Shows c)
    (hshut : c.opens verify s.runtime.secretHash = false) (position : Json.Error → String) :
    s.handle verify r = (if r.method = .head then (c.refusal.response position).withoutBody
      else c.refusal.response position, s) := by
  rw [handle, dispatch_shows hm hc, hshut, c.response_refusal position (s.positions.body r)]
  rfl

end Service

/-- The configuration that an act puts in. -/
def Act.configures? : Act → Option Runtime
  | .reload r => some r
  | _ => none

/-- The configuration that was put in last, or else the one of the start. -/
def configured (first : Runtime) (acts : List Act) : Runtime :=
  (acts.filterMap Act.configures?).getLastD first

namespace Gateway

variable {verify : Verifier}

theorem runtime_withConnection (g : Gateway) (n : Nat) (f : Connection → Hub → Connection × Hub) :
    (g.withConnection n f).service.runtime = g.service.runtime := by
  unfold withConnection
  split <;> rfl

theorem runtime_act (g : Gateway) (a : Act) :
    (g.act verify a).service.runtime = a.configures?.getD g.service.runtime := by
  cases a with
  | handle r => simp only [act, Act.configures?, Option.getD_none, g.service.runtime_handle verify r]
  | connect fresh query =>
    simp only [act, connect]
    split <;> rfl
  | receive n m =>
    simp only [act]
    split
    · exact g.runtime_withConnection n _
    · rfl
  | poll n t => exact g.runtime_withConnection n _
  | disconnect n => exact g.runtime_withConnection n _
  | collect n =>
    simp only [act, collect]
    split <;> rfl
  | reload | publish | close => rfl

theorem runtime_run (g : Gateway) (acts : List Act) :
    (g.run verify acts).service.runtime = configured g.service.runtime acts := by
  induction acts using List.reverseRecOn with
  | nil => rfl
  | append_singleton acts a ih =>
    have hstep : g.run verify (acts ++ [a]) = (g.run verify acts).act verify a := by simp [run]
    rw [hstep, runtime_act, ih]
    cases ha : a.configures? with
    | none => simp [configured, ha]
    | some r => simp [configured, ha]

/-- After any run, a request for the admin interface is carried out only if the first header for the
secret is readable and opens the hash that was configured last. Otherwise nothing at all changes,
and the answer is the same for every state with that hash and every request that shows the same,
whatever else it asks. -/
theorem gate_closed (verify : Verifier) (runtime : Runtime) (registry : Registry)
    (positions : Positions) (capacity : Nat) (acts : List Act) {route : Route} {r : Request}
    (hm : route.Matches r) :
    let g := (start (.start runtime registry positions capacity)).run verify acts
    let hash := (configured runtime acts).secretHash
    ∃ c, r.Shows c ∧
    (c.opens verify hash = true → g.service.dispatch verify r = g.service.attend route r) ∧
    (∀ a, g.service.granted? verify r = some a → ∃ s, c = .secret s ∧ verify hash s = true) ∧
    (c.opens verify hash = false → g.act verify (.handle r) = g ∧
      (g.service.handle verify r).1.status = (if c = .unreadable then 400 else 401) ∧
      ∀ (s' : Service) (route' : Route) (r' : Request), s'.runtime.secretHash = hash →
        route'.Matches r' → r'.method = r.method → r'.Shows c →
        (s'.handle verify r').1 = (g.service.handle verify r).1) := by
  intro g hash
  obtain ⟨c, hc⟩ := r.exists_shows
  have hhash : g.service.runtime.secretHash = hash := congrArg Runtime.secretHash
    ((start (.start runtime registry positions capacity)).runtime_run acts)
  refine ⟨c, hc, fun hopens => ?_, fun a ha => ?_, fun hshut => ?_⟩
  · rw [Service.dispatch_shows hm hc, hhash, if_pos hopens]
  · rw [← hhash]
    exact Credential.opens_iff.mp (Service.opens_of_granted hc ha)
  · have hanswer := Service.handle_shut (s := g.service) hm hc (hhash ▸ hshut) fun _ => ""
    refine ⟨?_, ?_, fun s' route' r' hs' hm' hmethod hc' => ?_⟩
    · rw [act, hanswer]
    · rw [hanswer, ← c.status_refusal fun _ => ""]
      split <;> rfl
    · rw [hanswer, Service.handle_shut hm' hc' (hs' ▸ hshut) fun _ => "", hmethod]

def keys : Verifier := fun hash secret =>
  decide ((hash, secret) ∈ [(Secret.storedS, "s"), (Secret.storedHunter, "hunter2")])

def changed : Request := Service.posted "/api/admin/config/changed" ""

/-- The first secret lets the request in, until another is put in its place. -/
theorem gate_closed_replaced :
    let first : Runtime := ⟨.v4 127 0 0 1 8080, Secret.storedS⟩
    let g := (start (.start first .all .silent 4)).run keys
      [.handle changed, .reload { first with secretHash := Secret.storedHunter }]
    Route.configChanged.Matches changed ∧
    (Service.start first .all .silent 4).granted? keys changed = some .configChanged ∧
    g.act keys (.handle changed) = g ∧ (g.service.handle keys changed).1.status = 401 := by
  intro first g
  have hm : Route.configChanged.Matches changed := ⟨by decide +kernel, by decide, rfl⟩
  have hfirst : keys Secret.storedS "s" = true := by decide +kernel
  have hsecond : keys Secret.storedHunter "s" = false := by decide +kernel
  have hauthorized : AdminRequest.authorize keys Secret.storedS changed = .ok () :=
    AdminRequest.authorize_of_header (Service.header?_posted _ _) Service.visibleText?_posted hfirst
  obtain ⟨c, hc, -, -, hshut⟩ := gate_closed keys first .all .silent 4
    [.handle changed, .reload { first with secretHash := Secret.storedHunter }] hm
  have hrefused : AdminRequest.authorize keys Secret.storedHunter changed = .error .wrongSecret := by
    rw [AdminRequest.authorize, changed, Service.header?_posted]
    simp only [Service.visibleText?_posted, hsecond]
    rfl
  rw [AdminRequest.authorize_shows hc] at hrefused
  have hhash : (configured first [.handle changed,
      .reload { first with secretHash := Secret.storedHunter }]).secretHash = Secret.storedHunter := rfl
  rw [hhash] at hshut
  cases hopens : c.opens keys Secret.storedHunter with
  | true => simp [hopens] at hrefused
  | false =>
    obtain ⟨hsame, hstatus, -⟩ := hshut hopens
    refine ⟨hm, Service.granted?_eq_some.mpr ⟨_, hm.path, hm.method, hauthorized, rfl⟩, hsame, ?_⟩
    rw [hstatus, if_neg]
    rintro rfl
    simp [Credential.opens, Credential.refusal] at hrefused

end Gateway

end EventGateway
