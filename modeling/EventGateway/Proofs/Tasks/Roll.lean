import EventGateway.Proofs.Tasks.Table

/-! A roll numbers the registrations of a run in the order they are made, without bound. The table
of tasks, which tells them apart by a generation of 64 bits, follows the roll of its run as long as
the run makes no more registrations than there are generations. -/

namespace EventGateway

/-- A registration by its number in the run. -/
structure Numbered where
  number : Nat
  owner : Owner
  deriving DecidableEq

namespace Numbered

def registration (x : Numbered) : Registration := ⟨x.owner, UInt64.ofNat x.number⟩

end Numbered

structure Roll where
  entry : String → Option Numbered
  made : Nat

namespace Roll

def empty : Roll := ⟨fun _ => none, 0⟩

def put (r : Roll) (id : String) (x : Option Numbered) : Roll :=
  { r with entry := fun j => if j = id then x else r.entry j }

/-- Whether the task is mapped by the registration with this number. -/
def Holds (r : Roll) (id : String) (n : Nat) : Prop := (r.entry id).map Numbered.number = some n

instance (r : Roll) (id : String) (n : Nat) : Decidable (r.Holds id n) :=
  inferInstanceAs (Decidable (_ = _))

def register (r : Roll) (id sessionId : String) (userId : Option String) : Roll :=
  if id = "" ∨ sessionId = "" ∨ (r.entry id).isSome then r
  else { r.put id (some ⟨r.made, sessionId, nonEmpty? userId⟩) with made := r.made + 1 }

def release (r : Roll) (id : String) (n : Nat) : Roll :=
  if r.Holds id n then r.put id none else r

def quiet (r : Roll) : QuietOp → Roll
  | .started id sessionId userId => r.register id sessionId userId
  | .abandon id => r.put id none
  | _ => r

def quietly (r : Roll) (ops : List QuietOp) : Roll := ops.foldl quiet r

def during (r : Roll) (g : Registry) (reply : Reply) : Roll :=
  if g.contains .sessionTask then r.quietly reply.during else r

/-- A start that is refused takes back the registration it made, and no other. -/
def start (r : Roll) (g : Registry) (reply : Reply) (id sessionId : String)
    (userId : Option String) : Roll :=
  if id = "" ∨ sessionId = "" ∨ (r.entry id).isSome then r
  else
    let after := (r.register id sessionId userId).during g reply
    if reply.accepts g then after else after.release id r.made

/-- An accepted last report takes away the registration it found, and no other. -/
def report (r : Roll) (g : Registry) (reply : Reply) (id : String) (running : Bool) : Roll :=
  match r.entry id with
  | none => r
  | some x =>
    let after := r.during g reply
    if reply.accepts g && !running then after.release id x.number else after

def step (g : Registry) (r : Roll) (s : Reply × TaskOp) : Roll :=
  match s.2 with
  | .quiet op => r.quiet op
  | .publish e => if g.contains e.topic then r.quietly s.1.during else r
  | .start id sessionId userId _ => r.start g s.1 id sessionId userId
  | .report id _ running => r.report g s.1 id running

def ofRun (g : Registry) (steps : List (Reply × TaskOp)) : Roll := steps.foldl (step g) empty

theorem ofRun_append (g : Registry) (steps : List (Reply × TaskOp)) (s : Reply × TaskOp) :
    ofRun g (steps ++ [s]) = (ofRun g steps).step g s := by
  simp [ofRun]

/-! The number of registrations only grows. -/

theorem made_le_register (r : Roll) (id sessionId : String) (userId : Option String) :
    r.made ≤ (r.register id sessionId userId).made := by
  unfold register
  split
  · exact Nat.le_refl _
  · exact Nat.le_succ _

theorem made_le_quiet (r : Roll) (op : QuietOp) : r.made ≤ (r.quiet op).made := by
  cases op with
  | started id s u => exact made_le_register r id s u
  | _ => exact Nat.le_refl _

theorem made_le_quietly (r : Roll) (ops : List QuietOp) : r.made ≤ (r.quietly ops).made := by
  induction ops generalizing r with
  | nil => exact Nat.le_refl _
  | cons op ops ih => exact Nat.le_trans (made_le_quiet r op) (ih _)

theorem made_le_during (r : Roll) (g : Registry) (reply : Reply) :
    r.made ≤ (r.during g reply).made := by
  unfold during
  split
  · exact made_le_quietly r _
  · exact Nat.le_refl _

@[simp] theorem made_release (r : Roll) (id : String) (n : Nat) :
    (r.release id n).made = r.made := by
  unfold release
  split <;> rfl

theorem made_le_step (g : Registry) (r : Roll) (s : Reply × TaskOp) :
    r.made ≤ (r.step g s).made := by
  obtain ⟨reply, op⟩ := s
  cases op with
  | quiet op => exact made_le_quiet r op
  | publish e =>
    simp only [step]
    split
    · exact made_le_quietly r _
    · exact Nat.le_refl _
  | start id s u st =>
    have hm := Nat.le_trans (made_le_register r id s u) (made_le_during (r.register id s u) g reply)
    simp only [step, start]
    split
    · exact Nat.le_refl _
    · split
      · exact hm
      · simpa using hm
  | report id st running =>
    have hm := made_le_during r g reply
    simp only [step, report]
    split
    · exact Nat.le_refl _
    · split
      · simpa using hm
      · exact hm

end Roll

/-- The table maps the tasks of the roll to the same owners, under generations that are the
numbers of their registrations. -/
structure Tasks.Follows (t : Tasks) (r : Roll) : Prop where
  find : ∀ id, t.find? id = (r.entry id).map Numbered.registration
  next : t.next = UInt64.ofNat r.made
  below : ∀ id x, r.entry id = some x → x.number < r.made
  named : ∀ id x, r.entry id = some x → id ≠ ""

namespace Tasks.Follows

variable {t : Tasks} {r : Roll}

theorem empty : Tasks.empty.Follows Roll.empty :=
  ⟨fun _ => rfl, rfl, fun _ _ hx => by simp [Roll.empty] at hx,
    fun _ _ hx => by simp [Roll.empty] at hx⟩

theorem isSome_find (h : t.Follows r) (id : String) :
    (t.find? id).isSome = (r.entry id).isSome := by
  rw [h.find, Option.isSome_map]

theorem erase (h : t.Follows r) (id : String) : (t.erase id).Follows (r.put id none) := by
  have hold : ∀ j x, (r.put id none).entry j = some x → r.entry j = some x := by
    intro j x hx
    by_cases hj : j = id
    · simp [Roll.put, hj] at hx
    · simpa [Roll.put, hj] using hx
  refine ⟨fun j => ?_, h.next, fun j x hx => h.below j x (hold j x hx),
    fun j x hx => h.named j x (hold j x hx)⟩
  rw [find?_erase]
  by_cases hj : j = id
  · simp [Roll.put, hj]
  · simp [Roll.put, hj, h.find]

theorem register (h : t.Follows r) (id sessionId : String) (userId : Option String) :
    (t.register id sessionId userId).2.Follows (r.register id sessionId userId) := by
  rcases register_cases t id sessionId userId with ⟨hid, hs, hf, ht⟩ | ⟨hc, e, ht⟩
  · have hnone : r.entry id = none := by
      have hsome := h.isSome_find id
      rw [hf] at hsome
      simpa using hsome.symm
    rw [ht]
    simp only [Roll.register, hid, hs, hnone, Option.isSome_none, Bool.false_eq_true, or_self,
      if_false]
    refine ⟨fun j => ?_, ?_, fun j x hx => ?_, fun j x hx => ?_⟩
    · by_cases hj : j = id
      · simp [Roll.put, hj, find?, Numbered.registration, h.next]
      · have hfind := h.find j
        simp only [find?] at hfind
        simp [Roll.put, hj, find?, lookup_cons_ne hj, hfind]
    · simp [h.next]
    · by_cases hj : j = id
      · obtain rfl : (⟨r.made, sessionId, nonEmpty? userId⟩ : Numbered) = x := by
          simpa [Roll.put, hj] using hx
        exact Nat.lt_succ_self _
      · exact Nat.lt_succ_of_lt (h.below j x (by simpa [Roll.put, hj] using hx))
    · by_cases hj : j = id
      · exact hj ▸ hid
      · exact h.named j x (by simpa [Roll.put, hj] using hx)
  · rw [h.isSome_find] at hc
    rw [ht]
    simpa [Roll.register, hc] using h

theorem quiet (h : t.Follows r) (op : QuietOp) : (t.quiet op).2.Follows (r.quiet op) := by
  cases op with
  | started id s u => exact h.register id s u
  | abandon id => exact h.erase id
  | info | owner | sessionOf => exact h

theorem quietly (h : t.Follows r) (ops : List QuietOp) :
    (t.quietly ops).2.Follows (r.quietly ops) := by
  induction ops generalizing t r with
  | nil => exact h
  | cons op ops ih => exact ih (h.quiet op)

theorem during (h : t.Follows r) (g : Registry) (reply : Reply) :
    (t.during g reply).Follows (r.during g reply) := by
  unfold Tasks.during Roll.during
  split
  · exact h.quietly _
  · exact h

/-- Generations tell registrations apart while there are enough of them. -/
theorem holds_iff (h : t.Follows r) (few : r.made ≤ UInt64.size) {id : String} {x : Numbered}
    (hx : x.number < r.made) :
    (t.find? id).map Registration.generation = some x.registration.generation ↔
      r.Holds id x.number := by
  rw [h.find, Roll.Holds]
  cases he : r.entry id with
  | none => simp
  | some y =>
    have hy := h.below id y he
    simp only [Option.map_some, Option.some.injEq, Numbered.registration]
    constructor
    · intro hg
      -- Both numbers are below the number of generations, where none comes twice.
      have hn := congrArg UInt64.toNat hg
      rwa [UInt64.toNat_ofNat_of_lt' (by omega), UInt64.toNat_ofNat_of_lt' (by omega)] at hn
    · intro hn
      rw [hn]

theorem release (h : t.Follows r) (few : r.made ≤ UInt64.size) {x : Numbered}
    (hx : x.number < r.made) (id : String) :
    (t.release id x.registration).2.Follows (r.release id x.number) := by
  rw [release_table]
  unfold Roll.release
  by_cases hr : r.Holds id x.number
  · simpa [(h.holds_iff few hx).mpr hr, hr] using h.erase id
  · have hg := mt (h.holds_iff few hx).mp hr
    simpa [hg, hr] using h

end Tasks.Follows

end EventGateway
