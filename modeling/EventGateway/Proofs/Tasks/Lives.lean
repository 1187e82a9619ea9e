import EventGateway.Proofs.Tasks.Chronicle

/-! The published life of a task. What was sent for one registration begins with the event of its
start, tells of this task and its owner, and ends with the first last status that was accepted. A
last status that was refused can be sent again. -/

namespace EventGateway

/-- The last status of a task went out. -/
def Sending.Ends (s : Sending) : Prop := s.accepted = true ∧ s.event.isTerminal = true

instance (s : Sending) : Decidable s.Ends := inferInstanceAs (Decidable (_ ∧ _))

/-- What was sent for a registration that the task is mapped by, or not, and that was abandoned, or
not. -/
structure Life (m : Enrolment) (l : List Sending) (held abandoned : Prop) : Prop where
  tells : ∀ s ∈ l, ∃ statusName running, m.Tells statusName running s.event
  begins : ∀ statusName, m.announces = some statusName → ∃ s rest, l = s :: rest ∧
    m.Tells statusName true s.event ∧ (s.accepted = false → rest = [] ∧ ¬held)
  ends : ∀ before s after, l = before ++ s :: after → s.Ends → after = [] ∧ ¬held
  stays : ∀ s ∈ l, s.accepted = false → s.event.isTerminal = true →
    held ∨ abandoned ∨ ∃ x ∈ l, x.Ends

namespace Life

variable {m : Enrolment} {l : List Sending} {held abandoned held' abandoned' : Prop} {s : Sending}
  {statusName : Option String} {running : Bool}

theorem silent (hm : m.announces = none) : Life m [] held abandoned where
  tells _ hs := absurd hs List.not_mem_nil
  begins st hst := by simp [hm] at hst
  ends before s after hsplit := by simp at hsplit
  stays _ hs := absurd hs List.not_mem_nil

theorem unannounced (h : Life m [] held abandoned) : m.announces = none := by
  cases hst : m.announces with
  | none => rfl
  | some st =>
    obtain ⟨_, _, hl, _⟩ := h.begins st hst
    exact nomatch hl

theorem mono (h : Life m l held abandoned) (hback : held' → held)
    (hlost : held → held' ∨ abandoned') (hgone : abandoned → abandoned') :
    Life m l held' abandoned' where
  tells := h.tells
  begins st hst := by
    obtain ⟨s, rest, hl, htells, hrefused⟩ := h.begins st hst
    exact ⟨s, rest, hl, htells, fun hs => ⟨(hrefused hs).1, fun hh => (hrefused hs).2 (hback hh)⟩⟩
  ends before s after hl hs :=
    ⟨(h.ends before s after hl hs).1, fun hh => (h.ends before s after hl hs).2 (hback hh)⟩
  stays s hs hrefused hlast := by
    rcases h.stays s hs hrefused hlast with hh | hgone' | hend
    · rcases hlost hh with hh' | hgone'
      · exact .inl hh'
      · exact .inr (.inl hgone')
    · exact .inr (.inl (hgone hgone'))
    · exact .inr (.inr hend)

/-- The event of a start is the first one. The registration is kept only if it was accepted. -/
theorem announced (hm : m.announces = some statusName) (htells : m.Tells statusName true s.event)
    (hkept : s.accepted = false → ¬held) : Life m [s] held abandoned where
  tells x hx := by
    obtain rfl := List.mem_singleton.mp hx
    exact ⟨_, _, htells⟩
  begins st hst := by
    obtain rfl : statusName = st := Option.some.inj (hm.symm.trans hst)
    exact ⟨s, [], rfl, htells, fun hs => ⟨rfl, hkept hs⟩⟩
  ends before x after hsplit hx := by
    have hmem : x ∈ [s] := hsplit ▸ by simp
    obtain rfl := List.mem_singleton.mp hmem
    have hrunning := htells.isTerminal.symm.trans hx.2
    exact nomatch hrunning
  stays x hx hrefused hlast := by
    obtain rfl := List.mem_singleton.mp hx
    have hrunning := htells.isTerminal.symm.trans hlast
    exact nomatch hrunning

/-- A report is sent while the registration is held, so nothing has ended its life before. -/
theorem reported (h : Life m l held abandoned) (hheld : held)
    (htells : m.Tells statusName running s.event) (hends : s.Ends → ¬held')
    (hlost : ¬s.Ends → held' ∨ abandoned') : Life m (l ++ [s]) held' abandoned' where
  tells x hx := by
    rcases List.mem_append.mp hx with hx | hx
    · exact h.tells x hx
    · obtain rfl := List.mem_singleton.mp hx
      exact ⟨_, _, htells⟩
  begins st hst := by
    obtain ⟨x, rest, rfl, hfirst, hrefused⟩ := h.begins st hst
    exact ⟨x, rest ++ [s], rfl, hfirst, fun hx => absurd hheld (hrefused hx).2⟩
  ends before x after hsplit hx := by
    rcases List.eq_nil_or_concat after with rfl | ⟨after', y, rfl⟩
    · obtain ⟨-, hlast⟩ := List.append_inj' hsplit rfl
      obtain rfl : s = x := by simpa using hlast
      exact ⟨rfl, hends hx⟩
    · have hbefore : l = before ++ x :: after' := by
        have hassoc : l ++ [s] = (before ++ x :: after') ++ [y] := by simpa using hsplit
        exact (List.append_inj' hassoc rfl).1
      exact absurd hheld (h.ends before x after' hbefore hx).2
  stays x hx hrefused hlast := by
    by_cases hs : s.Ends
    · exact .inr (.inr ⟨s, by simp, hs⟩)
    · rcases hlost hs with hheld' | hgone
      · exact .inl hheld'
      · exact .inr (.inl hgone)

end Life

namespace Chronicle

variable {c c' c'' : Chronicle} {g : Registry} {announces : Option (Option String)} {n : Nat}

/-- What happens to the table without anything being sent. Registrations come, and go only by being
abandoned. -/
structure Proceeds (announces : Option (Option String)) (c c' : Chronicle) : Prop where
  sent : c'.sent = c.sent
  made : ∃ more, c'.made = c.made ++ more ∧ ∀ m ∈ more, m.announces = announces
  held : ∀ id n, c'.holder id = some n → n < c.made.length → c.holder id = some n
  lost : ∀ id n, c.holder id = some n → c'.holder id = some n ∨ n ∈ c'.abandoned
  abandoned : ∀ n ∈ c.abandoned, n ∈ c'.abandoned

namespace Proceeds

theorem refl (announces : Option (Option String)) (c : Chronicle) : Proceeds announces c c :=
  ⟨rfl, ⟨[], by simp⟩, fun _ _ h _ => h, fun _ _ h => .inl h, fun _ h => h⟩

theorem trans (h : Proceeds announces c c') (h' : Proceeds announces c' c'') :
    Proceeds announces c c'' := by
  obtain ⟨more, hmore, hann⟩ := h.made
  obtain ⟨more', hmore', hann'⟩ := h'.made
  refine ⟨h'.sent.trans h.sent, ⟨more ++ more', ?_, fun m hm => ?_⟩, fun id n hn hlt => ?_,
    fun id n hn => ?_, fun n hn => h'.abandoned n (h.abandoned n hn)⟩
  · rw [hmore', hmore, List.append_assoc]
  · rcases List.mem_append.mp hm with hm | hm
    · exact hann m hm
    · exact hann' m hm
  · have hlt' : n < c'.made.length := by
      rw [hmore, List.length_append]
      omega
    exact h.held id n (h'.held id n hn hlt') hlt
  · rcases h.lost id n hn with hn' | hn'
    · exact h'.lost id n hn'
    · exact .inr (h'.abandoned n hn')

theorem getElem? (h : Proceeds announces c c') (hn : n < c.made.length) : c'.made[n]? = c.made[n]? := by
  obtain ⟨more, hmore, _⟩ := h.made
  rw [hmore, List.getElem?_append_left hn]

end Proceeds

theorem proceeds_register (hc : c.Sound) (id sessionId : String) (userId : Option String)
    (announces : Option (Option String)) :
    Proceeds announces c (c.register id sessionId userId announces) := by
  rcases c.register_cases id sessionId userId announces with
    ⟨r, _, _, hf, _, _, heq⟩ | ⟨_, _, heq⟩
  · rw [heq]
    refine ⟨rfl, ⟨_, rfl, by simp⟩, fun j k hk hlt => ?_, fun j k hk => .inl ?_, fun _ h => h⟩
    · by_cases hj : j = id
      · obtain rfl : c.made.length = k := by simpa [hj] using hk
        exact absurd hlt (Nat.lt_irrefl _)
      · simpa [hj] using hk
    · have hj : j ≠ id := by
        rintro rfl
        simp [hc.holder_none hf] at hk
      simpa [hj] using hk
  · rw [heq]
    exact .refl announces c

theorem proceeds_abandon (c : Chronicle) (id : String) : Proceeds announces c (c.abandon id) := by
  refine ⟨rfl, ⟨[], by simp [abandon, unmap]⟩, fun j k hk _ => ?_, fun j k hk => ?_, fun k hk => ?_⟩
  · by_cases hj : j = id
    · simp [abandon, unmap, hj] at hk
    · simpa [abandon, unmap, hj] using hk
  · by_cases hj : j = id
    · exact .inr (by simp [abandon, ← hj, hk])
    · exact .inl (by simpa [abandon, unmap, hj] using hk)
  · exact List.mem_append_left _ hk

theorem proceeds_quiet (hc : c.Sound) (op : QuietOp) : Proceeds none c (c.quiet op) := by
  cases op with
  | started id s u => exact proceeds_register hc id s u none
  | abandon id => exact c.proceeds_abandon id
  | info | owner | sessionOf => exact .refl none c

theorem proceeds_quietly (hc : c.Sound) (ops : List QuietOp) : Proceeds none c (c.quietly ops) := by
  induction ops generalizing c with
  | nil => exact .refl none c
  | cons op ops ih => exact (proceeds_quiet hc op).trans (ih (hc.quiet op))

/-- What was sent for the registration with this number, in the state the registration is in now. -/
def LifeOf (c : Chronicle) (n : Nat) : Prop :=
  ∀ m, c.made[n]? = some m →
    Life m (c.sentFor n) (c.holder m.id = some n) (n ∈ c.abandoned)

theorem Sound.sentFor_nil (hc : c.Sound) (hn : c.made.length ≤ n) : c.sentFor n = [] := by
  refine List.filter_eq_nil_iff.mpr fun s hs hsource => ?_
  have hlt := hc.built s hs n (by simpa using hsource)
  omega

theorem sentFor_of_sent (h : c'.sent = c.sent) (n : Nat) : c'.sentFor n = c.sentFor n := by
  rw [sentFor, h, sentFor]

namespace Proceeds

theorem lifeOf_old (h : Proceeds announces c c') (hn : n < c.made.length) (hl : c.LifeOf n) :
    c'.LifeOf n := by
  intro m hm
  rw [sentFor_of_sent h.sent]
  exact (hl m ((h.getElem? hn).symm.trans hm)).mono (fun hheld => h.held _ n hheld hn)
    (fun hheld => h.lost _ n hheld) (h.abandoned n)

theorem lifeOf_new (h : Proceeds none c c') (hc : c.Sound) (hn : c.made.length ≤ n) :
    c'.LifeOf n := by
  intro m hm
  obtain ⟨more, hmore, hsilent⟩ := h.made
  rw [hmore, List.getElem?_append_right hn] at hm
  rw [sentFor_of_sent h.sent, hc.sentFor_nil hn]
  exact .silent (hsilent m (List.mem_of_getElem? hm))

end Proceeds

theorem sentFor_note (c : Chronicle) (s : Sending) (n : Nat) :
    (c.note s).sentFor n = c.sentFor n ++ if s.source = some n then [s] else [] := by
  by_cases hs : s.source = some n <;> simp [note, sentFor, hs]

theorem lifeOf_note {s : Sending} (hs : s.source ≠ some n) (hl : c.LifeOf n) :
    (c.note s).LifeOf n := by
  intro m hm
  rw [sentFor_note, if_neg hs, List.append_nil]
  exact hl m hm

theorem proceeds_offer (hc : c.Sound) (g : Registry) (reply : Reply) {source : Option Nat} (e : Event)
    (hs : ∀ n, source = some n → n < c.made.length) :
    Proceeds none (c.note ⟨source, e, g.contains e.topic && reply.answer.isOk⟩)
      (c.offer g reply source e) := by
  have hnoted := hc.note (s := ⟨source, e, g.contains e.topic && reply.answer.isOk⟩) hs
  unfold offer
  split
  · exact proceeds_quietly hnoted _
  · exact .refl none _

theorem lifeOf_offer (hc : c.Sound) (g : Registry) (reply : Reply) {source : Option Nat} (e : Event)
    (hs : ∀ n, source = some n → n < c.made.length) (hn : source ≠ some n)
    (hl : n < c.made.length → c.LifeOf n) : (c.offer g reply source e).LifeOf n := by
  have hnoted := hc.note (s := ⟨source, e, g.contains e.topic && reply.answer.isOk⟩) hs
  have hproceeds := proceeds_offer hc g reply e hs
  rcases Nat.lt_or_ge n c.made.length with hlt | hge
  · exact hproceeds.lifeOf_old hlt (lifeOf_note hn (hl hlt))
  · exact hproceeds.lifeOf_new hnoted hge

@[simp] theorem made_release (c : Chronicle) (id : String) (r : Registration) :
    (c.release id r).made = c.made := by
  unfold release
  split <;> rfl

@[simp] theorem abandoned_release (c : Chronicle) (id : String) (r : Registration) :
    (c.release id r).abandoned = c.abandoned := by
  unfold release
  split <;> rfl

theorem holder_of_release {id j : String} {r : Registration}
    (hn : (c.release id r).holder j = some n) : c.holder j = some n := by
  unfold release at hn
  split at hn
  · by_cases hj : j = id
    · simp [unmap, hj] at hn
    · simpa [unmap, hj] using hn
  · exact hn

theorem holder_release {id j : String} (r : Registration) (hn : c.holder j = some n)
    (hother : c.holder id ≠ some n) : (c.release id r).holder j = some n := by
  have hj : j ≠ id := fun hj => hother (hj ▸ hn)
  unfold release
  split
  · simpa [unmap, hj] using hn
  · exact hn

/-- A registration that is taken back maps the task no more. -/
theorem Sound.release_unheld (hc : c.Sound) {m : Enrolment} (hm : c.made[n]? = some m) :
    (c.release m.id m.registration).holder m.id ≠ some n := by
  intro hn
  have hgeneration : (c.tasks.find? m.id).map Registration.generation =
      some m.registration.generation := by
    rw [hc.find_held (holder_of_release hn) hm, Option.map_some]
  rw [Chronicle.release, if_pos hgeneration] at hn
  simp [Chronicle.unmap] at hn

/-- What is taken back by mistake is a registration that nothing was sent for. -/
theorem lifeOf_release {id : String} (hl : c.LifeOf n) (r : Registration)
    (hn : c.holder id = some n → c.sentFor n = []) : (c.release id r).LifeOf n := by
  intro m hm
  rw [made_release] at hm
  rw [sentFor_of_sent (sent_release c id r), abandoned_release]
  by_cases hheld : c.holder id = some n
  · have hlife := hl m hm
    rw [hn hheld] at hlife ⊢
    exact .silent hlife.unannounced
  · exact (hl m hm).mono holder_of_release (fun hh => .inl (holder_release r hh hheld)) fun h => h

/-- While an event is offered for a registration, the task can pass to others only that are new. -/
theorem sentFor_offer_nil (hc : c.Sound) (g : Registry) (reply : Reply) {e : Event} {id : String}
    (hn : c.holder id = some n) {k : Nat} (hk : k ≠ n)
    (hheld : (c.offer g reply (some n) e).holder id = some k) :
    (c.offer g reply (some n) e).sentFor k = [] := by
  have hproceeds := proceeds_offer hc g reply e (hc.range hn)
  rcases Nat.lt_or_ge k c.made.length with hlt | hge
  · have hbefore : c.holder id = some k := hproceeds.held id k hheld hlt
    exact absurd (Option.some.inj (hbefore.symm.trans hn)) hk
  · rw [sentFor_of_sent hproceeds.sent]
    exact (hc.note (hc.range hn)).sentFor_nil hge

theorem sent_send (c : Chronicle) (g : Registry) (reply : Reply) (source : Option Nat) (id : String)
    (r : Registration) (e : Event) (back : Bool) : (c.send g reply source id r e back).sent =
      c.sent ++ [⟨source, e, g.contains e.topic && reply.answer.isOk⟩] := by
  rw [← sent_offer]
  cases back with
  | true => exact sent_release ..
  | false => rfl

theorem made_send (c : Chronicle) (g : Registry) (reply : Reply) (source : Option Nat) (id : String)
    (r : Registration) (e : Event) (back : Bool) :
    (c.send g reply source id r e back).made = (c.offer g reply source e).made := by
  cases back with
  | true => exact made_release ..
  | false => rfl

theorem sentFor_send (c : Chronicle) (g : Registry) (reply : Reply) (n : Nat) (id : String)
    (r : Registration) (e : Event) (back : Bool) :
    (c.send g reply (some n) id r e back).sentFor n =
      c.sentFor n ++ [⟨some n, e, g.contains e.topic && reply.answer.isOk⟩] := by
  simp [sentFor, sent_send]

/-- An event that is sent for a registration goes on with the life of this one. -/
theorem lifeOf_send (hc : c.Sound) (g : Registry) (reply : Reply) {m : Enrolment}
    (hn : c.holder m.id = some n) (hm : c.made[n]? = some m) {e : Event} (back : Bool)
    (hothers : ∀ k ≠ n, c.LifeOf k)
    (hown : ∀ held abandoned : Prop, (back = true → ¬held) → (back = false → held ∨ abandoned) →
      Life m (c.sentFor n ++ [⟨some n, e, g.contains e.topic && reply.answer.isOk⟩]) held
        abandoned) (k : Nat) :
    (c.send g reply (some n) m.id m.registration e back).LifeOf k := by
  have hrange := hc.range hn
  have hproceeds := proceeds_offer hc g reply e hrange
  have hmade : (c.offer g reply (some n) e).made[n]? = some m :=
    (hproceeds.getElem? (hc.lt hn)).trans hm
  by_cases hk : k = n
  · subst hk
    intro m' hm'
    rw [made_send] at hm'
    obtain rfl : m = m' := Option.some.inj (hmade.symm.trans hm')
    rw [sentFor_send]
    refine hown _ _ (fun hback => ?_) fun hback => ?_
    · subst hback
      exact (hc.offer g reply e hrange).release_unheld hmade
    · subst hback
      exact hproceeds.lost m.id k hn
  · have hsource : some n ≠ some k := fun h => hk (Option.some.inj h).symm
    have hlife := lifeOf_offer hc g reply e hrange hsource fun _ => hothers k hk
    cases back with
    | true =>
      -- the table tells registrations apart by generation only, so it may remove another one
      exact lifeOf_release hlife m.registration (sentFor_offer_nil hc g reply hn hk)
    | false => exact hlife

/-- A start that was refused has taken its registration back, so no event can follow. -/
theorem lifeOf_start (hc : c.Sound) (h : ∀ n, c.LifeOf n) (g : Registry) (reply : Reply)
    (id sessionId : String) (userId statusName : Option String) (n : Nat) :
    (c.start g reply id sessionId userId statusName).LifeOf n := by
  rcases c.start_cases g reply id sessionId userId statusName with
    ⟨_, _, heq⟩ | ⟨r, e, _, hheld, hmade, htells, heq⟩
  · rw [heq]
    exact h n
  · have henrolled := hc.register id sessionId userId (some statusName)
    have hproceeds := proceeds_register hc id sessionId userId (some statusName)
    have hm : (c.register id sessionId userId (some statusName)).made[c.made.length]? =
        some ⟨id, r, some statusName⟩ := by rw [hmade, List.getElem?_concat_length]
    rw [heq]
    refine lifeOf_send henrolled g reply (m := ⟨id, r, some statusName⟩) hheld hm _
      (fun k hk => ?_) (fun held abandoned hback _ => ?_) n
    · rcases Nat.lt_or_ge k c.made.length with hlt | hge
      · exact hproceeds.lifeOf_old hlt (h k)
      · intro m' hm'
        rw [hmade, List.getElem?_eq_none (by simp; omega)] at hm'
        exact absurd hm'.symm (Option.some_ne_none _)
    · rw [sentFor_of_sent hproceeds.sent, hc.sentFor_nil (Nat.le_refl _), List.nil_append]
      refine .announced rfl htells fun hrefused => hback ?_
      rw [htells.accepted] at hrefused
      simpa using hrefused

theorem lifeOf_report (hc : c.Sound) (h : ∀ n, c.LifeOf n) (g : Registry) (reply : Reply)
    (id : String) (statusName : Option String) (running : Bool) (n : Nat) :
    (c.report g reply id statusName running).LifeOf n := by
  rcases hc.report_cases g reply id statusName running with
    ⟨_, _, heq⟩ | ⟨k, m, e, hk, hm, rfl, _, htells, heq⟩
  · rw [heq]
    exact h n
  · rw [heq]
    refine lifeOf_send hc g reply hk hm _ (fun n _ => h n) (fun held abandoned hback hkept => ?_) n
    have hends : (⟨some k, e, g.contains e.topic && reply.answer.isOk⟩ : Sending).Ends ↔
        (reply.accepts g && !running) = true := by
      simp [Sending.Ends, htells.accepted, htells.isTerminal]
    refine (h k m hm).reported hk htells (fun hlast => hback (hends.mp hlast)) fun hlast => hkept ?_
    exact Bool.not_eq_true _ ▸ mt hends.mpr hlast

theorem lifeOf_step (hc : c.Sound) (h : ∀ n, c.LifeOf n) (g : Registry) (s : Reply × TaskOp)
    (n : Nat) : (c.step g s).LifeOf n := by
  obtain ⟨reply, op⟩ := s
  cases op with
  | quiet op =>
    have hproceeds := proceeds_quiet hc op
    rcases Nat.lt_or_ge n c.made.length with hlt | hge
    · exact hproceeds.lifeOf_old hlt (h n)
    · exact hproceeds.lifeOf_new hc hge
  | publish e => exact lifeOf_offer hc g reply e (fun _ => nofun) nofun fun _ => h n
  | start id s u st => exact lifeOf_start hc h g reply id s u st n
  | report id st running => exact lifeOf_report hc h g reply id st running n

/-- In every run, every registration has a life. -/
theorem lifeOf_ofRun (g : Registry) (steps : List (Reply × TaskOp)) (n : Nat) :
    (ofRun g steps).LifeOf n := by
  induction steps using List.reverseRecOn generalizing n with
  | nil => exact fun m hm => nomatch hm
  | append_singleton steps s ih =>
    rw [ofRun_append]
    exact lifeOf_step (records_ofRun g steps).1 ih g s n

theorem sent_step (hc : c.Sound) (g : Registry) (x : Reply × TaskOp) {s : Sending}
    (hs : s ∈ (c.step g x).sent) (hsource : s.source = none) :
    s ∈ c.sent ∨ x.2 = .publish s.event := by
  obtain ⟨reply, op⟩ := x
  cases op with
  | quiet op => exact .inl ((sent_quietly c [op]) ▸ hs)
  | publish e =>
    simp only [step, sent_offer] at hs
    rcases List.mem_append.mp hs with hs | hs
    · exact .inl hs
    · obtain rfl := List.mem_singleton.mp hs
      exact .inr rfl
  | start id sessionId userId st =>
    rcases c.start_cases g reply id sessionId userId st with ⟨_, _, heq⟩ | ⟨r, e, _, _, _, _, heq⟩
    · exact .inl (by simpa only [step, heq] using hs)
    · simp only [step, heq, sent_send, sent_register] at hs
      rcases List.mem_append.mp hs with hs | hs
      · exact .inl hs
      · obtain rfl := List.mem_singleton.mp hs
        exact absurd hsource (Option.some_ne_none _)
  | report id st running =>
    rcases hc.report_cases g reply id st running with
      ⟨_, _, heq⟩ | ⟨n, m, e, _, _, _, _, _, heq⟩
    · exact .inl (by simpa only [step, heq] using hs)
    · simp only [step, heq, sent_send] at hs
      rcases List.mem_append.mp hs with hs | hs
      · exact .inl hs
      · obtain rfl := List.mem_singleton.mp hs
        exact absurd hsource (Option.some_ne_none _)

/-- Only what was published directly was built from no registration. -/
theorem sent_ofRun (g : Registry) (steps : List (Reply × TaskOp)) {s : Sending}
    (hs : s ∈ (ofRun g steps).sent) (hsource : s.source = none) :
    ∃ x ∈ steps, x.2 = .publish s.event := by
  induction steps using List.reverseRecOn with
  | nil => exact nomatch hs
  | append_singleton steps x ih =>
    rw [ofRun_append] at hs
    rcases sent_step (records_ofRun g steps).1 g x hs hsource with hs | hx
    · obtain ⟨y, hy, hpublish⟩ := ih hs
      exact ⟨y, List.mem_append_left _ hy, hpublish⟩
    · exact ⟨x, by simp, hx⟩

theorem Sound.beginReport_held (hc : c.Sound) {m : Enrolment} (hm : c.made[n]? = some m)
    (hn : c.holder m.id = some n) (statusName : Option String) (running : Bool) :
    ∃ e, c.tasks.beginReport m.id statusName running = .ok (m.registration, e) ∧
      m.Tells statusName running e := by
  have hmem := List.mem_of_getElem? hm
  have hid := hc.named m hmem
  have hbegin : c.tasks.beginReport m.id statusName running =
      .ok (m.registration, Event.scopedTo (.taskInfo ⟨m.id, statusName, running, hid⟩)
        (some m.registration.owner.sessionId) m.registration.owner.userId) := by
    simp [Tasks.beginReport, hc.find_held hn hm, Tasks.statusEvent_eq hid, Except.map]
  exact ⟨_, hbegin, Enrolment.tells_scopedTo hid (hc.whole m hmem) statusName running⟩

/-- In every run, whatever the transport answers and lets happen meanwhile, and for every
registration that was made: all events that were built from it tell of its task and its owner. If a
start has made it, the first one that was accepted is the event of this start. After a last status
that was accepted nothing more is sent for it. One that was refused can be sent again in the same
scope, until the registration is abandoned or a last status is accepted. -/
theorem published_life (g : Registry) (steps : List (Reply × TaskOp)) :
    let c := ofRun g steps
    let w := Script.ofRun g steps
    c.tasks = w.2 ∧ c.received = w.1.received ∧
    (∀ id, w.2.find? id = (c.holder id).bind fun n => c.made[n]?.map Enrolment.registration) ∧
    (∀ s ∈ c.sent, s.source = none → ∃ x ∈ steps, x.2 = .publish s.event) ∧
    ∀ n m, c.made[n]? = some m →
      (∀ s ∈ c.sentFor n, ∃ statusName running, m.Tells statusName running s.event) ∧
      (∀ statusName, m.announces = some statusName → ∃ s rest, c.sentFor n = s :: rest ∧
        m.Tells statusName true s.event ∧
        ∀ x, (c.sentFor n).find? (·.accepted) = some x → x = s) ∧
      (∀ before s after, c.sentFor n = before ++ s :: after → s.Ends → after = []) ∧
      ((∃ s ∈ c.sentFor n, s.accepted = false ∧ s.event.isTerminal = true) →
        n ∈ c.abandoned ∨ (∃ s ∈ c.sentFor n, s.Ends) ∨
        c.holder m.id = some n ∧ ∀ statusName running, ∃ e,
          w.2.beginReport m.id statusName running = .ok (m.registration, e) ∧
            m.Tells statusName running e) := by
  intro c w
  obtain ⟨hsound, htasks, hreceived⟩ := records_ofRun g steps
  refine ⟨htasks, hreceived, fun id => htasks ▸ hsound.find id, fun s => sent_ofRun g steps,
    fun n m hm => ?_⟩
  have hlife := lifeOf_ofRun g steps n m hm
  refine ⟨hlife.tells, fun st hst => ?_, fun before s after hsplit hs =>
    (hlife.ends before s after hsplit hs).1, ?_⟩
  · obtain ⟨s, rest, hsent, htells, hrefused⟩ := hlife.begins st hst
    refine ⟨s, rest, hsent, htells, fun x hx => ?_⟩
    rw [hsent] at hx
    cases hs : s.accepted with
    | true => simpa [hs, eq_comm] using hx
    | false => simp [hs, (hrefused hs).1] at hx
  · rintro ⟨s, hs, hrefused, hlast⟩
    rcases hlife.stays s hs hrefused hlast with hheld | hgone | hend
    · exact .inr (.inr ⟨hheld, fun st running => htasks ▸ hsound.beginReport_held hm hheld st running⟩)
    · exact .inl hgone
    · exact .inr (.inl hend)

/-- A last status is refused and sent again. While it is on its way the task is abandoned and
registered anew, and the last status of the new registration is refused. -/
def disturbed : List (Reply × TaskOp) :=
  [(⟨.ok ⟨1, 0⟩, []⟩, .start "T1" "S1" (some "") (some "queued")),
    (⟨.error .closed, []⟩, .report "T1" none false),
    (⟨.ok ⟨1, 0⟩, [.abandon "T1", .started "T1" "S2" (some "U2")]⟩, .report "T1" none false),
    (⟨.error .closed, []⟩, .report "T1" none false)]

theorem published_life_disturbed : ∃ m₀ m₁ : Enrolment,
    (ofRun .all disturbed).made = [m₀, m₁] ∧ m₀.announces = some (some "queued") ∧
    ((ofRun .all disturbed).sentFor 0).map (·.accepted) = [true, false, true] ∧
    (∀ x, ((ofRun .all disturbed).sentFor 0).find? (·.accepted) = some x →
      m₀.Tells (some "queued") true x.event) ∧
    ∃ e, (Script.ofRun .all disturbed).2.beginReport "T1" none false = .ok (m₁.registration, e) ∧
      m₁.Tells none false e := by
  obtain ⟨-, -, -, -, hlives⟩ := published_life .all disturbed
  have hmade : (ofRun .all disturbed).made =
      [⟨"T1", ⟨⟨"S1", none⟩, 0⟩, some (some "queued")⟩, ⟨"T1", ⟨⟨"S2", some "U2"⟩, 1⟩, none⟩] := by
    decide +kernel
  obtain ⟨-, hbegins, -⟩ := hlives 0 ⟨"T1", ⟨⟨"S1", none⟩, 0⟩, some (some "queued")⟩
    (by rw [hmade]; rfl)
  obtain ⟨-, -, -, hstays⟩ := hlives 1 ⟨"T1", ⟨⟨"S2", some "U2"⟩, 1⟩, none⟩ (by rw [hmade]; rfl)
  obtain ⟨s, _, _, htells, hfirst⟩ := hbegins (some "queued") rfl
  refine ⟨_, _, hmade, rfl, by decide +kernel, fun x hx => hfirst x hx ▸ htells, ?_⟩
  rcases hstays (by decide +kernel) with hgone | hend | ⟨_, hreportable⟩
  · exact absurd hgone (by decide +kernel)
  · exact absurd hend (by decide +kernel)
  · exact hreportable none false

end Chronicle

end EventGateway
