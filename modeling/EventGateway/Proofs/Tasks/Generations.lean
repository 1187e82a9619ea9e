import EventGateway.Proofs.Tasks.Docket

/-! Generations identify registrations. The counter that they are drawn from is never put back, so a
registration that is gone is not taken for a later one of the same task, also while a start or a report
still holds it. This holds as long as the counter has not come round. -/

namespace EventGateway

namespace Deed

/-- The registration was made, and since then it was not released nor its task abandoned. -/
def Lasts (l : List Deed) (id : String) (r : Registration) : Prop :=
  ∃ before after, l = before ++ made id r :: after ∧ abandoned id ∉ after ∧ released id r ∉ after

variable {l : List Deed} {d : Deed} {id : String} {r : Registration}

theorem Lasts.made_mem (h : Lasts l id r) : made id r ∈ l := by
  obtain ⟨before, after, rfl, _⟩ := h
  simp

theorem lasts_concat : Lasts (l ++ [d]) id r ↔
    d = made id r ∨ Lasts l id r ∧ d ≠ abandoned id ∧ d ≠ released id r := by
  constructor
  · rintro ⟨before, after, hl, habandoned, hreleased⟩
    rcases List.eq_nil_or_concat after with rfl | ⟨after, y, rfl⟩
    · exact .inl (List.cons.inj (List.append_inj' hl rfl).2).1
    · have hassoc : l ++ [d] = (before ++ made id r :: after) ++ [y] := by simpa using hl
      obtain ⟨hbefore, hlast⟩ := List.append_inj' hassoc rfl
      obtain rfl : d = y := (List.cons.inj hlast).1
      simp only [List.concat_eq_append, List.mem_append, List.mem_singleton, not_or]
        at habandoned hreleased
      exact .inr ⟨⟨before, after, hbefore, habandoned.1, hreleased.1⟩, Ne.symm habandoned.2,
        Ne.symm hreleased.2⟩
  · rintro (rfl | ⟨⟨before, after, rfl, habandoned, hreleased⟩, hd, hd'⟩)
    · exact ⟨l, [], rfl, List.not_mem_nil, List.not_mem_nil⟩
    · exact ⟨before, after ++ [d], by simp, by simp [habandoned, hd.symm], by simp [hreleased, hd'.symm]⟩

end Deed

namespace History

variable {l : List Deed} {t : Tasks}

/-- The counter is the number of registrations, and each has got the number of those before it. -/
theorem counted (h : History l t) : t.next = UInt64.ofNat (Deed.registrations l).length ∧
    (Deed.registrations l).map (fun x => x.2.generation) =
      (List.range (Deed.registrations l).length).map UInt64.ofNat := by
  induction h with
  | empty => exact ⟨rfl, rfl⟩
  | made h hfree hnext ih =>
    obtain ⟨hcount, hnumbers⟩ := ih
    simp [Deed.registrations_concat, Deed.registration?, List.range_succ, hcount, hnext, hnumbers]
  | abandoned h j ih => simpa [Deed.registrations_concat, Deed.registration?] using ih
  | @released _ t h j x hmade ih =>
    simpa [Deed.registrations_concat, Deed.registration?] using ih

/-- No generation comes twice as long as there are enough of them. -/
theorem nodup (h : History l t) (few : (Deed.registrations l).length ≤ UInt64.size) :
    ((Deed.registrations l).map fun x => x.2.generation).Nodup := by
  rw [h.counted.2]
  refine List.nodup_range.map_on fun m hm n hn heq => ?_
  rw [List.mem_range] at hm hn
  have hnat := congrArg UInt64.toNat heq
  rwa [UInt64.toNat_ofNat_of_lt' (by omega), UInt64.toNat_ofNat_of_lt' (by omega)] at hnat

theorem eq_of_generation (h : History l t) (few : (Deed.registrations l).length ≤ UInt64.size)
    {id j : String} {r x : Registration} (hr : .made id r ∈ l) (hx : .made j x ∈ l)
    (heq : r.generation = x.generation) : id = j ∧ r = x :=
  Prod.mk.inj (List.inj_on_of_nodup_map (h.nodup few) (Deed.mem_registrations.mpr hr)
    (Deed.mem_registrations.mpr hx) heq)

/-- What is held is released if it is still there; another registration of the task stays. -/
theorem release_made (h : History l t) (few : (Deed.registrations l).length ≤ UInt64.size)
    {id : String} {r : Registration} (hmade : .made id r ∈ l) :
    t.release id r = if t.find? id = some r then (true, t.erase id) else (false, t) := by
  unfold Tasks.release
  cases hfind : t.find? id with
  | none => simp
  | some x =>
    have hx := h.made_of_mem (Tasks.mem_of_find? hfind)
    have hiff : x.generation = r.generation ↔ some x = some r :=
      ⟨fun heq => congrArg some (h.eq_of_generation few hx hmade heq).2, fun heq => by
        rw [Option.some.inj heq]⟩
    simp only [hiff]

/-- What maps a task is the registration that was neither abandoned nor released, however many there
were before. -/
theorem find?_iff (h : History l t) (few : (Deed.registrations l).length ≤ UInt64.size)
    (id : String) (r : Registration) : t.find? id = some r ↔ Deed.Lasts l id r := by
  induction h generalizing id r with
  | empty => simp [Tasks.empty, Tasks.find?, Deed.Lasts]
  | @made l t h j x hfree hnext ih =>
    have ih := ih (by simp [Deed.registrations_concat] at few; omega)
    rw [Deed.lasts_concat]
    by_cases hj : id = j
    · subst hj
      -- The task was free, so no earlier registration of it can have lasted.
      have hnone : ¬Deed.Lasts l id r := fun hlasts => by simp [(ih id r).mpr hlasts] at hfree
      simp [Tasks.find?, hnone]
    · have hne : ¬(j = id ∧ x = r) := fun heq => hj heq.1.symm
      have hrest : (⟨(j, x) :: t.entries, t.next + 1⟩ : Tasks).find? id = t.find? id :=
        lookup_cons_ne hj x t.entries
      rw [hrest, ih]
      simp [hne]
  | @abandoned l t h j ih =>
    have ih := ih (by simpa [Deed.registrations_concat, Deed.registration?] using few)
    rw [Deed.lasts_concat, Tasks.find?_erase, ← ih]
    by_cases hj : id = j
    · simp [hj]
    · simp [hj, Ne.symm hj]
  | @released l t h j x hmade ih =>
    have few : (Deed.registrations l).length ≤ UInt64.size := by
      simpa [Deed.registrations_concat, Deed.registration?] using few
    -- What is taken away is this registration and not another one of the task.
    rw [Deed.lasts_concat, ← ih few, h.release_made few hmade]
    by_cases hj : id = j
    · subst hj
      by_cases hx : t.find? id = some x
      · simp [hx, Tasks.find?_erase, eq_comm]
      · have hne : t.find? id = some r → x ≠ r := fun hr heq => hx (heq ▸ hr)
        simpa [hx] using hne
    · have hne : ¬(j = id ∧ x = r) := fun heq => hj heq.1.symm
      split <;> simp [Tasks.find?_erase, hj, hne]

theorem release_lasting (h : History l t) (few : (Deed.registrations l).length ≤ UInt64.size)
    {id : String} {r : Registration} (hlasts : Deed.Lasts l id r) :
    t.find? id = some r ∧ t.release id r = (true, t.erase id) := by
  have hfind := (h.find?_iff few id r).mpr hlasts
  exact ⟨hfind, by rw [h.release_made few hlasts.made_mem, if_pos hfind]⟩

theorem release_gone (h : History l t) (few : (Deed.registrations l).length ≤ UInt64.size)
    {id : String} {r : Registration} (hmade : .made id r ∈ l) (hgone : ¬Deed.Lasts l id r) :
    t.find? id ≠ some r ∧ t.release id r = (false, t) := by
  have hfind := mt (h.find?_iff few id r).mp hgone
  exact ⟨hfind, by rw [h.release_made few hmade, if_neg hfind]⟩

theorem generation_lt (h : History l t) (few : (Deed.registrations l).length < UInt64.size) :
    ∀ x ∈ t.entries, x.2.generation < t.next := by
  intro x hx
  have hmem := List.mem_map_of_mem (f := fun x => x.2.generation)
    (Deed.mem_registrations.mpr (h.made_of_mem hx))
  rw [h.counted.2] at hmem
  obtain ⟨n, hn, heq⟩ := List.mem_map.mp hmem
  rw [List.mem_range] at hn
  rw [h.counted.1, ← heq, UInt64.lt_iff_toNat_lt, UInt64.toNat_ofNat_of_lt' (by omega),
    UInt64.toNat_ofNat_of_lt' few]
  exact hn

end History

namespace Docket

/-- In every state that a run with fewer registrations than generations comes to, whatever calls wait
for an answer then: every mapping has a generation below the counter, which is the number of the
registrations that were made, and no two of these have the same generation. A moment that makes a
registration moves the counter on by one, and no other moment moves it. What the waiting calls hold was
made before. A registration that was made still maps its task as long as its task was not abandoned nor
the registration released since. A release of it then takes it away and says that it did; otherwise it
changes nothing and says so. Every other task is left alone. Any operation over a transport that nests
others comes from here to such a state again. -/
theorem generations_identify (moments : List Moment)
    (few : (ofRun moments).made.length < UInt64.size) :
    let w := ofRun moments
    (∀ x ∈ w.tasks.entries, x.2.generation < w.tasks.next) ∧
    w.tasks.next.toNat = w.made.length ∧
    (w.made.map fun x => x.2.generation).Nodup ∧
    (∀ x : Moment,
      (x.registration? w.tasks = none →
        (w.step x).made = w.made ∧ (w.step x).tasks.next = w.tasks.next) ∧
      ∀ m, x.registration? w.tasks = some m →
        (w.step x).made = w.made ++ [m] ∧ (w.step x).tasks.next = w.tasks.next + 1) ∧
    (∀ p ∈ w.pending, (p.id, p.registration) ∈ w.made) ∧
    (∀ id r, (id, r) ∈ w.made →
      (Deed.Lasts w.deeds id r →
        w.tasks.find? id = some r ∧ w.tasks.release id r = (true, w.tasks.erase id)) ∧
      (¬Deed.Lasts w.deeds id r →
        w.tasks.find? id ≠ some r ∧ w.tasks.release id r = (false, w.tasks)) ∧
      ∀ j ≠ id, (w.tasks.release id r).2.find? j = w.tasks.find? j) ∧
    ∀ (σ : Type) (g : Registry) (send : Transport (σ × Tasks)), Nests send →
      ∀ (op : TaskOp) (x : σ), ∃ more,
        (ofRun (moments ++ more)).tasks = (op.via g send (x, w.tasks)).2.2 ∧
        (ofRun (moments ++ more)).pending = w.pending := by
  intro w
  obtain ⟨hhistory, hheld⟩ := sound_ofRun moments
  have hfew := Nat.le_of_lt few
  refine ⟨hhistory.generation_lt few, ?_, hhistory.nodup hfew, w.step_counts,
    fun p hp => Deed.mem_registrations.mpr (hheld p hp), fun id r hmade =>
      ⟨hhistory.release_lasting hfew, hhistory.release_gone hfew (Deed.mem_registrations.mp hmade),
        fun j hj => w.tasks.find?_release r hj⟩, fun σ g send hsend op x => ?_⟩
  · rw [hhistory.counted.1]
    exact UInt64.toNat_ofNat_of_lt' few
  · obtain ⟨more, htasks, hpending⟩ := hsend.via g op x w
    have hrun : ofRun (moments ++ more) = w.run more := run_append empty moments more
    exact ⟨more, by rw [hrun, htasks], by rw [hrun, hpending]⟩

/-- While a start waits, its task is abandoned and started again by the same owner, and then reported. -/
def sameOwner : List Moment :=
  [.beginStart "T1" "S1" none none, .quiet (.abandon "T1"), .beginStart "T1" "S1" none none,
    .beginReport "T1" none false]

theorem generations_identify_sameOwner :
    let w := ofRun sameOwner
    let nested : Transport (Script × Tasks) := fun _ _ _ s =>
      (.error .closed, TaskOp.after .all Script.transport [.start "T2" "S1" none none] s)
    w.made.length < UInt64.size ∧ w.pending.length = 3 ∧
      w.tasks.release "T1" ⟨⟨"S1", none⟩, 0⟩ = (false, w.tasks) ∧
      w.tasks.release "T1" ⟨⟨"S1", none⟩, 1⟩ = (true, w.tasks.erase "T1") ∧
      ∃ more, (ofRun (sameOwner ++ more)).tasks =
        ((TaskOp.report "T1" none false).via .all nested (.initial, w.tasks)).2.2 := by
  intro w nested
  have few : w.made.length < UInt64.size := by decide +kernel
  obtain ⟨-, -, -, -, -, hrelease, hnested⟩ := generations_identify sameOwner few
  have hdeeds : w.deeds = [.made "T1" ⟨⟨"S1", none⟩, 0⟩] ++ [.abandoned "T1"] ++
      [.made "T1" ⟨⟨"S1", none⟩, 1⟩] := by decide +kernel
  have hgone : ¬Deed.Lasts w.deeds "T1" ⟨⟨"S1", none⟩, 0⟩ := by
    rw [hdeeds, Deed.lasts_concat, Deed.lasts_concat]
    simp
  have hlasts : Deed.Lasts w.deeds "T1" ⟨⟨"S1", none⟩, 1⟩ := by
    rw [hdeeds, Deed.lasts_concat]
    exact .inl rfl
  obtain ⟨more, htasks, -⟩ := hnested Script .all nested (Nests.script.within .all _ _)
    (.report "T1" none false) .initial
  exact ⟨few, by decide +kernel, ((hrelease "T1" _ (by decide +kernel)).2.1 hgone).2,
    ((hrelease "T1" _ (by decide +kernel)).1 hlasts).2, more, htasks⟩

end Docket

end EventGateway
