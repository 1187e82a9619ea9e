import EventGateway.Config.Load

/-! What a load has found out when it succeeds, and what it has written. -/

namespace EventGateway.Loader

variable {l : Loader} {hash : String → String} {d d' : Directory} {x : Loaded} {s : Settings}
  {r : Registry}

theorem validate_ok : validate s = .ok r ↔ s.secret ≠ "" ∧ s.subscriberBuffer ≠ 0 ∧
    Registry.ofNames s.topics = .ok r ∧ r.isEmpty = false := by
  unfold validate
  by_cases hsecret : s.secret = ""
  · simp [hsecret]
  by_cases hbuffer : s.subscriberBuffer = 0
  · simp [hsecret, hbuffer]
  cases hr : Registry.ofNames s.topics with
  | error e => simp [hsecret, hbuffer]
  | ok r' =>
    simp only [hsecret, hbuffer, if_false, ne_eq, not_false_eq_true, true_and, Except.ok.injEq]
    cases hempty : r'.isEmpty with
    | true =>
      refine ⟨fun h => by simp at h, ?_⟩
      rintro ⟨rfl, hfull⟩
      simp [hempty] at hfull
    | false =>
      constructor
      · intro h
        obtain rfl : r' = r := by simpa using h
        exact ⟨rfl, hempty⟩
      · rintro ⟨rfl, _⟩
        simp

/-- A load leaves the file alone, or its secret was in plain text and the file is written again. -/
theorem load_ok (hload : l.load hash d = (.ok x, d')) : ∃ s r, l.read d = .ok s ∧
    validate s = .ok r ∧
      (s.isHashed = true ∧ x = loaded s r ∧ d' = d ∨
        s.isHashed = false ∧ x = loaded (secured hash s) r ∧
          l.persist d (secured hash s) = (.ok (), d')) := by
  unfold load at hload
  cases hread : l.read d with
  | error e => simp [hread] at hload
  | ok s =>
    cases hvalid : validate s with
    | error e => simp [hread, hvalid] at hload
    | ok r =>
      refine ⟨s, r, rfl, hvalid, ?_⟩
      simp only [hread, hvalid] at hload
      cases hhashed : s.isHashed with
      | true =>
        obtain ⟨rfl, rfl⟩ : loaded s r = x ∧ d = d' := by simpa [hhashed] using hload
        exact .inl ⟨rfl, rfl, rfl⟩
      | false =>
        rcases hpersist : l.persist d (secured hash s) with ⟨e | u, d₁⟩
        · simp [hhashed, hpersist] at hload
        · obtain ⟨rfl, rfl⟩ : loaded (secured hash s) r = x ∧ d₁ = d' := by
            simpa [hhashed, hpersist] using hload
          exact .inr ⟨rfl, rfl, rfl⟩

/-- A load that is seen to give something succeeds with it. -/
theorem exists_loaded {α : Type} (l : Loader) (hash : String → String) (d : Directory)
    (f : Loaded → α) {a : α} (h : (l.load hash d).1.toOption.map f = some a) :
    ∃ x d', l.load hash d = (.ok x, d') ∧ f x = a := by
  rcases hload : l.load hash d with ⟨e | x, d'⟩
  · simp [hload, Except.toOption] at h
  · exact ⟨x, d', rfl, by simpa [hload, Except.toOption] using h⟩

theorem buffer_of_load (hload : l.load hash d = (.ok x, d')) : 1 ≤ x.subscriberBuffer := by
  obtain ⟨s, r, _, hvalid, hcase⟩ := load_ok hload
  have hbuffer : x.subscriberBuffer = s.subscriberBuffer := by
    rcases hcase with ⟨_, rfl, _⟩ | ⟨_, rfl, _⟩ <;> rfl
  have hpos := (validate_ok.mp hvalid).2.1
  omega

end EventGateway.Loader
