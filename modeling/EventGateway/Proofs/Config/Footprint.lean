import EventGateway.Proofs.Config.Reloading

/-! What a load leaves on disk. All checks come before the first write, and a write that could not
be finished is one that did not begin, so a load that fails leaves no trace. -/

namespace EventGateway.Loader

variable {l : Loader} {hash : String → String} {d d' : Directory} {s : Settings}

/-- A load fails before it writes, or in writing. -/
theorem load_error {e : ConfigError} (hload : l.load hash d = (.error e, d')) :
    d' = d ∨ ∃ s, l.read d = .ok s ∧ l.persist d (secured hash s) = (.error e, d') := by
  unfold load at hload
  cases hread : l.read d with
  | error e' =>
    rw [hread] at hload
    exact .inl (Prod.mk.inj hload).2.symm
  | ok s =>
    rw [hread] at hload
    cases hvalid : validate s with
    | error e' =>
      simp only [hvalid] at hload
      exact .inl (Prod.mk.inj hload).2.symm
    | ok r =>
      cases hhashed : s.isHashed with
      | true => simp [hvalid, hhashed] at hload
      | false =>
        rcases hpersist : l.persist d (secured hash s) with ⟨e' | u, d₁⟩
        · obtain ⟨rfl, rfl⟩ : e' = e ∧ d₁ = d' := by
            simpa [hvalid, hhashed, hpersist] using hload
          exact .inr ⟨s, rfl, hpersist⟩
        · simp [hvalid, hhashed, hpersist] at hload

theorem load_error_leaves {e : ConfigError} (hload : l.load hash d = (.error e, d')) : d' = d := by
  rcases load_error hload with hsame | ⟨s, hread, hpersist⟩
  · exact hsame
  · obtain ⟨bytes, hfile⟩ := file_of_read hread
    exact persist_error hfile hpersist

/-- What is written for a secret in plain text is not what was there, for it is read differently. -/
theorem persisted_differs {text : String} (hoverride : ∀ a, l.listen = some a → a.WellFormed)
    (hstored : ∀ s, "$argon2".toList <+: (hash s).toList)
    (htext : d.readText l.name = .ok text) (hs : Settings.ofText text = .ok s)
    (hplain : s.isHashed = false)
    (hpersist : l.persist d (secured hash (l.override s)) = (.ok (), d')) :
    d'.find? l.name ≠ d.find? l.name := by
  intro hsame
  obtain ⟨text', htext', hs', _⟩ := settings_persisted hoverride hs hpersist
  have htexts : d'.readText l.name = d.readText l.name := by simp only [Directory.readText, hsame]
  obtain rfl : text = text' := Except.ok.inj (htext.symm.trans (htexts.symm.trans htext'))
  have hread : s = ⟨l.listen.getD s.listen, hash s.secret, s.topics, s.subscriberBuffer⟩ :=
    Except.ok.inj (hs.symm.trans hs')
  have hsecret : s.secret = hash s.secret := congrArg Settings.secret hread
  have hhashed : s.isHashed = true := Settings.isHashed_iff.mpr (hsecret ▸ hstored s.secret)
  exact Bool.false_ne_true (hplain.symm.trans hhashed)

/-- A load that fails leaves the disk as it was, wherever it fails. One that succeeds leaves it as
it was if the secret is stored already. Otherwise the file has new content, nothing is left beside
it, and every other file is as it was. The name beside the file is another one, whatever the file
is called. -/
theorem load_leaves (l : Loader) (hash : String → String) (d : Directory)
    (hoverride : ∀ a, l.listen = some a → a.WellFormed)
    (hstored : ∀ s, "$argon2".toList <+: (hash s).toList) :
    stagingName l.name ≠ l.name ∧
    (∀ e d', l.load hash d = (.error e, d') → d' = d) ∧
    (∀ x d', l.load hash d = (.ok x, d') → ∃ text s,
      d.readText l.name = .ok text ∧ Settings.ofText text = .ok s ∧
      (s.isHashed = true → d' = d) ∧
      (s.isHashed = false →
        (∃ text', (secured hash (l.override s)).toText? = some text' ∧
          d'.find? l.name = some (.file (Text.toUtf8 text'))) ∧
        d'.find? l.name ≠ d.find? l.name ∧ d'.find? (stagingName l.name) = none ∧
        ∀ name, name ≠ l.name → name ≠ stagingName l.name → d'.find? name = d.find? name)) := by
  refine ⟨stagingName_ne l.name, fun e d' hload => load_error_leaves hload, fun x d' hload => ?_⟩
  obtain ⟨text, s, htext, hs, hsame, hpersist⟩ := load_read hload
  refine ⟨text, s, htext, hs, hsame, fun hplain => ?_⟩
  obtain ⟨text', htext', hfile, hstaging, hothers⟩ := persist_ok (hpersist hplain)
  exact ⟨⟨text', htext', hfile⟩,
    persisted_differs hoverride hstored htext hs hplain (hpersist hplain), hstaging, hothers⟩

/-- The same file, with a folder in the way of the one that is written first. -/
def blockedFile : Directory := plainFile.put "gateway.toml.tmp" .folder

theorem load_leaves_plainFile : ∃ x d' e, overriding.load ("$argon2id$" ++ ·) plainFile = (.ok x, d') ∧
    d'.find? "gateway.toml" ≠ plainFile.find? "gateway.toml" ∧
    d'.find? "gateway.toml.tmp" = none ∧
    overriding.load ("$argon2id$" ++ ·) blockedFile = (.error e, blockedFile) := by
  have hstored : ∀ s, "$argon2".toList <+: ("$argon2id$" ++ s).toList := fun s => by
    rw [String.toList_append]
    exact (List.isPrefixOf_iff_prefix.mp (by decide)).trans (List.prefix_append _ _)
  have hleaves := load_leaves overriding ("$argon2id$" ++ ·) plainFile overriding_wellFormed hstored
  have hfails : (overriding.load ("$argon2id$" ++ ·) blockedFile).1.toOption.isNone = true := by
    decide +kernel
  have hname : stagingName "gateway.toml" = "gateway.toml.tmp" := by decide +kernel
  obtain ⟨x, d', hload⟩ := plainFile_loads
  obtain ⟨text, s, htext, hs, _, hplain⟩ := hleaves.2.2 x d' hload
  obtain ⟨_, hnew, hstaging, _⟩ := hplain (plainFile_settings htext hs).2.2
  rcases hblocked : overriding.load ("$argon2id$" ++ ·) blockedFile with ⟨e | x', d₁⟩
  · obtain rfl := (load_leaves overriding _ blockedFile overriding_wellFormed hstored).2.1 e d₁ hblocked
    exact ⟨x, d', e, hload, hnew, hname ▸ hstaging, rfl⟩
  · simp [hblocked, Except.toOption] at hfails

end EventGateway.Loader
