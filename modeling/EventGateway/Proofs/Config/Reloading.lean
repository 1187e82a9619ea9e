import EventGateway.Proofs.Config.Rewriting
import EventGateway.Proofs.Secret.Opening

/-! Loading again right after a load. What was written back is read as it was meant, and its secret
is a stored one, so the next load finds nothing to replace. -/

namespace EventGateway

theorem Settings.isHashed_iff {s : Settings} :
    s.isHashed = true ↔ "$argon2".toList <+: s.secret.toList :=
  String.startsWith_string_iff

namespace Loader

variable {l : Loader} {hash hash' : String → String} {d d' : Directory} {x : Loaded} {s : Settings}
  {r : Registry}

theorem override_override (l : Loader) (s : Settings) : l.override (l.override s) = l.override s := by
  cases hl : l.listen <;> simp [override, hl]

theorem read_override (hread : l.read d = .ok s) : l.override s = s := by
  obtain ⟨_, s₀, _, _, rfl⟩ := read_ok.mp hread
  exact override_override l s₀

theorem load_stored (hread : l.read d = .ok s) (hvalid : validate s = .ok r)
    (hhashed : s.isHashed = true) : l.load hash d = (.ok (loaded s r), d) := by
  simp [load, hread, hvalid, hhashed]

/-- A stored secret passes the checks that the secret in plain text has passed. -/
theorem validate_secured (hvalid : validate s = .ok r) (hhashed : (secured hash s).isHashed = true) :
    validate (secured hash s) = .ok r := by
  obtain ⟨_, hbuffer, hnames, hfull⟩ := validate_ok.mp hvalid
  refine validate_ok.mpr ⟨fun hempty => ?_, hbuffer, hnames, hfull⟩
  have hprefix := Settings.isHashed_iff.mp hhashed
  rw [hempty] at hprefix
  exact absurd (List.prefix_nil.mp hprefix) (by decide)

/-- Settings that are written back are read again as they are. -/
theorem read_persisted (hoverride : ∀ a, l.listen = some a → a.WellFormed)
    (hread : l.read d = .ok s) (hpersist : l.persist d (secured hash s) = (.ok (), d')) :
    l.read d' = .ok (secured hash s) := by
  have hsame := read_override hread
  obtain ⟨text, s₀, _, hs₀, rfl⟩ := read_ok.mp hread
  obtain ⟨text', htext', hs', _⟩ := settings_persisted hoverride hs₀ hpersist
  exact read_ok.mpr ⟨text', _, htext', hs', congrArg (secured hash) hsame⟩

/-- A load that succeeds can be repeated, whatever the salt of the second one would be: it gives the
same address, topics, buffer and stored secret, and leaves the directory as it finds it. -/
theorem load_again (l : Loader) (hash hash' : String → String) (d d' : Directory) (x : Loaded)
    (hoverride : ∀ a, l.listen = some a → a.WellFormed)
    (hstored : ∀ s, "$argon2".toList <+: (hash s).toList) (hload : l.load hash d = (.ok x, d')) :
    l.load hash' d' = (.ok x, d') := by
  obtain ⟨s, r, hread, hvalid, hcase⟩ := load_ok hload
  rcases hcase with ⟨hhashed, rfl, rfl⟩ | ⟨_, rfl, hpersist⟩
  · exact load_stored hread hvalid hhashed
  · have hhashed : (secured hash s).isHashed = true := Settings.isHashed_iff.mpr (hstored s.secret)
    exact load_stored (read_persisted hoverride hread hpersist) (validate_secured hvalid hhashed)
      hhashed

/-- A secret in plain text, and a topic twice. -/
def repeatingFile : Directory := ⟨[("gateway.toml", .file (Text.toUtf8
  "admin.secret = \"hunter2\"\nevents.topics = [\"cb_config\", \"cb_config\"]\n"))]⟩

def onLink : Loader := ⟨"gateway.toml", some (.v6 [0xfe80, 0, 0, 0, 0, 0, 0, 1] 3 9999)⟩

theorem load_again_onLink : ∃ x d',
    onLink.load (fun _ => Secret.storedHunter) repeatingFile = (.ok x, d') ∧
    x.runtime.secretHash = Secret.storedHunter ∧ onLink.load id d' = (.ok x, d') := by
  obtain ⟨x, d', hload, hstored⟩ := exists_loaded onLink (fun _ => Secret.storedHunter) repeatingFile
    (fun x => x.runtime.secretHash) (a := Secret.storedHunter) (by decide +kernel)
  have hoverride : ∀ a, onLink.listen = some a → a.WellFormed := by
    rintro a ha
    obtain rfl := Option.some.inj ha
    rfl
  have hprefix : "$argon2".toList <+: Secret.storedHunter.toList :=
    List.isPrefixOf_iff_prefix.mp (by decide +kernel)
  have hagain := load_again onLink (fun _ => Secret.storedHunter) id repeatingFile d' x hoverride
    (fun _ => hprefix) hload
  exact ⟨x, d', hload, hstored, hagain⟩

end Loader

end EventGateway
