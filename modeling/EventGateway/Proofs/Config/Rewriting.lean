import EventGateway.Proofs.Config.SettingsText
import EventGateway.Proofs.Config.Staging
import EventGateway.Proofs.Outcome

/-! What a load leaves of the directory, and what the file says that it has written again. -/

namespace EventGateway

open Network

namespace Settings

theorem wellFormed_of_readAddress {v : Toml.Value} {a : SocketAddress}
    (h : readAddress v = .ok a) : a.WellFormed := by
  cases v with
  | string t =>
    rw [readAddress] at h
    cases ht : SocketAddress.ofText? t with
    | none => simp [ht] at h
    | some b =>
      rw [ht] at h
      obtain rfl := Except.ok.inj h
      exact SocketAddress.wellFormed_of_ofText? ht
  | integer _ | real _ | boolean _ | dateTime | array _ | table _ => exact absurd h error_ne_ok

theorem wellFormed_of_members {ms : List (String × Toml.Value)} {a b : SocketAddress}
    (ha : a.WellFormed) (h : readServer.members a ms = .ok b) : b.WellFormed := by
  induction ms generalizing a with
  | nil => exact Except.ok.inj h ▸ ha
  | cons m ms ih =>
    obtain ⟨k, v⟩ := m
    rw [readServer.members] at h
    split at h
    · obtain ⟨c, hc, h⟩ := bind_ok.mp h
      exact ih (wellFormed_of_readAddress hc) h
    · exact ih ha h

theorem wellFormed_of_readServer {v : Toml.Value} {a : SocketAddress}
    (h : readServer v = .ok a) : a.WellFormed := by
  have hdefault : defaultListen.WellFormed := trivial
  cases v with
  | table ms => exact wellFormed_of_members hdefault h
  | dateTime => exact Except.ok.inj h ▸ hdefault
  | array vs =>
    cases vs with
    | nil => exact Except.ok.inj h ▸ hdefault
    | cons v vs => exact wellFormed_of_readAddress h
  | string _ | integer _ | real _ | boolean _ => exact nomatch h

theorem wellFormed_of_readSections {ms : List (String × Toml.Value)} {s s' : Sections}
    (hs : s.listen.WellFormed) (h : readSections s ms = .ok s') : s'.listen.WellFormed := by
  induction ms generalizing s with
  | nil => exact Except.ok.inj h ▸ hs
  | cons m ms ih =>
    obtain ⟨k, v⟩ := m
    rw [readSections] at h
    split_ifs at h
    · obtain ⟨a, ha, h⟩ := bind_ok.mp h
      exact ih (wellFormed_of_readServer ha) h
    · obtain ⟨t, _, h⟩ := bind_ok.mp h
      exact ih (s := { s with secret := some t }) hs h
    · obtain ⟨e, _, h⟩ := bind_ok.mp h
      exact ih (s := { s with events := e }) hs h
    · exact ih hs h

/-- The address that a file names is one that can be written. -/
theorem wellFormed_of_ofText {text : String} {s : Settings} (h : ofText text = .ok s) :
    s.listen.WellFormed := by
  unfold ofText at h
  split at h
  · exact nomatch h
  next ms _ =>
    have hmembers := mapError_ok.mp h
    unfold ofMembers at hmembers
    split at hmembers
    · exact nomatch hmembers
    next sections hsections =>
      split at hmembers
      · exact nomatch hmembers
      · obtain rfl := Except.ok.inj hmembers
        exact wellFormed_of_readSections (s := {}) trivial hsections

end Settings

namespace Loader

variable {l : Loader} {hash : String → String} {d d' : Directory} {x : Loaded} {s : Settings}

theorem read_ok : l.read d = .ok s ↔ ∃ text s₀, d.readText l.name = .ok text ∧
    Settings.ofText text = .ok s₀ ∧ l.override s₀ = s := by
  unfold read
  cases d.readText l.name with
  | error e => simp
  | ok text =>
    cases htext : Settings.ofText text with
    | error e => cases e <;> simp [htext]
    | ok s₀ => simp [htext]

theorem file_of_read (hread : l.read d = .ok s) : ∃ bytes, d.find? l.name = some (.file bytes) := by
  obtain ⟨text, _, htext, _⟩ := read_ok.mp hread
  exact Directory.file_of_readText htext

theorem wellFormed_getD {o : Option SocketAddress} {a : SocketAddress}
    (ho : ∀ b, o = some b → b.WellFormed) (ha : a.WellFormed) : (o.getD a).WellFormed := by
  cases o with
  | none => exact ha
  | some b => exact ho b rfl

/-- What is written back of the settings that a file holds. -/
theorem settings_persisted {text : String} (hoverride : ∀ a, l.listen = some a → a.WellFormed)
    (hs : Settings.ofText text = .ok s)
    (hpersist : l.persist d (secured hash (l.override s)) = (.ok (), d')) :
    ∃ text', d'.readText l.name = .ok text' ∧
      Settings.ofText text' = .ok ⟨l.listen.getD s.listen, hash s.secret, s.topics,
        s.subscriberBuffer⟩ ∧
      ∀ name, name ≠ l.name → name ≠ stagingName l.name → d'.find? name = d.find? name := by
  obtain ⟨text', htext', hfile, _, hothers⟩ := persist_ok hpersist
  have hlisten : (secured hash (l.override s)).listen.WellFormed :=
    wellFormed_getD hoverride (Settings.wellFormed_of_ofText hs)
  exact ⟨text', Directory.readText_file hfile, Settings.ofText_toText hlisten htext', hothers⟩

/-- The secret that a load ends with, from the one in the file, and what becomes of the file. -/
theorem load_secret {text : String} (htext : d.readText l.name = .ok text)
    (hs : Settings.ofText text = .ok s) (hload : l.load hash d = (.ok x, d')) :
    (s.isHashed = true → x.runtime.secretHash = s.secret ∧ d' = d) ∧
    (s.isHashed = false → x.runtime.secretHash = hash s.secret ∧
      l.persist d (secured hash (l.override s)) = (.ok (), d')) := by
  obtain ⟨_, r, hread, _, hcase⟩ := load_ok hload
  obtain rfl := Except.ok.inj (hread.symm.trans (read_ok.mpr ⟨text, s, htext, hs, rfl⟩))
  have hhashed : (l.override s).isHashed = s.isHashed := rfl
  rw [hhashed] at hcase
  constructor
  · intro hstored
    rcases hcase with ⟨_, rfl, rfl⟩ | ⟨hplain, _⟩
    · exact ⟨rfl, rfl⟩
    · exact absurd hplain (by simp [hstored])
  · intro hplain
    rcases hcase with ⟨hstored, _⟩ | ⟨_, rfl, hpersist⟩
    · exact absurd hstored (by simp [hplain])
    · exact ⟨rfl, hpersist⟩

/-- What a load that succeeds has read, and what it has done with it. -/
theorem load_read (hload : l.load hash d = (.ok x, d')) :
    ∃ text s, d.readText l.name = .ok text ∧ Settings.ofText text = .ok s ∧
      (s.isHashed = true → d' = d) ∧
      (s.isHashed = false → l.persist d (secured hash (l.override s)) = (.ok (), d')) := by
  obtain ⟨_, _, hread, _⟩ := load_ok hload
  obtain ⟨text, s, htext, hs, rfl⟩ := read_ok.mp hread
  obtain ⟨hstored, hplain⟩ := load_secret htext hs hload
  exact ⟨text, s, htext, hs, fun h => (hstored h).2, fun h => (hplain h).2⟩

/-- A load leaves the directory as it was when the secret is stored already. Otherwise the file is
written again, with the hash for the secret and the address that holds for this start; topics and
buffer are those it had. -/
theorem load_rewrites (l : Loader) (hash : String → String) (d d' : Directory) (x : Loaded)
    (hoverride : ∀ a, l.listen = some a → a.WellFormed) (hload : l.load hash d = (.ok x, d')) :
    ∃ text s, d.readText l.name = .ok text ∧ Settings.ofText text = .ok s ∧
      (s.isHashed = true → d' = d) ∧
      (s.isHashed = false → ∃ text', d'.readText l.name = .ok text' ∧
        Settings.ofText text' = .ok ⟨l.listen.getD s.listen, hash s.secret, s.topics,
          s.subscriberBuffer⟩ ∧
        ∀ name, name ≠ l.name → name ≠ stagingName l.name → d'.find? name = d.find? name) := by
  obtain ⟨text, s, htext, hs, hstored, hplain⟩ := load_read hload
  exact ⟨text, s, htext, hs, hstored, fun h => settings_persisted hoverride hs (hplain h)⟩

/-- A file with an address and a secret in plain text. -/
def plainFile : Directory := ⟨[("gateway.toml", .file (Text.toUtf8
  "[server]\nlisten = \"0.0.0.0:1\"\n\n[admin]\nsecret = \"s\"\n"))]⟩

def overriding : Loader := ⟨"gateway.toml", some (.v4 127 0 0 1 9999)⟩

theorem overriding_wellFormed : ∀ a, overriding.listen = some a → a.WellFormed := by
  rintro a ha
  obtain rfl := Option.some.inj ha
  trivial

theorem plainFile_loads :
    ∃ x d', overriding.load ("$argon2id$" ++ ·) plainFile = (.ok x, d') := by
  have hsome : (overriding.load ("$argon2id$" ++ ·) plainFile).1.toOption.isSome = true := by
    decide +kernel
  rcases hload : overriding.load ("$argon2id$" ++ ·) plainFile with ⟨e | x, d'⟩
  · simp [hload, Except.toOption] at hsome
  · exact ⟨x, d', rfl⟩

theorem plainFile_settings {text : String} (htext : plainFile.readText "gateway.toml" = .ok text)
    (hs : Settings.ofText text = .ok s) :
    s.listen = .v4 0 0 0 0 1 ∧ s.secret = "s" ∧ s.isHashed = false := by
  have hread : ((plainFile.readText "gateway.toml").toOption.bind fun text =>
      (Settings.ofText text).toOption.map fun s => (s.listen, s.secret, s.isHashed)) =
        some (.v4 0 0 0 0 1, "s", false) := by decide +kernel
  rw [htext, Except.toOption, Option.bind_some, hs] at hread
  simpa [Except.toOption] using hread

theorem load_rewrites_plainFile : ∃ x d' text s, overriding.load ("$argon2id$" ++ ·) plainFile =
    (.ok x, d') ∧ d'.readText "gateway.toml" = .ok text ∧ Settings.ofText text = .ok s ∧
      s.secret = "$argon2id$s" := by
  obtain ⟨x, d', hload⟩ := plainFile_loads
  obtain ⟨text, s, htext, hs, _, hplain⟩ := load_rewrites _ _ _ _ _ overriding_wellFormed hload
  obtain ⟨_, hsecret, hunhashed⟩ := plainFile_settings htext hs
  obtain ⟨text', htext', hs', _⟩ := hplain hunhashed
  have hstored : "$argon2id$" ++ s.secret = "$argon2id$s" := by
    rw [hsecret]
    decide
  exact ⟨x, d', text', _, hload, htext', hs', hstored⟩

theorem load_writes_override : ∃ x d' text s text' s',
    overriding.load ("$argon2id$" ++ ·) plainFile = (.ok x, d') ∧
      plainFile.readText "gateway.toml" = .ok text ∧ Settings.ofText text = .ok s ∧
      d'.readText "gateway.toml" = .ok text' ∧ Settings.ofText text' = .ok s' ∧
      s'.listen ≠ s.listen := by
  obtain ⟨x, d', hload⟩ := plainFile_loads
  obtain ⟨text, s, htext, hs, _, hplain⟩ := load_read hload
  obtain ⟨hlisten, _, hunhashed⟩ := plainFile_settings htext hs
  obtain ⟨text', htext', hs', _⟩ :=
    settings_persisted overriding_wellFormed hs (hplain hunhashed)
  have hother : overriding.listen.getD s.listen ≠ s.listen := by
    rw [hlisten]
    decide
  exact ⟨x, d', text, s, text', _, hload, htext, hs, htext', hs', hother⟩

/-- Nothing is left of the file that is written first. -/
example : (overriding.load ("$argon2id$" ++ ·) plainFile).2.entries.map Prod.fst =
    ["gateway.toml"] := by decide +kernel

end Loader

end EventGateway
