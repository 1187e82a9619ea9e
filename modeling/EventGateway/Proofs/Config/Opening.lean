import EventGateway.Proofs.Config.Reloading
import EventGateway.Proofs.Secret.Opening

/-! Whom a loaded configuration lets in. The secret of the file is the one that opens, if it does not
look like a stored one: a text that only begins as a stored secret does is taken for one, is left as
it is, and opens for nobody. -/

namespace EventGateway.Loader

open Secret

/-- With a secret that is no stored one, a load makes a configuration that opens for this secret
alone, and what is on disk holds it no more. A secret that looks like a stored one is an exception:
the configuration then opens for nobody, and the file is as it was. -/
theorem plaintext_opens (digest : Digest) (salt : List UInt8) (l : Loader) (d d' : Directory)
    (x : Loaded) {text : String} {s : Settings}
    (hoverride : ∀ a, l.listen = some a → a.WellFormed)
    (htext : d.readText l.name = .ok text) (hs : Settings.ofText text = .ok s)
    (hplain : Stored.ofText? s.secret = none) (hsalt : salt.length = 16)
    (htells : digest.Tells s.secret salt)
    (hload : l.load (storedWith digest salt) d = (.ok x, d')) :
    (s.isHashed = false →
      (∀ p, opensWith digest x.runtime.secretHash p = true ↔ p = s.secret) ∧
      ∃ text' s', d'.readText l.name = .ok text' ∧ Settings.ofText text' = .ok s' ∧
        s'.secret = x.runtime.secretHash ∧ s'.secret ≠ s.secret) ∧
    (s.isHashed = true →
      (∀ p, opensWith digest x.runtime.secretHash p = false) ∧ d' = d) := by
  obtain ⟨hlooks, hplainly⟩ := load_secret htext hs hload
  have hrange : 8 ≤ salt.length ∧ salt.length ≤ 48 := by omega
  constructor
  · intro hunhashed
    obtain ⟨hsecret, hpersist⟩ := hplainly hunhashed
    obtain ⟨text', htext', hs', _⟩ := settings_persisted hoverride hs hpersist
    rw [hsecret]
    refine ⟨opensWith_storedWith htells hrange, text', _, htext', hs', rfl, fun hsame => ?_⟩
    -- what was written can be read as a stored secret, the secret of the file cannot
    have hread := ofText?_storedWith htells hrange
    rw [show storedWith digest salt s.secret = s.secret from hsame, hplain] at hread
    exact nomatch hread
  · intro hhashed
    obtain ⟨hsecret, hsame⟩ := hlooks hhashed
    exact ⟨fun p => by rw [hsecret, opensWith_none hplain], hsame⟩

/-- A hash function that knows the hash of `s` with a salt of zeros. -/
def oneHash : Digest := fun _ n b _ _ =>
  if b = Text.toUtf8 "s" then
    [163, 206, 215, 97, 206, 33, 171, 59, 239, 58, 100, 101, 39, 122, 115, 193, 42, 123, 173, 156, 179,
      130, 152, 121, 47, 83, 208, 197, 94, 151, 184, 210]
  else List.replicate n 0

theorem plaintext_opens_plainFile : ∃ x d' text' s',
    overriding.load (storedWith oneHash (List.replicate 16 0)) plainFile = (.ok x, d') ∧
    x.runtime.secretHash = storedS ∧
    (∀ p, opensWith oneHash storedS p = true ↔ p = "s") ∧
    d'.readText "gateway.toml" = .ok text' ∧ Settings.ofText text' = .ok s' ∧
      s'.secret = storedS := by
  obtain ⟨x, d', hload, hstored⟩ := exists_loaded overriding
    (storedWith oneHash (List.replicate 16 0)) plainFile (fun x => x.runtime.secretHash)
    (a := storedS) (by decide +kernel)
  obtain ⟨text, s, htext, hs, _⟩ := load_read hload
  obtain ⟨_, hsecret, hunhashed⟩ := plainFile_settings htext hs
  have hplain : Stored.ofText? s.secret = none := by
    rw [hsecret]
    decide +kernel
  have htells : oneHash.Tells s.secret (List.replicate 16 0) := by
    rw [hsecret]
    refine ⟨by decide +kernel, fun b hb => ?_⟩
    by_contra hother
    simp [oneHash, hother, List.replicate] at hb
  obtain ⟨⟨hopens, text', s', htext', hs', hsame, _⟩, _⟩ :=
    (plaintext_opens oneHash _ _ _ _ _ overriding_wellFormed htext hs hplain rfl htells hload).imp_left
      fun h => h hunhashed
  rw [hstored, hsecret] at hopens
  exact ⟨x, d', text', s', hload, hstored, hopens, htext', hs', hsame.trans hstored⟩

/-- A secret that begins as a stored one does, and is none. -/
def lookalikeFile : Directory := ⟨[("gateway.toml", .file (Text.toUtf8
  "[admin]\nsecret = \"$argon2 is great\"\n"))]⟩

theorem lookalike_opens_for_nobody : ∃ x text s,
    Loader.load (fun s => (Stored.ofSecret s (List.replicate 16 0)).render) ⟨"gateway.toml", none⟩
      lookalikeFile = (.ok x, lookalikeFile) ∧
    lookalikeFile.readText "gateway.toml" = .ok text ∧ Settings.ofText text = .ok s ∧
    Stored.ofText? s.secret = none ∧ ∀ p, opens x.runtime.secretHash p = false := by
  obtain ⟨x, d', hload, -⟩ := exists_loaded ⟨"gateway.toml", none⟩
    (fun s => (Stored.ofSecret s (List.replicate 16 0)).render) lookalikeFile
    (fun x => x.runtime.secretHash) (a := "$argon2 is great") (by decide +kernel)
  obtain ⟨text, s, htext, hs, _⟩ := load_read hload
  have hread : ((lookalikeFile.readText "gateway.toml").toOption.bind fun text =>
      (Settings.ofText text).toOption.map fun s => (s.isHashed, Stored.ofText? s.secret)) =
        some (true, none) := by decide +kernel
  rw [htext, Except.toOption, Option.bind_some, hs] at hread
  obtain ⟨hlooks, hnone⟩ : s.isHashed = true ∧ Stored.ofText? s.secret = none := by
    simpa [Except.toOption] using hread
  obtain ⟨hsecret, rfl⟩ := (load_secret htext hs hload).1 hlooks
  refine ⟨x, text, s, hload, htext, hs, hnone, fun p => ?_⟩
  rw [opens_eq, hsecret, opensWith_none hnone]

end EventGateway.Loader
