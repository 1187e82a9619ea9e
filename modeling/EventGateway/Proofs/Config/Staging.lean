import EventGateway.Proofs.Config.Loading
import EventGateway.Proofs.Outcome
import Mathlib.Data.List.TakeWhile

/-! Writing a file beside another and moving it into its place. The name beside it is made of the
name of the file by a new extension that is two, so it is never that name. -/

namespace EventGateway

namespace Directory

variable {d d₁ d' : Directory} {m n staging : String} {e : DirectoryEntry} {bytes : List UInt8}

theorem find?_remove (d : Directory) (n m : String) :
    (d.remove n).find? m = if m = n then none else d.find? m :=
  lookup_filter_ne d.entries n m

theorem find?_put (d : Directory) (n : String) (e : DirectoryEntry) :
    (d.put n e).find? n = some e := List.lookup_cons_self

theorem find?_put_other (d : Directory) (e : DirectoryEntry) (h : m ≠ n) :
    (d.put n e).find? m = d.find? m := by
  rw [find?, put, lookup_cons_ne h]
  exact (find?_remove d n m).trans (if_neg h)

theorem readText_file {text : String} (h : d.find? n = some (.file (Text.toUtf8 text))) :
    d.readText n = .ok text := by simp [readText, h]

theorem file_of_readText {text : String} (h : d.readText n = .ok text) :
    ∃ bytes, d.find? n = some (.file bytes) := by
  cases hfind : d.find? n with
  | none => simp [readText, hfind] at h
  | some e =>
    cases e with
    | folder => simp [readText, hfind] at h
    | file bytes => exact ⟨bytes, rfl⟩

theorem write_ok (h : d.write staging bytes = .ok d₁) : d₁ = d.put staging (.file bytes) := by
  unfold write at h
  split at h
  · exact nomatch h
  · exact (Except.ok.inj h).symm

theorem write_free (hfree : d.find? staging ≠ some .folder) (bytes : List UInt8) :
    ∃ d₁, d.write staging bytes = .ok d₁ := by
  unfold write
  split
  next hfolder => exact absurd hfolder hfree
  next => exact ⟨_, rfl⟩

/-- What is staged under one name and renamed is the file of the other, and nothing else changes. -/
theorem write_rename_ok (hother : staging ≠ n) (hwrite : d.write staging bytes = .ok d₁)
    (hrename : d₁.rename staging n = .ok d') :
    d'.find? n = some (.file bytes) ∧ d'.find? staging = none ∧
      ∀ name, name ≠ n → name ≠ staging → d'.find? name = d.find? name := by
  obtain rfl := write_ok hwrite
  unfold rename at hrename
  rw [find?_put] at hrename
  split at hrename
  next heq => exact nomatch heq
  next => exact nomatch hrename
  next e heq _ =>
    obtain rfl := Option.some.inj heq
    obtain rfl := Except.ok.inj hrename
    refine ⟨find?_put _ _ _, ?_, fun name hname hstaging => ?_⟩
    · rw [find?_put_other _ _ hother, find?_remove, if_pos rfl]
    · rw [find?_put_other _ _ hname, find?_remove, if_neg hstaging, find?_put_other _ _ hstaging]

/-- What is staged can take the place of a file. -/
theorem rename_staged (hother : staging ≠ n) {old : List UInt8}
    (hfile : d.find? n = some (.file old)) (hwrite : d.write staging bytes = .ok d₁) :
    ∃ d', d₁.rename staging n = .ok d' := by
  obtain rfl := write_ok hwrite
  have htarget : (d.put staging (.file bytes)).find? n = some (.file old) :=
    (find?_put_other d _ hother.symm).trans hfile
  simp only [rename, find?_put, htarget]
  exact ⟨_, rfl⟩

end Directory

namespace Loader

variable {l : Loader} {d d' : Directory} {s : Settings}

/-! The name beside the file. -/

theorem stem_cases (name : List Char) :
    stem name = name ∨ ∃ ext, '.' ∉ ext ∧ name = stem name ++ '.' :: ext := by
  have hsplit := List.takeWhile_append_dropWhile (p := (· ≠ '.')) (l := name.reverse)
  unfold stem
  cases hdrop : name.reverse.dropWhile (· ≠ '.') with
  | nil => simp
  | cons dot front =>
    have hdot : dot = '.' := by
      have hhead := List.head?_dropWhile_not (· ≠ '.') name.reverse
      rw [hdrop] at hhead
      simpa using hhead
    cases front with
    | nil => simp
    | cons c front =>
      refine .inr ⟨(name.reverse.takeWhile (· ≠ '.')).reverse, ?_, ?_⟩
      · intro hmem
        simpa using List.mem_takeWhile_imp (List.mem_reverse.mp hmem)
      · rw [hdrop] at hsplit
        have hname := congrArg List.reverse hsplit
        simpa [hdot] using hname.symm

theorem folderPart_append_lastPart (path : List Char) : folderPart path ++ lastPart path = path := by
  rw [folderPart, lastPart, ← List.reverse_append, List.takeWhile_append_dropWhile,
    List.reverse_reverse]

theorem stagingName_ne (path : String) : stagingName path ≠ path := by
  intro hsame
  have hchars : folderPart path.toList ++ stem (lastPart path.toList) ++ ".toml.tmp".toList =
      folderPart path.toList ++ lastPart path.toList := by
    rw [folderPart_append_lastPart]
    simpa [stagingName] using congrArg String.toList hsame
  rw [List.append_assoc, List.append_cancel_left_eq] at hchars
  rcases stem_cases (lastPart path.toList) with hwhole | ⟨ext, hext, hparts⟩
  · rw [hwhole, List.append_right_eq_self] at hchars
    exact absurd hchars (by decide)
  · -- its extension would be `toml.tmp`, which is none
    have hlong : ".toml.tmp".toList = '.' :: ext :=
      List.append_cancel_left (hchars.trans hparts)
    obtain rfl : "toml.tmp".toList = ext := (List.cons.inj hlong).2
    exact hext (by decide)

/-! What a write leaves. -/

theorem persist_ok (h : l.persist d s = (.ok (), d')) : ∃ text, s.toText? = some text ∧
    d'.find? l.name = some (.file (Text.toUtf8 text)) ∧
    d'.find? (stagingName l.name) = none ∧
      ∀ name, name ≠ l.name → name ≠ stagingName l.name → d'.find? name = d.find? name := by
  unfold persist at h
  split at h
  · exact nomatch h
  next text htext =>
    split at h
    · exact nomatch h
    next d₁ hwrite =>
      split at h
      · exact nomatch h
      next d₂ hrename =>
        obtain rfl := (Prod.mk.inj h).2
        exact ⟨text, htext, Directory.write_rename_ok (stagingName_ne l.name) hwrite hrename⟩

/-- A write over a file that fails has left nothing behind. -/
theorem persist_error {e : ConfigError} {bytes : List UInt8}
    (hfile : d.find? l.name = some (.file bytes)) (h : l.persist d s = (.error e, d')) :
    d' = d := by
  unfold persist at h
  split at h
  · exact (Prod.mk.inj h).2.symm
  next text _ =>
    split at h
    · exact (Prod.mk.inj h).2.symm
    next d₁ hwrite =>
      obtain ⟨d₂, hrename⟩ := Directory.rename_staged (stagingName_ne l.name) hfile hwrite
      rw [hrename] at h
      exact nomatch h

theorem persist_free {bytes : List UInt8} (hfile : d.find? l.name = some (.file bytes))
    (hfree : d.find? (stagingName l.name) ≠ some .folder)
    (hbuffer : s.subscriberBuffer ≤ Settings.greatestCount) :
    ∃ d', l.persist d s = (.ok (), d') := by
  obtain ⟨d₁, hwrite⟩ := Directory.write_free hfree (Text.toUtf8 (String.ofList s.write))
  obtain ⟨d', hrename⟩ := Directory.rename_staged (stagingName_ne l.name) hfile hwrite
  exact ⟨d', by simp [persist, Settings.toText?, hbuffer, hwrite, hrename]⟩

end Loader

end EventGateway
