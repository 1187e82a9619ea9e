import Mathlib.Data.Bool.AllAny
import EventGateway.Proofs.Text.Front
import EventGateway.Proofs.Text.Percent

/-! What is written as the fields of a form is read as the same fields. -/

namespace EventGateway.Text

theorem splitAt_eq_splitOn (separator : UInt8) (bytes : List UInt8) :
    splitAt separator bytes = bytes.splitOn separator := by
  refine eq_splitOn rfl (fun r => if_pos rfl) (fun b r p ps hb hr => ?_) bytes
  rw [splitAt, if_neg hb, hr]

namespace Form

/-- The octets that a part is written with. -/
def isWritten (b : UInt8) : Bool := isPlain b || b == octet '+' || b == octet '%'

theorem ne_of_written {b : UInt8} {c : Char} (hb : isWritten b = true)
    (hc : isWritten (octet c) = false) : b ≠ octet c := by
  rintro rfl
  exact Bool.false_ne_true (hc.symm.trans hb)

theorem written_lt {b : UInt8} (hb : isWritten b = true) : b < 128 := by
  have hall : ∀ k < 256, isWritten (UInt8.ofNat k) = true → UInt8.ofNat k < 128 := by
    decide +kernel
  have h := hall b.toNat b.toNat_lt
  rw [UInt8.ofNat_toNat] at h
  exact h hb

theorem written_writePart (s : String) : ∀ b ∈ writePart s, isWritten b = true := by
  intro x hx
  obtain ⟨b, _, hx⟩ := List.mem_flatMap.mp hx
  split at hx
  · rw [List.mem_singleton.mp hx]
    rfl
  · refine forall_percentEncode (P := fun b => isWritten b = true) (fun b hb => ?_) rfl (by decide)
      [b] x hx
    rw [isWritten, hb]
    rfl

theorem readPart_writePart (s : String) : readPart (writePart s) = s := by
  -- A plus sign is written for a blank, and for nothing else.
  have hspaces : (writePart s).map (fun b => if b = octet '+' then octet ' ' else b) =
      percentEncode (fun b => b == octet ' ' || isPlain b) (toUtf8 s) := by
    rw [writePart, List.map_flatMap, percentEncode]
    congr 1
    funext b
    by_cases hb : b = octet ' '
    · rw [if_pos hb, hb]
      rfl
    · have hnone : ∀ x ∈ percentEncode isPlain [b],
          (if x = octet '+' then octet ' ' else x) = x := by
        refine forall_percentEncode (fun x hx => if_neg ?_) (by decide) (by decide) [b]
        rintro rfl
        exact absurd hx (by decide)
      rw [if_neg hb, List.map_congr_left hnone, List.map_id', percentEncode, List.flatMap_singleton]
      simp [hb]
  rw [readPart, hspaces, percentDecode_percentEncode (by decide), ofUtf8Lossy, ofUtf8?_toUtf8]

theorem readPair_writePair (p : String × String) : readPair (writePair p) = p := by
  have hname : ∀ b ∈ writePart p.1, decide (b ≠ octet '=') = true := fun b hb =>
    decide_eq_true (ne_of_written (written_writePart p.1 b hb) (by decide))
  rw [readPair, writePair, List.takeWhile_append_of_pos hname, List.dropWhile_append_of_pos hname,
    List.takeWhile_cons_of_neg (by simp), List.dropWhile_cons_of_neg (by simp), List.append_nil,
    List.drop_one, List.tail_cons, readPart_writePart, readPart_writePart]

theorem mem_writePair {p : String × String} {b : UInt8} (hb : b ∈ writePair p) :
    isWritten b = true ∨ b = octet '=' := by
  rcases List.mem_append.mp hb with hb | hb
  · exact .inl (written_writePart p.1 b hb)
  · rcases List.mem_cons.mp hb with hb | hb
    · exact .inr hb
    · exact .inl (written_writePart p.2 b hb)

theorem mem_writePairs {pairs : List (String × String)} {b : UInt8} (hb : b ∈ writePairs pairs) :
    isWritten b = true ∨ b = octet '=' ∨ b = octet '&' := by
  induction pairs using writePairs.induct with
  | case1 => exact absurd hb List.not_mem_nil
  | case2 p =>
    rcases mem_writePair hb with hb | hb
    · exact .inl hb
    · exact .inr (.inl hb)
  | case3 p q r ih =>
    rcases List.mem_append.mp hb with hb | hb
    · rcases mem_writePair hb with hb | hb
      · exact .inl hb
      · exact .inr (.inl hb)
    · rcases List.mem_cons.mp hb with hb | hb
      · exact .inr (.inr hb)
      · exact ih hb

theorem not_mem_writePair (p : String × String) : octet '&' ∉ writePair p := by
  intro hb
  rcases mem_writePair hb with hb | hb
  · exact absurd hb (by decide)
  · exact absurd hb (by decide)

theorem splitOn_writePairs (p : String × String) (r : List (String × String)) :
    (writePairs (p :: r)).splitOn (octet '&') = (p :: r).map writePair := by
  induction r generalizing p with
  | nil => exact List.splitOn_eq_singleton (not_mem_writePair p)
  | cons q r ih =>
    rw [writePairs, List.splitOn_append_cons_self_of_not_mem (not_mem_writePair p), ih q]
    rfl

theorem writePairs_lt {pairs : List (String × String)} : ∀ b ∈ writePairs pairs, b < 128 := by
  intro b hb
  rcases mem_writePairs hb with hb | rfl | rfl
  · exact written_lt hb
  · decide
  · decide

theorem read_write (pairs : List (String × String)) : read (write pairs) = pairs := by
  have hbytes : toUtf8 (write pairs) = writePairs pairs := toUtf8_ofOctets writePairs_lt
  rw [read, hbytes]
  cases pairs with
  | nil => rfl
  | cons p r =>
    have hfull : ∀ bytes ∈ (p :: r).map writePair, (!bytes.isEmpty) = true := by
      intro bytes hbytes
      obtain ⟨q, _, rfl⟩ := List.mem_map.mp hbytes
      simp [writePair]
    have hpairs : readPair ∘ writePair = id := funext readPair_writePair
    rw [splitAt_eq_splitOn, splitOn_writePairs, List.filter_eq_self.mpr hfull, List.map_map, hpairs,
      List.map_id]

/-- A character with which no octet of a form is written does not stand in its text. -/
theorem not_mem_write {c : Char} (hc : isWritten (octet c) = false) (hequals : octet c ≠ octet '=')
    (hamp : octet c ≠ octet '&') (pairs : List (String × String)) : c ∉ (write pairs).toList := by
  intro hmem
  rcases mem_writePairs (mem_of_mem_ofOctets writePairs_lt hmem) with h | h | h
  · exact Bool.false_ne_true (hc.symm.trans h)
  · exact hequals h
  · exact hamp h

end Form

end EventGateway.Text
