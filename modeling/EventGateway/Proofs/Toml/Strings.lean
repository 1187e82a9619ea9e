import EventGateway.Toml.Quoted
import EventGateway.Toml.Writer
import EventGateway.Proofs.Text.Front
import Mathlib.Tactic.SplitIfs

/-! A string that is written in the form that suits it is read back. -/

namespace EventGateway.Toml

open Text

variable {c q : Char} {s r t : List Char}

theorem hexValue?_hexUpper : ∀ d < 16, hexValue? (hexUpper d) = some d := by decide

theorem charOf?_toNat (c : Char) : charOf? c.toNat = some c := by
  have hvalid : c.toNat.isValidChar := c.valid
  rw [charOf?, if_pos hvalid, Char.ofNat_toNat]

theorem isPlain_of_printable (hlow : ¬ (c < ' ' ∨ c = '\x7f')) : isPlain c = true := by
  obtain ⟨hspace, hdel⟩ := not_or.mp hlow
  simp [isPlain, Char.not_lt.mp hspace, hdel]

theorem toNat_of_control (hc : c < ' ' ∨ c = '\x7f') : c.toNat / 16 < 16 := by
  rcases hc with hc | rfl
  · have hlt : c.toNat < ' '.toNat := hc
    simp at hlt
    omega
  · decide

/-- What may be written for a character between double quotes. -/
inductive Escaped : Char → List Char → Prop
  | letter {c e : Char} (h : letterOf? e = some c) : Escaped c ['\\', e]
  | hex {c : Char} (h : c.toNat / 16 < 16) :
    Escaped c ['\\', 'u', '0', '0', hexUpper (c.toNat / 16), hexUpper (c.toNat % 16)]
  | plain {c : Char} (hq : c ≠ '"') (hb : c ≠ '\\') (hp : isPlain c = true) : Escaped c [c]

theorem escaped_escapeChar (c : Char) : Escaped c (escapeChar c) := by
  unfold escapeChar
  split_ifs with h₁ h₂ h₃ h₄ h₅ h₆ h₇ h₈
  · subst h₁
    exact .letter rfl
  · subst h₂
    exact .letter rfl
  · subst h₃
    exact .letter rfl
  · subst h₄
    exact .letter rfl
  · subst h₅
    exact .letter rfl
  · subst h₆
    exact .letter rfl
  · subst h₇
    exact .letter rfl
  · exact .hex (toNat_of_control h₈)
  · exact .plain h₆ h₇ (isPlain_of_printable h₈)

theorem readBasic_escaped {e : List Char} (h : Escaped c e) (t : List Char) :
    readBasic .text (e ++ t) = push c (readBasic .text t) := by
  cases h with
  | letter h => simp [readBasic, h]
  | hex h =>
    have hlast := hexValue?_hexUpper (c.toNat % 16) (Nat.mod_lt _ (by decide))
    have hfirst := hexValue?_hexUpper (c.toNat / 16) h
    have hletter : letterOf? 'u' = none := by decide
    have hzero : hexValue? '0' = some 0 := by decide
    have hchar : charOf? (c.toNat / 16 * 16 + c.toNat % 16) = some c := by
      rw [Nat.div_add_mod', charOf?_toNat]
    simp [readBasic, hletter, hzero, hfirst, hlast, hchar]
  | plain hq hb hp => simp [readBasic, hq, hb, hp]

theorem readBasic_basicText (s r : List Char) :
    readBasic .text (basicText s ++ '"' :: r) = some (s, r) := by
  induction s with
  | nil => simp [basicText, readBasic]
  | cons c s ih =>
    have htext : basicText (c :: s) ++ '"' :: r = escapeChar c ++ (basicText s ++ '"' :: r) := by
      simp [basicText]
    rw [htext, readBasic_escaped (escaped_escapeChar c), ih]
    rfl

theorem readLiteral_plain (hs : ∀ c ∈ s, c ≠ '\'' ∧ isPlain c = true) (r : List Char) :
    readLiteral (s ++ '\'' :: r) = some (s, r) := by
  induction s with
  | nil => simp [readLiteral]
  | cons c s ih =>
    obtain ⟨hq, hp⟩ := hs c List.mem_cons_self
    have hrest := ih fun x hx => hs x (List.mem_cons_of_mem c hx)
    simp [readLiteral, hq, hp, hrest, push]

/-! Three quotes end a string over several lines; up to two more in front of them belong to it. -/

theorem isRun_other (hc : c ≠ q) (t : List Char) : isRun q (c :: t) = false := by
  simp [isRun, hc]

theorem isRun_closing (k : Nat) (hr : Stops (fun c => c = q) r) :
    isRun q (List.replicate (k + 3) q ++ r) = true := by
  have htake : (List.replicate (k + 3) q ++ r).takeWhile (fun c => c = q) =
      List.replicate (k + 3) q := takeWhile_front (by simp) hr
  rw [isRun, htake, List.length_replicate]
  simp

theorem closeRun_closing {k : Nat} (hk : k ≤ 2) (hr : Stops (fun c => c = q) r) :
    closeRun q (List.replicate (k + 3) q ++ r) = (List.replicate k q, r) := by
  have htake : (List.replicate (k + 3) q ++ r).takeWhile (fun c => c = q) =
      List.replicate (k + 3) q := takeWhile_front (by simp) hr
  have hextra : closingExtra (k + 3) = k := by
    rw [closingExtra]
    omega
  have hdrop : (List.replicate (k + 3) q ++ r).drop (k + 3) = r := List.drop_left' (by simp)
  simp only [closeRun, htake, List.length_replicate, hextra, hdrop]

theorem readLongBasic_escaped {e : List Char} (h : Escaped c e) (t : List Char) :
    readLongBasic .text (e ++ t) = push c (readLongBasic .text t) := by
  cases h with
  | letter h => simp [readLongBasic, isRun_other, h]
  | hex h =>
    have hlast := hexValue?_hexUpper (c.toNat % 16) (Nat.mod_lt _ (by decide))
    have hfirst := hexValue?_hexUpper (c.toNat / 16) h
    have hletter : letterOf? 'u' = none := by decide
    have hzero : hexValue? '0' = some 0 := by decide
    have hchar : charOf? (c.toNat / 16 * 16 + c.toNat % 16) = some c := by
      rw [Nat.div_add_mod', charOf?_toNat]
    simp [readLongBasic, isRun_other, hletter, hzero, hfirst, hlast, hchar]
  | plain hq hb hp => simp [readLongBasic, isRun_other, hq, hb, hp]

theorem Escaped.stops {e : List Char} (h : Escaped c e) (hb : q ≠ '\\')
    (hq : q = '"' ∨ isPlain q = false) (t : List Char) : Stops (fun c => c = q) (e ++ t) := by
  cases h with
  | letter _ | hex _ => exact stops_cons (by simpa using hb.symm) _
  | plain hc _ hp =>
    refine stops_cons (decide_eq_false ?_) t
    rintro rfl
    rcases hq with rfl | hq
    · exact hc rfl
    · simp [hq] at hp

/-- A character is a quote that is left as it is, or it is read back from what stands for it. -/
theorem longBasicText_cons (n : Nat) (c : Char) (s : List Char) :
    (c = '"' ∧ n < 2 ∧ longBasicText n (c :: s) = '"' :: longBasicText (n + 1) s) ∨
      ∃ e, longBasicText n (c :: s) = e ++ longBasicText 0 s ∧ ∀ t,
        Stops (fun c => c = '"') (e ++ t) ∧
          readLongBasic .text (e ++ t) = push c (readLongBasic .text t) := by
  have hescaped : ∀ t, Stops (fun c => c = '"') (escapeChar c ++ t) ∧
      readLongBasic .text (escapeChar c ++ t) = push c (readLongBasic .text t) := fun t =>
    ⟨(escaped_escapeChar c).stops (by decide) (.inl rfl) t, readLongBasic_escaped (escaped_escapeChar c) t⟩
  rw [longBasicText]
  split_ifs with hfeed hquote hfew
  · subst hfeed
    refine .inr ⟨['\n'], rfl, fun t => ⟨stops_cons (by decide) t, ?_⟩⟩
    simp [readLongBasic, isRun_other]
  · exact .inl ⟨hquote, hfew, by rw [hquote]⟩
  · exact .inr ⟨_, rfl, hescaped⟩
  · exact .inr ⟨_, rfl, hescaped⟩

/-- Up to two quotes are all that is left, or fewer than three come before something else. -/
theorem quotes_ahead (s t : List Char) {n : Nat} (hn : n ≤ 2) :
    (∃ k, k + n ≤ 2 ∧ s = List.replicate k '"') ∨
      ((longBasicText n s ++ t).takeWhile (fun c => c = '"')).length + n ≤ 2 := by
  induction s generalizing n with
  | nil => exact .inl ⟨0, by omega, rfl⟩
  | cons c s ih =>
    rcases longBasicText_cons n c s with ⟨rfl, hlt, htext⟩ | ⟨e, htext, he⟩
    · rw [htext]
      rcases ih (n := n + 1) (by omega) with ⟨k, hk, rfl⟩ | hlength
      · exact .inl ⟨k + 1, by omega, rfl⟩
      · refine .inr ?_
        rw [List.cons_append, List.takeWhile_cons_of_pos (by decide), List.length_cons]
        omega
    · refine .inr ?_
      rw [htext, List.append_assoc, (he _).1.takeWhile]
      simpa using hn

theorem longBasicText_replicate {k n : Nat} (hk : k + n ≤ 2) :
    longBasicText n (List.replicate k '"') = List.replicate k '"' := by
  induction k generalizing n with
  | zero => rfl
  | succ k ih =>
    have hlt : n < 2 := by omega
    rw [List.replicate_succ, longBasicText, if_neg (by decide), if_pos rfl, if_pos hlt,
      ih (by omega)]

theorem readLongBasic_closing {k : Nat} (hk : k ≤ 2) (hr : Stops (fun c => c = '"') r) :
    readLongBasic .text (List.replicate (k + 3) '"' ++ r) = some (List.replicate k '"', r) := by
  have hrun := isRun_closing k hr
  have hclose := closeRun_closing hk hr
  rw [List.replicate_succ, List.cons_append] at hrun hclose ⊢
  rw [readLongBasic, if_pos hrun, hclose]

theorem readLongBasic_quote (hrun : isRun '"' ('"' :: t) = false) :
    readLongBasic .text ('"' :: t) = push '"' (readLongBasic .text t) := by
  have hplain : isPlain '"' = true := by decide
  simp [readLongBasic, hrun, hplain]

theorem readLongBasic_longBasicText (s : List Char) {n : Nat} (hn : n ≤ 2)
    (hr : Stops (fun c => c = '"') r) :
    readLongBasic .text (longBasicText n s ++ (List.replicate 3 '"' ++ r)) = some (s, r) := by
  have hclosed {k : Nat} (hk : k ≤ 2) : readLongBasic .text
      (List.replicate k '"' ++ (List.replicate 3 '"' ++ r)) = some (List.replicate k '"', r) := by
    rw [← List.append_assoc, List.replicate_append_replicate]
    exact readLongBasic_closing hk hr
  induction s generalizing n with
  | nil => exact hclosed (k := 0) (by decide)
  | cons c s ih =>
    rcases quotes_ahead (c :: s) (List.replicate 3 '"' ++ r) hn with ⟨k, hk, hs⟩ | hfew
    · rw [hs, longBasicText_replicate hk]
      exact hclosed (by omega)
    rcases longBasicText_cons n c s with ⟨rfl, hlt, htext⟩ | ⟨e, htext, he⟩
    · rw [htext, List.cons_append] at hfew ⊢
      have hrun : isRun '"' ('"' :: (longBasicText (n + 1) s ++ (List.replicate 3 '"' ++ r))) =
          false := by
        rw [isRun]
        exact decide_eq_false (by omega)
      rw [readLongBasic_quote hrun, ih (by omega)]
      rfl
    · rw [htext, List.append_assoc, (he _).2, ih (by omega)]
      rfl

/-! The form with three single quotes. -/

/-- Up to as many quotes as are still allowed are all that is left, or something else comes before
there are more of them. -/
theorem quotes_within (q : Char) (s t : List Char) {n : Nat} (hn : longestRun.go q n s ≤ 2) :
    (∃ k, k + n ≤ 2 ∧ s = List.replicate k q) ∨
      ((s ++ t).takeWhile (fun c => c = q)).length + n ≤ 2 := by
  induction s generalizing n with
  | nil => exact .inl ⟨0, by simpa [longestRun.go] using hn, rfl⟩
  | cons c s ih =>
    rw [longestRun.go] at hn
    split_ifs at hn with hc
    · subst hc
      rcases ih hn with ⟨k, hk, rfl⟩ | hlength
      · exact .inl ⟨k + 1, by omega, rfl⟩
      · refine .inr ?_
        rw [List.cons_append, List.takeWhile_cons_of_pos (by simp), List.length_cons]
        omega
    · refine .inr ?_
      rw [List.cons_append, List.takeWhile_cons_of_neg (by simpa using hc)]
      simp
      omega

theorem go_mono (q : Char) (s : List Char) {m n : Nat} (hmn : m ≤ n) :
    longestRun.go q m s ≤ longestRun.go q n s := by
  induction s generalizing m n with
  | nil => simpa [longestRun.go] using hmn
  | cons c s ih =>
    rw [longestRun.go, longestRun.go]
    split
    · exact ih (by omega)
    · omega

theorem longestRun_tail (hs : longestRun q (c :: s) ≤ 2) : longestRun q s ≤ 2 := by
  rw [longestRun, longestRun.go] at hs
  split_ifs at hs with hc
  · exact Nat.le_trans (go_mono q s (Nat.zero_le 1)) hs
  · exact Nat.le_trans (Nat.le_max_right _ _) hs

theorem readLongLiteral_plain (hs : ∀ c ∈ s, isPlain c = true ∨ c = '\n')
    (hruns : longestRun '\'' s ≤ 2) (hr : Stops (fun c => c = '\'') r) :
    readLongLiteral (s ++ (List.replicate 3 '\'' ++ r)) = some (s, r) := by
  have hclosed {k : Nat} (hk : k ≤ 2) : readLongLiteral
      (List.replicate k '\'' ++ (List.replicate 3 '\'' ++ r)) = some (List.replicate k '\'', r) := by
    rw [← List.append_assoc, List.replicate_append_replicate]
    have hrun := isRun_closing k hr
    have hclose := closeRun_closing hk hr
    rw [List.replicate_succ, List.cons_append] at hrun hclose ⊢
    rw [readLongLiteral, if_pos hrun, hclose]
  induction s with
  | nil => exact hclosed (k := 0) (by decide)
  | cons c s ih =>
    rcases quotes_within '\'' (c :: s) (List.replicate 3 '\'' ++ r) hruns with ⟨k, hk, hs⟩ | hfew
    · rw [hs]
      exact hclosed (by omega)
    have hrun : isRun '\'' (c :: (s ++ (List.replicate 3 '\'' ++ r))) = false :=
      decide_eq_false (by rw [← List.cons_append]; omega)
    have hc : (isPlain c || decide (c = '\n')) = true := by simpa using hs c List.mem_cons_self
    have hrest := ih (fun x hx => hs x (List.mem_cons_of_mem c hx)) (longestRun_tail hruns)
    rw [List.cons_append, readLongLiteral, if_neg (by simp only [hrun]; decide), if_pos hc, hrest]
    rfl

/-! The four forms together. -/

theorem readString?_basic (ht : ∀ u, t ≠ '"' :: '"' :: u) :
    readString? ('"' :: t) = readString?.made (readBasic .text t) := by
  unfold readString?
  split
  next heq => exact absurd (List.cons.inj heq).2 (ht _)
  next heq => exact absurd (List.cons.inj heq).1 (by decide)
  next heq => rw [(List.cons.inj heq).2]
  next heq => exact absurd (List.cons.inj heq).1 (by decide)
  next hno _ => exact absurd rfl (hno t)

theorem readString?_literal (ht : ∀ u, t ≠ '\'' :: '\'' :: u) :
    readString? ('\'' :: t) = readString?.made (readLiteral t) := by
  unfold readString?
  split
  next heq => exact absurd (List.cons.inj heq).1 (by decide)
  next heq => exact absurd (List.cons.inj heq).2 (ht _)
  next heq => exact absurd (List.cons.inj heq).1 (by decide)
  next heq => rw [(List.cons.inj heq).2]
  next hno => exact absurd rfl (hno t)

theorem skipFirstLine_firstLine (ht : s.contains '\n' = false → Stops (fun c => c = '\n') t) :
    skipFirstLine (firstLine s ++ t) = t := by
  rw [firstLine]
  split_ifs with hlines
  · rfl
  · have hstop := ht (by simpa using hlines)
    cases t with
    | nil => rfl
    | cons c t =>
      have hc : c ≠ '\n' := of_decide_eq_false (hstop c (by simp))
      rw [List.nil_append, skipFirstLine]
      simpa using hc

theorem not_hidden (hs : s.any isHidden = false) :
    ∀ c ∈ s, isPlain c = true ∨ c = '\n' := by
  intro c hc
  have hhidden := List.any_eq_false.mp hs c hc
  by_cases hfeed : c = '\n'
  · exact .inr hfeed
  · refine .inl ?_
    by_cases htab : c = '\t'
    · rw [htab]
      rfl
    · refine isPlain_of_printable ?_
      simpa [isHidden, hfeed, htab] using hhidden

/-- Where the writer does not escape, the form is one whose quotes the text leaves free. -/
theorem formOf_cases (s : List Char) : formOf s = .basic ∨ formOf s = .longBasic ∨
    formOf s = .literal ∧ (∀ c ∈ s, c ≠ '\'' ∧ isPlain c = true) ∧ s ≠ [] ∨
    formOf s = .longLiteral ∧ (∀ c ∈ s, isPlain c = true ∨ c = '\n') ∧ longestRun '\'' s ≤ 2 := by
  unfold formOf
  split_ifs with hhidden hlines hplain hquote hdouble hsingle hlines'
  · exact .inr (.inl rfl)
  · exact .inl rfl
  · exact .inl rfl
  · have hprintable := not_hidden (by simpa using hhidden)
    simp only [Bool.and_eq_true, Bool.not_eq_true', List.contains_eq_mem, decide_eq_false_iff_not]
      at hquote
    refine .inr (.inr (.inl ⟨rfl, fun c hc => ⟨?_, ?_⟩, ?_⟩))
    · rintro rfl
      exact hquote.1 hc
    · rcases hprintable c hc with hp | rfl
      · exact hp
      · exact absurd hc hquote.2
    · rintro rfl
      exact hplain (by decide)
  · exact .inr (.inl rfl)
  · exact .inr (.inr (.inr ⟨rfl, not_hidden (by simpa using hhidden), hsingle⟩))
  · exact .inr (.inl rfl)
  · exact .inl rfl

theorem stops_longBasicText (hs : s.contains '\n' = false) (t : List Char) :
    Stops (fun c => c = '\n') (longBasicText 0 s ++ (List.replicate 3 '"' ++ t)) := by
  cases s with
  | nil => exact stops_cons (by decide) _
  | cons c s =>
    have hc : c ≠ '\n' := by
      rintro rfl
      simp at hs
    rw [longBasicText, if_neg hc]
    split_ifs with hquote
    · exact stops_cons (by simpa using hc) _
    · omega
    · rw [List.append_assoc]
      exact (escaped_escapeChar c).stops (by decide) (.inr (by decide)) _

/-- A string that is written is read back, if no more quotes follow. -/
theorem readString?_writeString (s : String) (hr : Stops (fun c => c = '"' || c = '\'') r) :
    readString? (writeString s ++ r) = some (s, r) := by
  have hdouble : Stops (fun c => c = '"') r := fun c hc => (Bool.or_eq_false_iff.mp (hr c hc)).1
  have hsingle : Stops (fun c => c = '\'') r := fun c hc => (Bool.or_eq_false_iff.mp (hr c hc)).2
  have hmade {p : Option (List Char × List Char)} (hp : p = some (s.toList, r)) :
      readString?.made p = some (s, r) := by simp [hp, readString?.made]
  rcases formOf_cases s.toList with hform | hform | ⟨hform, hplain, hne⟩ | ⟨hform, hplain, hruns⟩
  · have htext : writeString s ++ r = '"' :: (basicText s.toList ++ '"' :: r) := by
      simp [writeString, hform]
    have hnot : ∀ u, basicText s.toList ++ '"' :: r ≠ '"' :: '"' :: u := by
      intro u heq
      cases hs : s.toList with
      | nil =>
        rw [hs] at heq
        have hhead : r = '"' :: u := (List.cons.inj heq).2
        exact absurd (hdouble '"' (by simp [hhead])) (by decide)
      | cons c cs =>
        have hstop := (escaped_escapeChar c).stops (q := '"') (by decide) (.inl rfl)
          (basicText cs ++ '"' :: r)
        rw [hs, basicText, List.flatMap_cons, List.append_assoc] at heq
        exact absurd (hstop '"' (by rw [basicText, heq]; rfl)) (by decide)
    rw [htext, readString?_basic hnot, hmade (readBasic_basicText s.toList r)]
  · have htext : writeString s ++ r = '"' :: '"' :: '"' :: (firstLine s.toList ++
        (longBasicText 0 s.toList ++ (List.replicate 3 '"' ++ r))) := by
      simp [writeString, hform]
    have hread := readLongBasic_longBasicText s.toList (Nat.zero_le 2) hdouble
    rw [htext, readString?, skipFirstLine_firstLine fun h => stops_longBasicText h r, hmade hread]
  · have htext : writeString s ++ r = '\'' :: (s.toList ++ '\'' :: r) := by
      simp [writeString, hform]
    have hnot : ∀ u, s.toList ++ '\'' :: r ≠ '\'' :: '\'' :: u := by
      intro u heq
      cases hs : s.toList with
      | nil => exact hne hs
      | cons c cs =>
        rw [hs] at heq hplain
        exact (hplain c List.mem_cons_self).1 (List.cons.inj heq).1
    rw [htext, readString?_literal hnot, hmade (readLiteral_plain hplain r)]
  · have htext : writeString s ++ r = '\'' :: '\'' :: '\'' :: (firstLine s.toList ++
        (s.toList ++ (List.replicate 3 '\'' ++ r))) := by
      simp [writeString, hform]
    have hread := readLongLiteral_plain hplain hruns hsingle
    have hfirst : s.toList.contains '\n' = false → Stops (fun c => c = '\n')
        (s.toList ++ (List.replicate 3 '\'' ++ r)) := by
      intro hlines
      cases hs : s.toList with
      | nil => exact stops_cons (by decide) _
      | cons c cs =>
        rw [hs] at hlines
        refine stops_cons (decide_eq_false ?_) _
        rintro rfl
        simp at hlines
    rw [htext, readString?, skipFirstLine_firstLine hfirst, hmade hread]

theorem Escaped.no_return {e : List Char} (h : Escaped c e) : '\r' ∉ e := by
  have hdigit : ∀ d < 16, hexUpper d ≠ '\r' := by decide
  cases h with
  | @letter x hx =>
    have hne : x ≠ '\r' := by
      rintro rfl
      exact absurd hx (by simp [letterOf?])
    simpa using hne.symm
  | hex hlow =>
    have hfirst := (hdigit _ hlow).symm
    have hlast := (hdigit (c.toNat % 16) (Nat.mod_lt _ (by decide))).symm
    simp [hfirst, hlast]
  | plain _ _ hp =>
    have hne : c ≠ '\r' := by
      rintro rfl
      exact absurd hp (by decide)
    simpa using hne.symm

theorem longBasicText_no_return (n : Nat) (s : List Char) : '\r' ∉ longBasicText n s := by
  induction s generalizing n with
  | nil => simp [longBasicText]
  | cons c s ih =>
    have hescaped := (escaped_escapeChar c).no_return
    rw [longBasicText]
    split_ifs with hfeed hquote
    · simp [hfeed, ih]
    · simp [hquote, ih]
    · simp [hescaped, ih]
    · simp [hescaped, ih]

theorem no_return_of_plain (hs : ∀ c ∈ s, isPlain c = true ∨ c = '\n') : '\r' ∉ s := by
  intro h
  rcases hs '\r' h with hp | heq
  · exact absurd hp (by decide)
  · exact absurd heq (by decide)

/-- No line of a string that is written ends in another way than with a line feed. -/
theorem writeString_no_return (s : String) : '\r' ∉ writeString s := by
  have hfirst : '\r' ∉ firstLine s.toList := by
    unfold firstLine
    split <;> simp
  rcases formOf_cases s.toList with hform | hform | ⟨hform, hplain, _⟩ | ⟨hform, hplain, _⟩
  · have hbasic : '\r' ∉ basicText s.toList := by
      intro h
      obtain ⟨c, _, hc⟩ := List.mem_flatMap.mp h
      exact (escaped_escapeChar c).no_return hc
    simpa [writeString, hform] using hbasic
  · simpa [writeString, hform, hfirst] using longBasicText_no_return 0 s.toList
  · simpa [writeString, hform] using no_return_of_plain fun c hc => .inl (hplain c hc).2
  · simpa [writeString, hform, hfirst] using no_return_of_plain hplain

theorem writeString_quote (s : String) :
    ∃ q t, writeString s = q :: t ∧ (q = '"' ∨ q = '\'') := by
  unfold writeString
  dsimp only
  split
  · exact ⟨_, _, rfl, .inl rfl⟩
  · exact ⟨_, _, rfl, .inr rfl⟩
  · exact ⟨_, _, rfl, .inl rfl⟩
  · exact ⟨_, _, rfl, .inr rfl⟩

end EventGateway.Toml
