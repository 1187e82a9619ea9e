import EventGateway.Proofs.Json.Grammar
import EventGateway.Proofs.Json.Strings
import EventGateway.Proofs.Outcome

/-! The scanner takes exactly the strings of the grammar, up to their closing quote. -/

namespace EventGateway.Json

inductive PieceSpelling : List Char → Piece → Prop
  | plain {c : Char} (hq : c ≠ '"') (hb : c ≠ '\\') (hc : ¬ c < ' ') : PieceSpelling [c] (.char c)
  | letter {e c : Char} (hc : letterMeaning? e = some c) : PieceSpelling ['\\', e] (.char c)
  | unit {a b c d : Char} {n : Nat} (hn : hexUnit? a b c d = some n) :
    PieceSpelling ['\\', 'u', a, b, c, d] (.unit n)

/-- The pieces that a text is scanned into, before units are paired. -/
inductive PiecesSpelled : List Char → List Piece → Prop
  | nil : PiecesSpelled [] []
  | cons {w s : List Char} {p : Piece} {ps : List Piece} (hp : PieceSpelling w p)
    (hs : PiecesSpelled s ps) : PiecesSpelled (w ++ s) (p :: ps)

theorem ne_u_of_letter {e c : Char} (h : letterMeaning? e = some c) : e ≠ 'u' := by
  rintro rfl
  simp [letterMeaning?] at h

theorem scanString_spelled {w : List Char} {ps : List Piece} (h : PiecesSpelled w ps)
    (r : List Glyph) : scanString (w.map some ++ some '"' :: r) = (⟨ps, .closed⟩, r) := by
  induction h with
  | nil => exact scanString_quote r
  | cons hp _ ih =>
    rw [List.map_append, List.append_assoc]
    cases hp with
    | plain hq hb hc =>
      rw [List.map_singleton, List.singleton_append, scanString_plain hq hb hc, ih]
      rfl
    | letter hc =>
      have hu := ne_u_of_letter hc
      simp only [List.map_cons, List.map_nil, List.cons_append, List.nil_append,
        scanString_letter hu hc, ih]
      rfl
    | unit hn =>
      simp only [List.map_cons, List.map_nil, List.cons_append, List.nil_append,
        scanString_unit hn, ih]
      rfl

theorem map_some_cons {cs : List Char} {c : Char} {r : List Glyph} (h : cs.map some = some c :: r) :
    ∃ cs', cs = c :: cs' ∧ r = cs'.map some := by
  obtain ⟨c', cs', rfl, hc, rfl⟩ := List.map_eq_cons_iff.mp h
  obtain rfl : c' = c := by simpa using hc
  exact ⟨cs', rfl, rfl⟩

/-- What has been scanned was spelled up to a quote. -/
def Taken (cs : List Char) (p : StringToken × List Glyph) : Prop :=
  ∃ w rest, cs = w ++ '"' :: rest ∧ p.2 = rest.map some ∧ PiecesSpelled w p.1.pieces

theorem Taken.push {w cs : List Char} {p : Piece} {q : StringToken × List Glyph}
    (hp : PieceSpelling w p) (h : Taken cs q) : Taken (w ++ cs) (StringToken.push p q) := by
  obtain ⟨s, rest, rfl, hrest, hs⟩ := h
  exact ⟨w ++ s, rest, by rw [List.append_assoc], hrest, .cons hp hs⟩

theorem taken_of_closed (cs : List Char) (h : (scanString (cs.map some)).1.ending = .closed) :
    Taken cs (scanString (cs.map some)) := by
  generalize hs : cs.map some = s at h ⊢
  fun_induction scanString s generalizing cs with
  | case1 | case4 | case5 | case7 | case10 | case11 => simp at h
  | case2 r => cases cs <;> simp at hs
  | case3 r =>
    obtain ⟨rest, rfl, rfl⟩ := map_some_cons hs
    exact ⟨[], rest, rfl, rfl, .nil⟩
  | case6 a b c d r n hn _ ih =>
    obtain ⟨_, rfl, hu⟩ := map_some_cons hs
    obtain ⟨_, rfl, ha⟩ := map_some_cons hu.symm
    obtain ⟨_, rfl, hb⟩ := map_some_cons ha.symm
    obtain ⟨_, rfl, hc⟩ := map_some_cons hb.symm
    obtain ⟨_, rfl, hd⟩ := map_some_cons hc.symm
    obtain ⟨cs, rfl, rfl⟩ := map_some_cons hd.symm
    exact (ih cs rfl h).push (.unit hn)
  | case8 r hr =>
    have hshort : shortHex r ≠ .closed := by
      unfold shortHex
      split <;> simp
    exact absurd h hshort
  | case9 e r _ c hc _ ih =>
    obtain ⟨_, rfl, he⟩ := map_some_cons hs
    obtain ⟨cs, rfl, rfl⟩ := map_some_cons he.symm
    exact (ih cs rfl h).push (.letter hc)
  | case12 c r hq hb hc ih =>
    obtain ⟨cs, rfl, rfl⟩ := map_some_cons hs
    exact (ih cs rfl h).push (.plain hq hb hc)

namespace StringToken

theorem join_char (c : Char) (e : StringEnd) (ps : List Piece) :
    join e (.char c :: ps) = (join e ps).map (some c :: ·) := rfl

theorem join_unit {n : Nat} (hn : n < 0xd800 ∨ 0xdfff < n) (e : StringEnd) (ps : List Piece) :
    join e (.unit n :: ps) = (join e ps).map (some (Char.ofNat n) :: ·) := by
  have htrail : isTrailing n = false := by
    simp only [isTrailing, decide_eq_false_iff_not]
    omega
  have hlead : isLeading n = false := by
    simp only [isLeading, decide_eq_false_iff_not]
    omega
  rw [join.eq_def]
  simp [htrail, hlead]

theorem join_pair {m n : Nat} (hlead : 0xd800 ≤ m ∧ m ≤ 0xdbff) (htrail : 0xdc00 ≤ n ∧ n ≤ 0xdfff)
    (e : StringEnd) (ps : List Piece) :
    join e (.unit m :: .unit n :: ps) = (join e ps).map (some (joined m n) :: ·) := by
  have hm : isTrailing m = false := by
    simp only [isTrailing, decide_eq_false_iff_not]
    omega
  have hm' : isLeading m = true := decide_eq_true hlead
  have hn : isTrailing n = true := decide_eq_true htrail
  rw [join.eq_def]
  simp only [hm, hm', hn, Bool.false_eq_true, if_false, if_true]

/-- The units of a string that is spelled by the grammar can be paired. -/
theorem exists_pieces {w cs : List Char} (h : Spelled w cs) :
    ∃ ps, PiecesSpelled w ps ∧ join .closed ps = .ok (cs.map some) := by
  induction h with
  | nil => exact ⟨[], .nil, rfl⟩
  | cons hc _ ih =>
    obtain ⟨ps, hps, hjoin⟩ := ih
    cases hc with
    | plain hq hb hc => exact ⟨_, .cons (.plain hq hb hc) hps, by rw [join_char, hjoin]; rfl⟩
    | letter hc => exact ⟨_, .cons (.letter hc) hps, by rw [join_char, hjoin]; rfl⟩
    | unit hn hsingle =>
      exact ⟨_, .cons (.unit hn) hps, by rw [join_unit hsingle, hjoin]; rfl⟩
    | pair hm hlead hn htrail =>
      have hboth := PiecesSpelled.cons (.unit hm) (PiecesSpelled.cons (.unit hn) hps)
      exact ⟨_, hboth, by rw [join_pair hlead htrail, hjoin]; rfl⟩

theorem spelled_of_join {w : List Char} {ps : List Piece} {gs : List Glyph}
    (h : PiecesSpelled w ps) (hjoin : join .closed ps = .ok gs) :
    ∃ cs, gs = cs.map some ∧ Spelled w cs := by
  -- A pair takes two pieces at once, so that the induction follows the joining.
  fun_induction join .closed ps generalizing w gs with
  | case2 =>
    cases h
    obtain rfl : [] = gs := by simpa using hjoin
    exact ⟨[], rfl, .nil⟩
  | case3 c r ih =>
    obtain ⟨gs, hr, rfl⟩ := map_ok.mp hjoin
    obtain _ | ⟨hp, hs⟩ := h
    obtain ⟨cs, rfl, hcs⟩ := ih hs hr
    cases hp with
    | plain hq hb hc => exact ⟨c :: cs, rfl, .cons (.plain hq hb hc) hcs⟩
    | letter hc => exact ⟨c :: cs, rfl, .cons (.letter hc) hcs⟩
  | case4 r =>
    obtain _ | ⟨hp, hs⟩ := h
    cases hp
  | case6 u htrail hlead v r hv ih =>
    obtain ⟨gs, hr, rfl⟩ := map_ok.mp hjoin
    obtain _ | ⟨hp, hs⟩ := h
    obtain _ | ⟨hp', hs⟩ := hs
    obtain ⟨cs, rfl, hcs⟩ := ih hs hr
    cases hp with
    | unit hm =>
      cases hp' with
      | unit hn =>
        have hpair : Spelling _ (joined u v) :=
          .pair hm (by simpa [isLeading] using hlead) hn (by simpa [isTrailing] using hv)
        have hboth := Spelled.cons hpair hcs
        exact ⟨joined u v :: cs, rfl, hboth⟩
  | case10 u r htrail hlead ih =>
    obtain ⟨gs, hr, rfl⟩ := map_ok.mp hjoin
    obtain _ | ⟨hp, hs⟩ := h
    obtain ⟨cs, rfl, hcs⟩ := ih hs hr
    cases hp with
    | unit hn =>
      have hsingle : u < 0xd800 ∨ 0xdfff < u := by
        simp only [isTrailing, isLeading, decide_eq_true_eq] at htrail hlead
        omega
      exact ⟨Char.ofNat u :: cs, rfl, .cons (.unit hn hsingle) hcs⟩
  | _ => simp at hjoin

theorem closed_of_join {e : StringEnd} {ps : List Piece} {gs : List Glyph}
    (h : join e ps = .ok gs) : e = .closed := by
  fun_induction join e ps generalizing gs with
  | case2 hend => cases e <;> simp [endError?] at hend ⊢
  | case3 _ _ ih | case4 _ ih | case6 _ _ _ _ _ _ ih | case10 _ _ _ _ ih =>
    obtain ⟨gs, hr, _⟩ := map_ok.mp h
    exact ih hr
  | _ => simp at h

theorem read_of_join {t : StringToken} {cs : List Char}
    (h : join t.ending t.pieces = .ok (cs.map some)) : t.read = .ok (String.ofList cs) := by
  simp [read, h]

end StringToken

theorem scanString_of_spelled {w cs : List Char} (h : Spelled w cs) (r : List Glyph) :
    ∃ t, scanString (w.map some ++ some '"' :: r) = (t, r) ∧ t.read = .ok (String.ofList cs) := by
  obtain ⟨ps, hps, hjoin⟩ := StringToken.exists_pieces h
  exact ⟨⟨ps, .closed⟩, scanString_spelled hps r, StringToken.read_of_join hjoin⟩

theorem spelled_of_read {cs : List Char} {s : String}
    (h : (scanString (cs.map some)).1.read = .ok s) :
    ∃ w rest ks, cs = w ++ '"' :: rest ∧ (scanString (cs.map some)).2 = rest.map some ∧
      Spelled w ks ∧ s = String.ofList ks := by
  cases hjoin : StringToken.join (scanString (cs.map some)).1.ending
      (scanString (cs.map some)).1.pieces with
  | error e => simp [StringToken.read, hjoin] at h
  | ok gs =>
    have hclosed := StringToken.closed_of_join hjoin
    obtain ⟨w, rest, hcs, hrest, hps⟩ := taken_of_closed cs hclosed
    rw [hclosed] at hjoin
    obtain ⟨ks, rfl, hks⟩ := StringToken.spelled_of_join hps hjoin
    rw [← hclosed] at hjoin
    exact ⟨w, rest, ks, hcs, hrest, hks, Except.ok.inj (h.symm.trans (StringToken.read_of_join hjoin))⟩

end EventGateway.Json
