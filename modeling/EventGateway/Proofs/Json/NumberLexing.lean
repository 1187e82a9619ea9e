import EventGateway.Proofs.Json.Grammar
import EventGateway.Proofs.Json.Numbers

/-! The scanner takes exactly the numerals of the grammar, as long as they go, and those that fit
64 bits are integers. -/

namespace EventGateway.Json

/-- A numeral can end where this follows. -/
def EndsNumeral (r : List Char) : Prop :=
  ∀ c ∈ r.head?, c.isDigit = false ∧ c ≠ '.' ∧ c ≠ 'e' ∧ c ≠ 'E'

theorem spanDigits_map (cs : List Char) :
    spanDigits (cs.map some) = (cs.takeWhile Char.isDigit, (cs.dropWhile Char.isDigit).map some) := by
  have hdigit : Glyph.isDigit ∘ some = Char.isDigit := rfl
  simp [spanDigits, List.takeWhile_map, List.dropWhile_map, hdigit]

theorem digits_takeWhile {cs : List Char} (h : (cs.takeWhile Char.isDigit).isEmpty = false) :
    Digits (cs.takeWhile Char.isDigit) := by
  refine ⟨by simpa using h, fun c hc => ?_⟩
  exact List.all_eq_true.mp List.all_takeWhile c hc

theorem takeWhile_digits {ds r : List Char} (hd : Digits ds)
    (hr : ∀ c ∈ r.head?, c.isDigit = false) :
    (ds ++ r).takeWhile Char.isDigit = ds ∧ (ds ++ r).dropWhile Char.isDigit = r := by
  rw [List.takeWhile_append_of_pos hd.2, List.dropWhile_append_of_pos hd.2]
  cases r with
  | nil => simp
  | cons c r =>
    have hc := hr c (by simp)
    simp [hc]

/-! Exponents. -/

theorem spanSign_of_sign {s : List Char} {minus : Bool} (hs : Sign s minus) {r : List Char}
    (hr : ∀ c ∈ r.head?, c.isDigit = true) :
    spanSign ((s ++ r).map some) = (minus, r.map some) := by
  cases hs with
  | plus | minus => rfl
  | none =>
    cases r with
    | nil => rfl
    | cons c r =>
      have hc := hr c (by simp)
      have hm : c ≠ '-' := by rintro rfl; simp at hc
      have hp : c ≠ '+' := by rintro rfl; simp at hc
      simp [spanSign, hm, hp]

theorem sign_of_spanSign (cs : List Char) : ∃ s rest, cs = s ++ rest ∧
    (spanSign (cs.map some)).2 = rest.map some ∧ Sign s (spanSign (cs.map some)).1 := by
  cases cs with
  | nil => exact ⟨[], [], rfl, rfl, .none⟩
  | cons c cs =>
    by_cases hm : c = '-'
    · subst hm
      exact ⟨['-'], cs, rfl, rfl, .minus⟩
    by_cases hp : c = '+'
    · subst hp
      exact ⟨['+'], cs, rfl, rfl, .plus⟩
    · have hnone : spanSign ((c :: cs).map some) = (false, (c :: cs).map some) := by
        simp [spanSign, hm, hp]
      rw [hnone]
      exact ⟨[], c :: cs, rfl, rfl, .none⟩

theorem head_digits {ds : List Char} (hd : Digits ds) (r : List Char) :
    ∀ c ∈ (ds ++ r).head?, c.isDigit = true := by
  obtain ⟨hne, hall⟩ := hd
  cases ds with
  | nil => exact absurd rfl hne
  | cons d ds => simpa using hall d (by simp)

theorem scanExponent_of_exponent {x r : List Char} {exponent : Option (Bool × List Char)}
    (hx : Exponent x exponent) (hr : EndsNumeral r) (t : NumberToken) (ht : t.exponent = none) :
    scanExponent t ((x ++ r).map some) = ({ t with exponent := exponent }, r.map some) := by
  cases hx with
  | none =>
    cases r with
    | nil => simp [scanExponent, ← ht]
    | cons c r =>
      obtain ⟨_, _, he, hE⟩ := hr c (by simp)
      simp [scanExponent, he, hE, ← ht]
  | some he hs hd =>
    rename_i e s ds minus
    obtain ⟨htake, hdrop⟩ := takeWhile_digits hd fun c hc => (hr c hc).1
    have hsign := spanSign_of_sign hs (head_digits hd r)
    have hne : ds.isEmpty = false := by simpa using hd.1
    have hscan : (e :: (s ++ ds) ++ r).map some = some e :: (s ++ (ds ++ r)).map some := by simp
    rw [hscan]
    simp only [scanExponent, he, if_true, hsign, spanDigits_map, htake, hdrop, hne,
      Bool.false_eq_true, if_false]

theorem exponent_of_scanExponent (cs : List Char) {t : NumberToken} (ht : t.exponent = none)
    (hend : (scanExponent t (cs.map some)).1.ending = .complete) :
    ∃ x rest exponent, cs = x ++ rest ∧ Exponent x exponent ∧
      scanExponent t (cs.map some) = ({ t with exponent := exponent }, rest.map some) := by
  cases cs with
  | nil => exact ⟨[], [], none, rfl, .none, by simp [scanExponent, ← ht]⟩
  | cons c cs =>
    by_cases he : c = 'e' ∨ c = 'E'
    · obtain ⟨s, rest, rfl, hrest, hs⟩ := sign_of_spanSign cs
      have hdigits := spanDigits_map rest
      simp only [List.map_cons, scanExponent, he, if_true, hrest, hdigits] at hend ⊢
      cases hempty : (rest.takeWhile Char.isDigit).isEmpty with
      | true =>
        simp only [hempty, if_true, stopAt] at hend
        split at hend <;> simp at hend
      | false =>
        refine ⟨c :: (s ++ rest.takeWhile Char.isDigit), rest.dropWhile Char.isDigit, _, ?_,
          .some he hs (digits_takeWhile hempty), by simp⟩
        simp
    · refine ⟨[], c :: cs, none, rfl, .none, ?_⟩
      simp [scanExponent, he, ← ht]

/-! Fractions, and numerals as a whole. -/

theorem head_exponent {x r : List Char} {exponent : Option (Bool × List Char)}
    (hx : Exponent x exponent) (hr : EndsNumeral r) :
    ∀ c ∈ (x ++ r).head?, c.isDigit = false ∧ c ≠ '.' := by
  cases hx with
  | none => exact fun c hc => ⟨(hr c hc).1, (hr c hc).2.1⟩
  | some he hs hd => rcases he with rfl | rfl <;> simp

theorem head_fraction {f r : List Char} {fraction : Option (List Char)} (hf : Fraction f fraction)
    (hr : ∀ c ∈ r.head?, c.isDigit = false) : ∀ c ∈ (f ++ r).head?, c.isDigit = false := by
  cases hf with
  | none => exact hr
  | some hd => simp

theorem scanFraction_of_fraction {f x r : List Char} {fraction : Option (List Char)}
    {exponent : Option (Bool × List Char)} (hf : Fraction f fraction) (hx : Exponent x exponent)
    (hr : EndsNumeral r) (t : NumberToken) (hfraction : t.fraction = none)
    (hexponent : t.exponent = none) :
    scanFraction t ((f ++ (x ++ r)).map some) =
      ({ t with fraction := fraction, exponent := exponent }, r.map some) := by
  have hhead := head_exponent hx hr
  cases hf with
  | none =>
    have hsame : scanFraction t ((x ++ r).map some) = scanExponent t ((x ++ r).map some) := by
      cases hxr : x ++ r with
      | nil => rfl
      | cons c cs =>
        have hc := (hhead c (by simp [hxr])).2
        simp [scanFraction, hc]
    rw [List.nil_append, hsame, scanExponent_of_exponent hx hr t hexponent, ← hfraction]
  | some hd =>
    rename_i ds
    obtain ⟨htake, hdrop⟩ := takeWhile_digits hd fun c hc => (hhead c hc).1
    have hne : ds.isEmpty = false := by simpa using hd.1
    have hscan : ('.' :: ds ++ (x ++ r)).map some = some '.' :: (ds ++ (x ++ r)).map some := by simp
    rw [hscan]
    simp only [scanFraction, if_true, spanDigits_map, htake, hdrop, hne, Bool.false_eq_true, if_false]
    exact scanExponent_of_exponent hx hr { t with fraction := some ds } hexponent

theorem fraction_of_scanFraction (cs : List Char) {t : NumberToken} (hfraction : t.fraction = none)
    (hexponent : t.exponent = none)
    (hend : (scanFraction t (cs.map some)).1.ending = .complete) :
    ∃ f x rest fraction exponent, cs = f ++ (x ++ rest) ∧ Fraction f fraction ∧
      Exponent x exponent ∧ scanFraction t (cs.map some) =
        ({ t with fraction := fraction, exponent := exponent }, rest.map some) := by
  by_cases hdot : cs.head? = some '.'
  · obtain ⟨cs, rfl⟩ := List.head?_eq_some_iff.mp hdot
    simp only [List.map_cons, scanFraction, if_true, spanDigits_map] at hend ⊢
    cases hempty : (cs.takeWhile Char.isDigit).isEmpty with
    | true =>
      simp only [hempty, if_true, stopAt] at hend
      split at hend <;> simp at hend
    | false =>
      simp only [hempty, Bool.false_eq_true, if_false] at hend ⊢
      obtain ⟨x, rest, exponent, hrest, hx, hscan⟩ := exponent_of_scanExponent
        (t := { t with fraction := some (cs.takeWhile Char.isDigit) }) _ hexponent hend
      refine ⟨'.' :: cs.takeWhile Char.isDigit, x, rest, _, exponent, ?_,
        .some (digits_takeWhile hempty), hx, hscan⟩
      rw [← hrest]
      simp
  · have hsame : scanFraction t (cs.map some) = scanExponent t (cs.map some) := by
      cases cs with
      | nil => rfl
      | cons c cs =>
        have hc : c ≠ '.' := by simpa using hdot
        simp [scanFraction, hc]
    rw [hsame] at hend ⊢
    obtain ⟨x, rest, exponent, hrest, hx, hscan⟩ := exponent_of_scanExponent cs hexponent hend
    exact ⟨[], x, rest, none, exponent, hrest, .none, hx, by rw [hscan, ← hfraction]⟩

/-- A numeral without its sign is scanned as a whole where it can end. -/
theorem scanNumber_of_numeral {whole f x r : List Char} {fraction : Option (List Char)}
    {exponent : Option (Bool × List Char)} (hw : Whole whole) (hf : Fraction f fraction)
    (hx : Exponent x exponent) (hr : EndsNumeral r) (negative : Bool) :
    scanNumber negative ((whole ++ (f ++ (x ++ r))).map some) =
      (⟨negative, whole, fraction, exponent, .complete⟩, r.map some) := by
  have hhead := head_fraction hf fun c hc => (head_exponent hx hr c hc).1
  obtain ⟨htake, hdrop⟩ := takeWhile_digits hw.1 hhead
  have hne : whole.isEmpty = false := by simpa using hw.1.1
  have hzero : ¬ (whole.head? = some '0' ∧ 1 < whole.length) := by
    rintro ⟨hhead, hlong⟩
    simp [hw.2 hhead] at hlong
  simp only [scanNumber, spanDigits_map, htake, hdrop, hne, Bool.false_eq_true, if_false, hzero]
  exact scanFraction_of_fraction hf hx hr _ rfl rfl

theorem numeral_of_scanNumber (cs : List Char) {negative : Bool}
    (hend : (scanNumber negative (cs.map some)).1.ending = .complete) :
    ∃ w rest, cs = w ++ rest ∧ (scanNumber negative (cs.map some)).2 = rest.map some ∧
      Numeral (minusSign negative ++ w) (scanNumber negative (cs.map some)).1 := by
  simp only [scanNumber, spanDigits_map] at hend ⊢
  cases hempty : (cs.takeWhile Char.isDigit).isEmpty with
  | true =>
    simp only [hempty, if_true, stopAt] at hend
    split at hend <;> simp at hend
  | false =>
    simp only [hempty, Bool.false_eq_true, if_false] at hend ⊢
    by_cases hzero : (cs.takeWhile Char.isDigit).head? = some '0' ∧
        1 < (cs.takeWhile Char.isDigit).length
    · simp [hzero] at hend
    · simp only [hzero, if_false] at hend ⊢
      have hwhole : Whole (cs.takeWhile Char.isDigit) := by
        refine ⟨digits_takeWhile hempty, fun hhead => ?_⟩
        obtain ⟨r, hr⟩ := List.head?_eq_some_iff.mp hhead
        rw [hr] at hzero ⊢
        cases r with
        | nil => rfl
        | cons d r => simp at hzero
      obtain ⟨f, x, rest, fraction, exponent, hrest, hf, hx, hscan⟩ :=
        fraction_of_scanFraction _ rfl rfl hend
      rw [hscan]
      refine ⟨cs.takeWhile Char.isDigit ++ (f ++ x), rest, ?_, rfl, .mk negative hwhole hf hx⟩
      rw [List.append_assoc, List.append_assoc, ← hrest, List.takeWhile_append_dropWhile]

/-! The integers among the numerals. -/

namespace NumberToken

theorem value_lt_of_gather {cs : List Char} {n : Nat} (hn : n < UInt64.size)
    (hrest : (gather n cs).2 = []) :
    Nat.ofDigitChars 10 cs n < UInt64.size ∧ (gather n cs).1 = Nat.ofDigitChars 10 cs n := by
  induction cs generalizing n with
  | nil => simpa [gather] using hn
  | cons c cs ih =>
    rw [gather] at hrest ⊢
    have hcons : Nat.ofDigitChars 10 (c :: cs) n =
        Nat.ofDigitChars 10 cs (n * 10 + digitValue c) := by
      rw [Nat.ofDigitChars_cons, Nat.mul_comm, digitValue]
    split at hrest
    next hfit =>
      rw [if_pos hfit, hcons]
      exact ih hfit hrest
    next => simp at hrest

theorem float_ne_int (t : NumberToken) (n : Nat) (e i : Int) : t.float n e ≠ .ok (.int i) := by
  unfold float
  split <;> simp

theorem lt_of_fits {negative : Bool} {n : Nat} (h : Fits negative n) : n < UInt64.size := by
  have hsize : UInt64.size = 0x10000000000000000 := rfl
  cases negative <;> simp only [Fits, if_true, if_false, Bool.false_eq_true] at h <;> omega

theorem fits_iff (negative : Bool) {n : Nat} (hn : n < UInt64.size) :
    ¬(negative = true ∧ (n = 0 ∨ 0x8000000000000000 < n)) ↔ Fits negative n := by
  have hsize : UInt64.size = 0x10000000000000000 := rfl
  cases negative with
  | false =>
    simp only [Fits, Bool.false_eq_true, false_and, not_false_eq_true, if_false, true_iff]
    omega
  | true =>
    simp only [Fits, true_and, if_true]
    omega

theorem gather_fits (negative : Bool) (whole : List Char) :
    (gather 0 whole).2.isEmpty = true ∧
        ¬(negative = true ∧ ((gather 0 whole).1 = 0 ∨ 0x8000000000000000 < (gather 0 whole).1)) ↔
      Fits negative (Nat.ofDigitChars 10 whole 0) := by
  constructor
  · rintro ⟨hempty, hsign⟩
    have hgather : (gather 0 whole).2 = [] := by simpa using hempty
    obtain ⟨hlt, hvalue⟩ := value_lt_of_gather (by decide) hgather
    rw [hvalue] at hsign
    exact (fits_iff negative hlt).mp hsign
  · intro hfits
    have hlt := lt_of_fits hfits
    rw [gather_all whole 0 hlt]
    exact ⟨rfl, (fits_iff negative hlt).mpr hfits⟩

/-- A numeral is an integer if it has neither a fraction nor an exponent and fits. -/
theorem value_eq_int {t : NumberToken} {i : Int} : t.value = .ok (.int i) ↔
    t.fraction = none ∧ t.exponent = none ∧ Fits t.negative (Nat.ofDigitChars 10 t.whole 0) ∧
      i = signed t.negative (Nat.ofDigitChars 10 t.whole 0) := by
  obtain ⟨negative, whole, fraction, exponent, ending⟩ := t
  cases exponent with
  | some x =>
    simp only [value, reduceCtorEq, false_and, and_false, iff_false]
    split
    · exact float_ne_int _ _ _ _
    · split <;> simp
  | none =>
    cases fraction with
    | some ds =>
      simp only [value, Option.isNone_some, Bool.false_eq_true, false_and, and_false, if_false,
        reduceCtorEq, iff_false]
      exact float_ne_int _ _ _ _
    | none =>
      have hgather := gather_fits negative whole
      simp only [value, Option.map_none, Option.getD_none, Option.isNone_none, true_and]
      by_cases hfits : Fits negative (Nat.ofDigitChars 10 whole 0)
      · rw [if_pos (hgather.mpr hfits), gather_all whole 0 (lt_of_fits hfits)]
        simp [hfits, signed, eq_comm]
      · rw [if_neg fun h => hfits (hgather.mp h)]
        simp [hfits, float_ne_int]

end NumberToken

end EventGateway.Json
