import EventGateway.Json.Scalar
import EventGateway.Json.Writer

/-! A string that is written is read back, whatever its characters are. -/

namespace EventGateway.Json

/-- What the scanner makes of a character that was written. -/
def piece (c : Char) : Piece :=
  if c < ' ' ∧ c ∉ ['\x08', '\x0c', '\n', '\r', '\t'] then .unit c.toNat else .char c

def stringToken (s : String) : StringToken := ⟨s.toList.map piece, .closed⟩

theorem hexDigit_digitChar {d : Nat} (hd : d < 16) : hexDigit? (Nat.digitChar d) = some d := by
  decide +revert

theorem hexUnit_control {n : Nat} (hn : n < 32) :
    hexUnit? '0' '0' (hexChar (n / 16)) (hexChar (n % 16)) = some n := by
  have hhigh : hexDigit? (hexChar (n / 16)) = some (n / 16) := hexDigit_digitChar (by omega)
  have hlow : hexDigit? (hexChar (n % 16)) = some (n % 16) := hexDigit_digitChar (by omega)
  have hzero : hexDigit? '0' = some 0 := by decide
  simp only [hexUnit?, hhigh, hlow, hzero, Option.some.injEq]
  omega

theorem toNat_lt_of_control {c : Char} (hc : c < ' ') : c.toNat < 32 := by
  simpa [Char.lt_def, UInt32.lt_iff_toNat_lt] using hc

theorem scanString_quote (r : List Glyph) : scanString (some '"' :: r) = (⟨[], .closed⟩, r) := by
  rw [scanString.eq_def]
  simp

theorem scanString_plain {c : Char} (hq : c ≠ '"') (hb : c ≠ '\\') (hc : ¬ c < ' ')
    (r : List Glyph) : scanString (some c :: r) = StringToken.push (.char c) (scanString r) := by
  rw [scanString.eq_def]
  simp [hq, hb, hc]

theorem scanString_letter {e m : Char} (hu : e ≠ 'u') (hm : letterMeaning? e = some m)
    (r : List Glyph) :
    scanString (some '\\' :: some e :: r) = StringToken.push (.char m) (scanString r) := by
  rw [scanString.eq_def]
  simp [hu, hm]

theorem scanString_unit {a b c d : Char} {n : Nat} (hn : hexUnit? a b c d = some n)
    (r : List Glyph) :
    scanString (some '\\' :: some 'u' :: some a :: some b :: some c :: some d :: r) =
      StringToken.push (.unit n) (scanString r) := by
  rw [scanString.eq_def]
  simp [hn]

theorem scanString_escaped {c : Char} (hc : c ∈ ['"', '\\', '\x08', '\x0c', '\n', '\r', '\t'])
    (r : List Glyph) :
    scanString ((escapeChar c).map some ++ r) = StringToken.push (piece c) (scanString r) := by
  simp only [List.mem_cons, List.not_mem_nil, or_false] at hc
  rcases hc with rfl | rfl | rfl | rfl | rfl | rfl | rfl <;>
    exact scanString_letter (by decide) (by decide) r

/-- Every character is one piece of the string that is read. -/
theorem scanString_escapeChar (c : Char) (r : List Glyph) :
    scanString ((escapeChar c).map some ++ r) = StringToken.push (piece c) (scanString r) := by
  by_cases hletter : c ∈ ['"', '\\', '\x08', '\x0c', '\n', '\r', '\t']
  · exact scanString_escaped hletter r
  · simp only [List.mem_cons, List.not_mem_nil, or_false, not_or] at hletter
    obtain ⟨hq, hb, hbs, hff, hnl, hcr, htab⟩ := hletter
    simp only [escapeChar, hq, hb, hbs, hff, hnl, hcr, htab, if_false]
    by_cases hc : c < ' '
    · have hp : piece c = .unit c.toNat := if_pos ⟨hc, by simp [hbs, hff, hnl, hcr, htab]⟩
      rw [if_pos hc, hp]
      exact scanString_unit (hexUnit_control (toNat_lt_of_control hc)) r
    · have hp : piece c = .char c := if_neg fun h => hc h.1
      rw [if_neg hc, hp]
      exact scanString_plain hq hb hc r

theorem scanString_write (cs : List Char) (r : List Glyph) :
    scanString ((cs.flatMap escapeChar).map some ++ some '"' :: r) =
      (⟨cs.map piece, .closed⟩, r) := by
  induction cs with
  | nil => exact scanString_quote r
  | cons c cs ih =>
    rw [List.flatMap_cons, List.map_append, List.append_assoc, scanString_escapeChar, ih]
    rfl

namespace StringToken

theorem join_piece (c : Char) (ending : StringEnd) (ps : List Piece) :
    join ending (piece c :: ps) = (join ending ps).map (some c :: ·) := by
  unfold piece
  split
  next hc =>
    have hn := toNat_lt_of_control hc.1
    have htrail : isTrailing c.toNat = false := by
      simp only [isTrailing, decide_eq_false_iff_not]
      omega
    have hlead : isLeading c.toNat = false := by
      simp only [isLeading, decide_eq_false_iff_not]
      omega
    rw [join.eq_def]
    simp [htrail, hlead]
  next => rfl

theorem join_pieces (cs : List Char) : join .closed (cs.map piece) = .ok (cs.map some) := by
  induction cs with
  | nil => rfl
  | cons c cs ih =>
    rw [List.map_cons, join_piece, ih]
    rfl

@[simp] theorem read_stringToken (s : String) : (stringToken s).read = .ok s := by
  simp [read, stringToken, join_pieces]

end StringToken

end EventGateway.Json
