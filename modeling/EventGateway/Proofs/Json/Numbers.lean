import EventGateway.Json.Scalar
import EventGateway.Json.Writer

/-! An integer that is written is read back, when it fits 64 bits. -/

namespace EventGateway.Json

/-- What may follow a value inside a text. -/
def Delimited (r : List Glyph) : Prop :=
  ∀ g ∈ r.head?, g = some ',' ∨ g = some ']' ∨ g = some '\x7d'

def numberToken (n : Int) : NumberToken :=
  ⟨decide (n < 0), Nat.toDigits 10 n.natAbs, none, none, .complete⟩

theorem Delimited.not_digit {r : List Glyph} (hr : Delimited r) :
    ∀ g ∈ r.head?, Glyph.isDigit g = false := by
  intro g hg
  rcases hr g hg with rfl | rfl | rfl <;> decide

theorem spanDigits_append {ds : List Char} {r : List Glyph} (hd : ∀ c ∈ ds, c.isDigit = true)
    (hr : ∀ g ∈ r.head?, Glyph.isDigit g = false) : spanDigits (ds.map some ++ r) = (ds, r) := by
  have hall : ∀ g ∈ ds.map some, Glyph.isDigit g = true := by
    intro g hg
    obtain ⟨c, hc, rfl⟩ := List.mem_map.mp hg
    exact hd c hc
  have htake : r.takeWhile Glyph.isDigit = [] := by
    cases r with
    | nil => rfl
    | cons g r => simp [hr g (by simp)]
  have hdrop : r.dropWhile Glyph.isDigit = r := by
    cases r with
    | nil => rfl
    | cons g r => simp [hr g (by simp)]
  simp [spanDigits, List.takeWhile_append_of_pos hall, List.dropWhile_append_of_pos hall, htake,
    hdrop]

theorem isDigit_toDigits (n : Nat) : ∀ c ∈ Nat.toDigits 10 n, c.isDigit = true :=
  fun _ hc => Nat.isDigit_of_mem_toDigits (by omega) (by omega) hc

/-- Only nought is written with a nought in front. -/
theorem head_toDigits {n : Nat} (hn : 0 < n) : (Nat.toDigits 10 n).head? ≠ some '0' := by
  induction n using Nat.strongRecOn with
  | ind n ih =>
    have hdigit : ∀ d < 10, 0 < d → Nat.digitChar d ≠ '0' := by decide
    by_cases hlt : n < 10
    · rw [Nat.toDigits_of_lt_base hlt]
      simpa using hdigit n hlt hn
    · rw [Nat.toDigits_of_base_le (by omega) (by omega), List.head?_append]
      have hhead := ih (n / 10) (by omega) (by omega)
      cases hd : Nat.toDigits 10 (n / 10) with
      | nil => exact absurd hd Nat.toDigits_ne_nil
      | cons c cs => simpa [hd] using hhead

theorem length_toDigits_of_zero {n : Nat} (hn : (Nat.toDigits 10 n).head? = some '0') :
    ¬ 1 < (Nat.toDigits 10 n).length := by
  rcases Nat.eq_zero_or_pos n with rfl | hpos
  · decide
  · exact absurd hn (head_toDigits hpos)

theorem scanNumber_toDigits (negative : Bool) (n : Nat) {r : List Glyph} (hr : Delimited r) :
    scanNumber negative ((Nat.toDigits 10 n).map some ++ r) =
      (⟨negative, Nat.toDigits 10 n, none, none, .complete⟩, r) := by
  have hspan := spanDigits_append (isDigit_toDigits n) hr.not_digit
  have hne : (Nat.toDigits 10 n).isEmpty = false := by simp
  have hzero : ¬ ((Nat.toDigits 10 n).head? = some '0' ∧ 1 < (Nat.toDigits 10 n).length) :=
    fun h => length_toDigits_of_zero h.1 h.2
  simp only [scanNumber, hspan, hne, hzero, Bool.false_eq_true, if_false]
  cases r with
  | nil => rfl
  | cons g r => rcases hr g (by simp) with rfl | rfl | rfl <;> rfl

namespace NumberToken

theorem ofDigitChars_le (cs : List Char) (n : Nat) : n ≤ Nat.ofDigitChars 10 cs n := by
  induction cs generalizing n with
  | nil => simp
  | cons c cs ih =>
    rw [Nat.ofDigitChars_cons]
    have hrest := ih (10 * n + (c.toNat - '0'.toNat))
    omega

theorem gather_all (cs : List Char) (n : Nat) (hfit : Nat.ofDigitChars 10 cs n < UInt64.size) :
    gather n cs = (Nat.ofDigitChars 10 cs n, []) := by
  induction cs generalizing n with
  | nil => simp [gather]
  | cons c cs ih =>
    have hcons : Nat.ofDigitChars 10 (c :: cs) n =
        Nat.ofDigitChars 10 cs (n * 10 + digitValue c) := by
      rw [Nat.ofDigitChars_cons, Nat.mul_comm, digitValue]
    rw [hcons] at hfit ⊢
    have hle := ofDigitChars_le cs (n * 10 + digitValue c)
    have hstep : n * 10 + digitValue c < UInt64.size := Nat.lt_of_le_of_lt hle hfit
    rw [gather, if_pos hstep, ih _ hfit]

theorem gather_toDigits {n : Nat} (hn : n < UInt64.size) :
    gather 0 (Nat.toDigits 10 n) = (n, []) := by
  have hall := gather_all (Nat.toDigits 10 n) 0 (by simpa using hn)
  simpa using hall

theorem read_numberToken {n : Int} (hlow : -0x8000000000000000 ≤ n)
    (hhigh : n < 0x10000000000000000) : (numberToken n).read = .ok (.int n) := by
  have hfit : n.natAbs < UInt64.size := by
    simp only [UInt64.size]
    omega
  have hsign : ¬ (n < 0 ∧ (n.natAbs = 0 ∨ 0x8000000000000000 < n.natAbs)) := by omega
  have hvalue : (if n < 0 then -(n.natAbs : Int) else (n.natAbs : Int)) = n := by
    split <;> omega
  simp only [read, numberToken, value, gather_toDigits hfit, Option.map_none, Option.getD_none,
    decide_eq_true_eq]
  rw [if_pos ⟨rfl, rfl, hsign⟩, hvalue]

end NumberToken

end EventGateway.Json
