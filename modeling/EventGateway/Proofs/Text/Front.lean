import EventGateway.Proofs.Json.Numbers

/-! What stands at the front of a text, and numerals there. -/

namespace EventGateway.Text

/-- The text is at its end, or goes on with something else. -/
def Stops (p : Char → Bool) (r : List Char) : Prop := ∀ c ∈ r.head?, p c = false

variable {p : Char → Bool} {c : Char} {s r : List Char}

theorem stops_nil (p : Char → Bool) : Stops p [] := by simp [Stops]

theorem stops_cons (hc : p c = false) (r : List Char) : Stops p (c :: r) := by simpa [Stops] using hc

theorem Stops.takeWhile (hr : Stops p r) : r.takeWhile p = [] := by
  cases r with
  | nil => rfl
  | cons c r => simp [hr c (by simp)]

theorem Stops.dropWhile (hr : Stops p r) : r.dropWhile p = r := by
  cases r with
  | nil => rfl
  | cons c r => simp [hr c (by simp)]

theorem takeWhile_front (hs : ∀ c ∈ s, p c = true) (hr : Stops p r) : (s ++ r).takeWhile p = s := by
  rw [List.takeWhile_append_of_pos hs, hr.takeWhile, List.append_nil]

theorem dropWhile_front (hs : ∀ c ∈ s, p c = true) (hr : Stops p r) : (s ++ r).dropWhile p = r := by
  rw [List.dropWhile_append_of_pos hs, hr.dropWhile]

/-- What cuts at a separator, one element after the other. -/
theorem eq_splitOn {α : Type} [DecidableEq α] {separator : α} {cut : List α → List (List α)}
    (hnil : cut [] = [[]]) (hends : ∀ r, cut (separator :: r) = [] :: cut r)
    (hgrows : ∀ c r p ps, c ≠ separator → cut r = p :: ps → cut (c :: r) = (c :: p) :: ps)
    (text : List α) : cut text = text.splitOn separator := by
  induction text with
  | nil => exact hnil
  | cons c r ih =>
    rw [List.splitOn_eq_splitOnP] at ih
    rw [List.splitOn_eq_splitOnP, List.splitOnP_cons_eq_if_modifyHead]
    by_cases hc : c = separator
    · rw [hc, hends, ih, if_pos (beq_self_eq_true separator)]
    · obtain ⟨p, ps, hsplit⟩ := List.exists_cons_of_ne_nil (List.splitOnP_ne_nil (· == separator) r)
      rw [hgrows c r p ps hc (ih.trans hsplit), if_neg (mt eq_of_beq hc), hsplit,
        List.modifyHead_cons]

/-- All digits of a number have what the digits of its base have. -/
theorem forall_toDigits {b : Nat} {P : Char → Prop} (hb : 1 < b)
    (hP : ∀ d < b, P (Nat.digitChar d)) (n : Nat) : ∀ c ∈ Nat.toDigits b n, P c := by
  induction n using Nat.strongRecOn with
  | ind n ih =>
    intro c hc
    by_cases hn : n < b
    · rw [Nat.toDigits_of_lt_base hn, List.mem_singleton] at hc
      rw [hc]
      exact hP n hn
    · rw [Nat.toDigits_of_base_le hb (by omega)] at hc
      rcases List.mem_append.mp hc with hc | hc
      · exact ih (n / b) (Nat.div_lt_self (by omega) hb) c hc
      · rw [List.mem_singleton.mp hc]
        exact hP _ (Nat.mod_lt n (by omega))

/-- A reader of digits, from the first on, has the number back that they were made of. -/
theorem foldl_toDigits {b : Nat} {f : Nat → Char → Nat} (hb : 1 < b)
    (hf : ∀ n, ∀ d < b, f n (Nat.digitChar d) = n * b + d) (n : Nat) :
    (Nat.toDigits b n).foldl f 0 = n := by
  induction n using Nat.strongRecOn with
  | ind n ih =>
    by_cases hn : n < b
    · rw [Nat.toDigits_of_lt_base hn]
      simp [hf 0 n hn]
    · rw [Nat.toDigits_of_base_le hb (by omega), List.foldl_append,
        ih (n / b) (Nat.div_lt_self (by omega) hb)]
      have hlast := hf (n / b) (n % b) (Nat.mod_lt n (by omega))
      rw [List.foldl_cons, List.foldl_nil, hlast, Nat.div_add_mod']

end EventGateway.Text
