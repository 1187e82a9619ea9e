import EventGateway.Secret.Base64

/-! Octets that are written in base64 are read back. -/

namespace EventGateway.Secret.Base64

theorem value?_digit {n : Nat} (hn : n < 64) : value? (digit n) = some n := by
  have hall : ∀ i : Fin 64, value? (digit i) = some i.val := by decide +kernel
  exact hall ⟨n, hn⟩

theorem digit_mem (n : Nat) : digit n ∈ alphabet := by
  unfold digit
  rw [List.getD_eq_getElem?_getD]
  cases hn : alphabet[n]? with
  | none => decide
  | some c => exact List.mem_of_getElem? hn

theorem toUInt8_eq {n : Nat} {a : UInt8} (h : n = a.toNat) : n.toUInt8 = a := by
  rw [h]
  exact UInt8.ofNat_toNat

theorem decodeFour_digits (a b c : UInt8) :
    let n := a.toNat * 65536 + b.toNat * 256 + c.toNat
    decodeFour (digit (n / 262144)) (digit (n / 4096 % 64)) (digit (n / 64 % 64)) (digit (n % 64)) =
      some [a, b, c] := by
  intro n
  have ha := a.toNat_lt
  have hb := b.toNat_lt
  have hc := c.toNat_lt
  have hfirst : n / 262144 < 64 := by omega
  have hsum : n / 262144 * 262144 + n / 4096 % 64 * 4096 + n / 64 % 64 * 64 + n % 64 = n := by omega
  simp only [decodeFour, value?_digit hfirst, value?_digit (Nat.mod_lt _ (Nat.zero_lt_succ 63)),
    Option.bind_eq_bind, Option.bind_some, hsum]
  rw [toUInt8_eq (show n / 65536 = a.toNat by omega),
    toUInt8_eq (show n / 256 % 256 = b.toNat by omega), toUInt8_eq (show n % 256 = c.toNat by omega)]
  rfl

theorem decodeThree_digits (a b : UInt8) :
    let n := a.toNat * 256 + b.toNat
    decodeThree (digit (n / 1024)) (digit (n / 16 % 64)) (digit (n % 16 * 4)) = some [a, b] := by
  intro n
  have ha := a.toNat_lt
  have hb := b.toNat_lt
  have hfirst : n / 1024 < 64 := by omega
  have hlast : n % 16 * 4 < 64 := by omega
  have hsum : n / 1024 * 4096 + n / 16 % 64 * 64 + n % 16 * 4 = n * 4 := by omega
  have hzero : n * 4 % 4 = 0 := by omega
  simp only [decodeThree, value?_digit hfirst, value?_digit (Nat.mod_lt _ (Nat.zero_lt_succ 63)),
    value?_digit hlast, Option.bind_eq_bind, Option.bind_some, hsum, hzero, if_true]
  rw [toUInt8_eq (show n * 4 / 1024 = a.toNat by omega),
    toUInt8_eq (show n * 4 / 4 % 256 = b.toNat by omega)]
  rfl

theorem decodeTwo_digits (a : UInt8) :
    decodeTwo (digit (a.toNat / 4)) (digit (a.toNat % 4 * 16)) = some [a] := by
  have ha := a.toNat_lt
  have hfirst : a.toNat / 4 < 64 := by omega
  have hlast : a.toNat % 4 * 16 < 64 := by omega
  have hsum : a.toNat / 4 * 64 + a.toNat % 4 * 16 = a.toNat * 16 := by omega
  have hzero : a.toNat * 16 % 16 = 0 := by omega
  simp only [decodeTwo, value?_digit hfirst, value?_digit hlast, Option.bind_eq_bind,
    Option.bind_some, hsum, hzero, if_true]
  rw [toUInt8_eq (show a.toNat * 16 / 16 = a.toNat by omega)]
  rfl

theorem decode_encode (bytes : List UInt8) : decode (encode bytes) = some bytes := by
  fun_induction encode bytes with
  | case1 a b c r n ih =>
    rw [decode, decodeFour_digits, ih]
    rfl
  | case2 a b n => exact decodeThree_digits a b
  | case3 a => exact decodeTwo_digits a
  | case4 => rfl

theorem mem_encode {c : Char} {bytes : List UInt8} (h : c ∈ encode bytes) : c ∈ alphabet := by
  fun_induction encode bytes with
  | case1 a b d r n ih =>
    simp only [List.mem_cons] at h
    rcases h with rfl | rfl | rfl | rfl | h
    · exact digit_mem _
    · exact digit_mem _
    · exact digit_mem _
    · exact digit_mem _
    · exact ih h
  | case2 a b n =>
    simp only [List.mem_cons, List.not_mem_nil, or_false] at h
    rcases h with rfl | rfl | rfl
    · exact digit_mem _
    · exact digit_mem _
    · exact digit_mem _
  | case3 a =>
    simp only [List.mem_cons, List.not_mem_nil, or_false] at h
    rcases h with rfl | rfl
    · exact digit_mem _
    · exact digit_mem _
  | case4 => exact absurd h List.not_mem_nil

theorem length_encode (bytes : List UInt8) : (encode bytes).length = (4 * bytes.length + 2) / 3 := by
  fun_induction encode bytes with
  | case1 a b c r n ih =>
    simp only [List.length_cons, ih]
    omega
  | case2 a b n => simp
  | case3 a => simp
  | case4 => rfl

end EventGateway.Secret.Base64
