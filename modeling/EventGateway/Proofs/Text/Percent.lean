import EventGateway.Text.Form

/-! Octets that are written with percent signs are read back as they were, whichever of them stand
for themselves, as long as the percent sign does not. -/

namespace EventGateway.Text

/-- The text of octets that are characters each. -/
def ofOctets (bytes : List UInt8) : String := String.ofList (bytes.map fun b => Char.ofNat b.toNat)

theorem toUtf8_ofList (cs : List Char) :
    toUtf8 (String.ofList cs) = cs.flatMap String.utf8EncodeChar := by
  rw [toUtf8, String.toByteArray_ofList, List.utf8Encode]
  simp

theorem toNat_octet {b : UInt8} (hb : b < 128) : (Char.ofNat b.toNat).toNat = b.toNat := by
  have hlt : b.toNat < 128 := hb
  have hvalid : b.toNat.isValidChar := .inl (by omega)
  rw [Char.ofNat, dif_pos hvalid]
  rfl

theorem utf8EncodeChar_octet {b : UInt8} (hb : b < 128) :
    String.utf8EncodeChar (Char.ofNat b.toNat) = [b] := by
  have hlt : b.toNat < 128 := hb
  have hval : (Char.ofNat b.toNat).val.toNat = b.toNat := toNat_octet hb
  have hsize : (Char.ofNat b.toNat).utf8Size = 1 := by
    rw [Char.utf8Size_eq_one_iff, UInt32.le_iff_toNat_le, hval]
    exact Nat.le_of_lt_succ hlt
  rw [String.utf8EncodeChar_eq_singleton hsize, List.singleton_inj, ← UInt8.toNat_inj,
    UInt32.toNat_toUInt8, hval]
  omega

theorem toUtf8_ofOctets {bytes : List UInt8} (h : ∀ b ∈ bytes, b < 128) :
    toUtf8 (ofOctets bytes) = bytes := by
  rw [ofOctets, toUtf8_ofList]
  induction bytes with
  | nil => rfl
  | cons b bytes ih =>
    obtain ⟨hb, hrest⟩ := List.forall_mem_cons.mp h
    rw [List.map_cons, List.flatMap_cons, utf8EncodeChar_octet hb, ih hrest]
    rfl

theorem mem_of_mem_ofOctets {bytes : List UInt8} (h : ∀ b ∈ bytes, b < 128) {c : Char}
    (hc : c ∈ (ofOctets bytes).toList) : octet c ∈ bytes := by
  rw [ofOctets, String.toList_ofList] at hc
  obtain ⟨b, hb, rfl⟩ := List.mem_map.mp hc
  rwa [octet, toNat_octet (h b hb), UInt8.ofNat_toNat]

/-- There are sixteen digits. -/
theorem forall_upperHexDigit {P : UInt8 → UInt8 → Prop}
    (h : ∀ k < 16, P (UInt8.ofNat k) (upperHexDigit (UInt8.ofNat k))) {n : UInt8} (hn : n < 16) :
    P n (upperHexDigit n) := by
  have hk := h n.toNat hn
  rwa [UInt8.ofNat_toNat] at hk

theorem div_lt_sixteen (b : UInt8) : b / 16 < 16 := by
  have hb : b.toNat < 256 := b.toNat_lt
  show b.toNat / 16 < 16
  omega

theorem mod_lt_sixteen (b : UInt8) : b % 16 < 16 := by
  show b.toNat % 16 < 16
  omega

theorem hexOctet?_upper (b : UInt8) :
    hexOctet? (upperHexDigit (b / 16)) (upperHexDigit (b % 16)) = some b := by
  have hdigit {n : UInt8} (hn : n < 16) : hexDigit? (upperHexDigit n) = some n :=
    forall_upperHexDigit (P := fun n d => hexDigit? d = some n) (by decide) hn
  have hsum : b / 16 * 16 + b % 16 = b := by
    have hb : b.toNat < 256 := b.toNat_lt
    apply UInt8.toNat_inj.mp
    show ((b.toNat / 16 * 16) % 256 + b.toNat % 16) % 256 = b.toNat
    omega
  simp only [hexOctet?, hdigit (div_lt_sixteen b), hdigit (mod_lt_sixteen b), hsum]

theorem percentDecode_cons {b : UInt8} (hb : b ≠ octet '%') (r : List UInt8) :
    percentDecode (b :: r) = b :: percentDecode r := by
  cases r with
  | nil => rfl
  | cons x r =>
    cases r with
    | nil => rfl
    | cons y r =>
      rw [percentDecode, escape?, if_neg hb]

theorem percentDecode_percentOctet (b : UInt8) (r : List UInt8) :
    percentDecode (percentOctet b ++ r) = b :: percentDecode r := by
  show percentDecode (octet '%' :: upperHexDigit (b / 16) :: upperHexDigit (b % 16) :: r) = _
  rw [percentDecode, escape?, if_pos rfl, hexOctet?_upper]

variable {plain : UInt8 → Bool}

theorem percentDecode_percentEncode (hplain : plain (octet '%') = false) (bytes : List UInt8) :
    percentDecode (percentEncode plain bytes) = bytes := by
  induction bytes with
  | nil => rfl
  | cons b bytes ih =>
    rw [percentEncode, List.flatMap_cons]
    show percentDecode (_ ++ percentEncode plain bytes) = _
    split
    next hb =>
      have hne : b ≠ octet '%' := by
        rintro rfl
        exact Bool.false_ne_true (hplain.symm.trans hb)
      rw [List.singleton_append, percentDecode_cons hne, ih]
    next => rw [percentDecode_percentOctet, ih]

/-- What is written is made of octets that stand for themselves, percent signs and digits. -/
theorem forall_percentEncode {P : UInt8 → Prop} (hplain : ∀ b, plain b = true → P b)
    (hpercent : P (octet '%')) (hdigits : ∀ k < 16, P (upperHexDigit (UInt8.ofNat k)))
    (bytes : List UInt8) : ∀ b ∈ percentEncode plain bytes, P b := by
  intro x hx
  obtain ⟨b, _, hx⟩ := List.mem_flatMap.mp hx
  have hdigit {n : UInt8} (hn : n < 16) : P (upperHexDigit n) :=
    forall_upperHexDigit (P := fun _ d => P d) hdigits hn
  by_cases hb : plain b = true
  · rw [if_pos hb, List.mem_singleton] at hx
    rw [hx]
    exact hplain b hb
  · rw [if_neg hb, percentOctet] at hx
    simp only [List.mem_cons, List.not_mem_nil, or_false] at hx
    rcases hx with rfl | rfl | rfl
    · exact hpercent
    · exact hdigit (div_lt_sixteen b)
    · exact hdigit (mod_lt_sixteen b)

theorem percentEncode_lt (hascii : ∀ b, plain b = true → b < 128) (bytes : List UInt8) :
    ∀ b ∈ percentEncode plain bytes, b < 128 :=
  forall_percentEncode hascii (by decide) (by decide) bytes

theorem percentText?_encoded (hascii : ∀ b, plain b = true → b < 128)
    (hplain : plain (octet '%') = false) (s : String) :
    percentText? (ofOctets (percentEncode plain (toUtf8 s))) = some s := by
  rw [percentText?, toUtf8_ofOctets (percentEncode_lt hascii _), percentDecode_percentEncode hplain,
    ofUtf8?_toUtf8]

end EventGateway.Text
