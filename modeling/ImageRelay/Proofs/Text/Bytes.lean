import ImageRelay.Text.Utf8

/-!
# The bytes of texts

* `encode_eq`: the bytes of a text are those of its characters, one after the other.
* `encode_lt_encode_iff`: texts are ordered as their bytes are.
-/

set_option autoImplicit false

namespace ImageRelay.Text.Utf8

theorem encode_ofList (cs : List Char) :
    encode (String.ofList cs) = cs.flatMap String.utf8EncodeChar := by
  rw [encode, String.toUTF8_eq_toByteArray, String.toByteArray_ofList, List.utf8Encode]
  simp

theorem encode_eq (s : String) : encode s = s.toList.flatMap String.utf8EncodeChar := by
  rw [← encode_ofList, String.ofList_toList]

theorem encode_append (s t : String) : encode (s ++ t) = encode s ++ encode t := by
  rw [encode_eq, encode_eq, encode_eq, String.toList_append, List.flatMap_append]

/-! ## Order -/

theorem ofNat_lt_ofNat_iff {n m : Nat} (hn : n < 256) (hm : m < 256) :
    UInt8.ofNat n < UInt8.ofNat m ↔ n < m := by
  rw [UInt8.lt_ofNat_iff hm, UInt8.toNat_ofNat', Nat.mod_eq_of_lt hn]

theorem ofNat_eq_ofNat_iff {n m : Nat} (hn : n < 256) (hm : m < 256) :
    UInt8.ofNat n = UInt8.ofNat m ↔ n = m := by
  rw [← UInt8.toNat_inj, UInt8.toNat_ofNat', UInt8.toNat_ofNat', Nat.mod_eq_of_lt hn,
    Nat.mod_eq_of_lt hm]

/-- A character below 0x80 has one byte, below 0x800 two, below 0x10000 three, and else four. -/
theorem bytes_cases (c : Char) :
    (c.toNat < 0x80 ∧ String.utf8EncodeChar c = [UInt8.ofNat c.toNat]) ∨
    (0x80 ≤ c.toNat ∧ c.toNat < 0x800 ∧ String.utf8EncodeChar c =
      [UInt8.ofNat (c.toNat / 64 + 192), UInt8.ofNat (c.toNat % 64 + 128)]) ∨
    (0x800 ≤ c.toNat ∧ c.toNat < 0x10000 ∧ String.utf8EncodeChar c =
      [UInt8.ofNat (c.toNat / 4096 + 224), UInt8.ofNat (c.toNat / 64 % 64 + 128),
        UInt8.ofNat (c.toNat % 64 + 128)]) ∨
    (0x10000 ≤ c.toNat ∧ c.toNat < 0x110000 ∧ String.utf8EncodeChar c =
      [UInt8.ofNat (c.toNat / 262144 + 240), UInt8.ofNat (c.toNat / 4096 % 64 + 128),
        UInt8.ofNat (c.toNat / 64 % 64 + 128), UInt8.ofNat (c.toNat % 64 + 128)]) := by
  have hv : c.toNat < 0x110000 := by
    rcases c.valid with h | h
    · exact Nat.lt_trans h (by decide)
    · exact h.2
  have hc : c.val.toNat = c.toNat := rfl
  unfold String.utf8EncodeChar
  simp only [hc]
  split
  · exact .inl ⟨by omega, rfl⟩
  · refine .inr ?_
    split
    · rw [Nat.mod_eq_of_lt (b := 32) (by omega)]
      exact .inl ⟨by omega, by omega, rfl⟩
    · refine .inr ?_
      split
      · rw [Nat.mod_eq_of_lt (b := 16) (by omega)]
        exact .inl ⟨by omega, by omega, rfl⟩
      · rw [Nat.mod_eq_of_lt (b := 8) (by omega)]
        exact .inr ⟨by omega, hv, rfl⟩

/-- The byte of a character below 0x80 is its code; all other bytes are at least 0x80. -/
theorem toNat_of_mem_bytes {c : Char} {b : UInt8} (h : b ∈ String.utf8EncodeChar c) :
    b.toNat = c.toNat ∨ 0x80 ≤ b.toNat := by
  rcases bytes_cases c with ⟨_, hc⟩ | ⟨_, _, hc⟩ | ⟨_, _, hc⟩ | ⟨_, _, hc⟩ <;>
    simp only [hc, List.mem_cons, List.not_mem_nil, or_false] at h
  · rw [h, UInt8.toNat_ofNat']
    exact .inl (Nat.mod_eq_of_lt (by omega))
  · rcases h with rfl | rfl <;> exact .inr (by rw [UInt8.toNat_ofNat']; omega)
  · rcases h with rfl | rfl | rfl <;> exact .inr (by rw [UInt8.toNat_ofNat']; omega)
  · rcases h with rfl | rfl | rfl | rfl <;> exact .inr (by rw [UInt8.toNat_ofNat']; omega)

/-- Of two characters the lesser has the lesser bytes, whatever follows them. -/
theorem bytes_lt_bytes {c d : Char} (h : c < d) (xs ys : List UInt8) :
    String.utf8EncodeChar c ++ xs < String.utf8EncodeChar d ++ ys := by
  have hlt : c.toNat < d.toNat := h
  have hdigit (n : Nat) : n / 64 / 64 = n / 4096 ∧ n / 4096 / 64 = n / 262144 :=
    ⟨Nat.div_div_eq_div_mul .., Nat.div_div_eq_div_mul ..⟩
  have hc' := hdigit c.toNat
  have hd' := hdigit d.toNat
  -- more bytes begin with a greater one, as many are the digits of the code in base 64
  rcases bytes_cases c with ⟨_, hc⟩ | ⟨_, _, hc⟩ | ⟨_, _, hc⟩ | ⟨_, _, hc⟩ <;>
    rcases bytes_cases d with ⟨_, hd⟩ | ⟨_, _, hd⟩ | ⟨_, _, hd⟩ | ⟨_, _, hd⟩ <;>
    rw [hc, hd] <;>
    simp (disch := omega) only [List.cons_append, List.nil_append, List.cons_lt_cons_iff,
      ofNat_lt_ofNat_iff, ofNat_eq_ofNat_iff] <;>
    omega

theorem flatMap_bytes_lt {cs ds : List Char} (h : cs < ds) :
    cs.flatMap String.utf8EncodeChar < ds.flatMap String.utf8EncodeChar := by
  induction h with
  | @nil d ds =>
    rw [List.flatMap_cons, List.flatMap_nil]
    cases hd : String.utf8EncodeChar d with
    | nil => exact absurd hd String.utf8EncodeChar_ne_nil
    | cons b bs => exact List.nil_lt_cons _ _
  | rel h => exact bytes_lt_bytes h _ _
  | cons _ ih => exact List.append_left_lt ih

theorem encode_lt_encode_iff {s t : String} : encode s < encode t ↔ s < t := by
  constructor
  · intro h
    rw [← String.not_le]
    intro hle
    rcases Decidable.em (t = s) with rfl | hne
    · exact List.lt_irrefl _ h
    · have hlt : t < s := String.not_le.1 fun h' => hne (String.le_antisymm hle h')
      rw [encode_eq, encode_eq] at h
      exact List.lt_asymm h (flatMap_bytes_lt hlt)
  · intro h
    rw [encode_eq, encode_eq]
    exact flatMap_bytes_lt h

end ImageRelay.Text.Utf8
