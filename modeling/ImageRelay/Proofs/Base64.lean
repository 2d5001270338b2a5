import ImageRelay.Base64

/-!
# Reading base64 back

`encode_eq_append`: a written text is characters of the alphabet and then padding.
`decode?_encode`: what `encode` writes is read back, for every alphabet whose characters are told
apart (`Alphabet.Proper`). The inductions are on groups of three bytes.
-/

set_option autoImplicit false

namespace ImageRelay.Base64

/-- Every value is read back from its character, and the padding is no character of a value. -/
structure Alphabet.Proper (a : Alphabet) : Prop where
  value?_char : ∀ n < 64, a.value? (a.char n) = some n
  char_ne_padding : ∀ n < 64, a.char n ≠ '='

theorem proper_standard : standard.Proper := ⟨by decide, by decide⟩

theorem proper_urlSafe : urlSafe.Proper := ⟨by decide, by decide⟩

/-- A written text is characters of the alphabet and then padding up to a whole group of four. -/
theorem encode_eq_append (a : Alphabet) : ∀ bytes : List UInt8, ∃ body padding,
    encode a bytes = body ++ List.replicate padding '=' ∧ padding ≤ 2 ∧
      (body.length + padding) % 4 = 0 ∧ ∀ c ∈ body, ∃ n < 64, c = a.char n
  | [] => ⟨[], 0, rfl, by decide, rfl, by simp⟩
  | [x] => by
    have hx := x.toNat_lt
    refine ⟨[a.char (x.toNat / 4), a.char (x.toNat % 4 * 16)], 2, rfl, by decide, by simp, ?_⟩
    simp only [List.mem_cons, List.not_mem_nil, or_false]
    rintro c (rfl | rfl)
    · exact ⟨_, by omega, rfl⟩
    · exact ⟨_, by omega, rfl⟩
  | [x, y] => by
    have hx := x.toNat_lt
    have hy := y.toNat_lt
    refine ⟨[a.char ((x.toNat * 256 + y.toNat) / 1024), a.char ((x.toNat * 256 + y.toNat) / 16 % 64),
      a.char ((x.toNat * 256 + y.toNat) % 16 * 4)], 1, rfl, by decide, by simp, ?_⟩
    simp only [List.mem_cons, List.not_mem_nil, or_false]
    rintro c (rfl | rfl | rfl)
    · exact ⟨_, by omega, rfl⟩
    · exact ⟨_, by omega, rfl⟩
    · exact ⟨_, by omega, rfl⟩
  | x :: y :: z :: r => by
    have hx := x.toNat_lt
    have hy := y.toNat_lt
    have hz := z.toNat_lt
    obtain ⟨body, padding, heq, hpad, hlen, hbody⟩ := encode_eq_append a r
    rw [encode, heq]
    refine ⟨_ :: _ :: _ :: _ :: body, padding, rfl, hpad, ?_, ?_⟩
    · simp only [List.length_cons]
      omega
    · simp only [List.mem_cons]
      rintro c (rfl | rfl | rfl | rfl | hc)
      · exact ⟨_, by omega, rfl⟩
      · exact ⟨_, by omega, rfl⟩
      · exact ⟨_, by omega, rfl⟩
      · exact ⟨_, by omega, rfl⟩
      · exact hbody c hc

theorem mem_encode {a : Alphabet} {c : Char} {bytes : List UInt8} (h : c ∈ encode a bytes) :
    c = '=' ∨ ∃ n < 64, c = a.char n := by
  obtain ⟨body, padding, heq, -, -, hbody⟩ := encode_eq_append a bytes
  rw [heq, List.mem_append] at h
  rcases h with h | h
  · exact .inr (hbody c h)
  · exact .inl (List.eq_of_mem_replicate h)

theorem ofNat_eq {n : Nat} {x : UInt8} (h : n % 256 = x.toNat) : UInt8.ofNat n = x := by
  rw [← UInt8.toNat_inj, UInt8.toNat_ofNat', h]

theorem decode?_encode {a : Alphabet} (h : a.Proper) :
    ∀ bytes : List UInt8, decode? a (encode a bytes) = some bytes
  | [] => rfl
  | [x] => by
    have hx := x.toNat_lt
    have hlast : (x.toNat / 4 * 64 + x.toNat % 4 * 16) / 16 = x.toNat := by omega
    rw [encode, decode?, h.value?_char _ (by omega), h.value?_char _ (by omega)]
    simp only [Option.bind_eq_bind, Option.bind_some]
    rw [if_pos (by omega), hlast, UInt8.ofNat_toNat]
  | [x, y] => by
    have hx := x.toNat_lt
    have hy := y.toNat_lt
    rw [encode, decode?.eq_3 _ _ _ _ (h.char_ne_padding _ (by omega)),
      h.value?_char _ (by omega), h.value?_char _ (by omega), h.value?_char _ (by omega)]
    simp only [Option.bind_eq_bind, Option.bind_some]
    rw [if_pos (by omega), ofNat_eq (x := x) (by omega), ofNat_eq (x := y) (by omega)]
  | x :: y :: z :: r => by
    have hx := x.toNat_lt
    have hy := y.toNat_lt
    have hz := z.toNat_lt
    have hpad := h.char_ne_padding (((x.toNat * 256 + y.toNat) * 256 + z.toNat) % 64) (by omega)
    rw [encode, decode?.eq_4 _ _ _ _ _ _ (fun _ hf _ => hpad hf) (fun hf _ => hpad hf),
      h.value?_char _ (by omega), h.value?_char _ (by omega), h.value?_char _ (by omega),
      h.value?_char _ (by omega), decode?_encode h r]
    simp only [Option.bind_eq_bind, Option.bind_some]
    rw [ofNat_eq (x := x) (by omega), ofNat_eq (x := y) (by omega), ofNat_eq (x := z) (by omega)]

end ImageRelay.Base64
