import ImageRelay.Decimal.Binary64
import ImageRelay.Proofs.Text.Digits

/-!
# The digits of shortest decimals

Zero rounds to no other magnitude (`roundsFrom_zero`), so the shortest decimal of a magnitude is a
number whose digits do not begin with zero (`shortest_digits`).
-/

set_option autoImplicit false

namespace ImageRelay.Decimal.Magnitude

/-! ## Zero -/

theorem ratio_ofNat (m n : Nat) : ratio ⟨m, (n : Int)⟩ = (m * Nat.pow 2 n, 1) := by
  rw [ratio, if_pos (Int.natCast_nonneg n), Int.toNat_natCast]

theorem ratio_negSucc (m n : Nat) : ratio ⟨m, Int.negSucc n⟩ = (m, Nat.pow 2 (n + 1)) := by
  rw [ratio, if_neg (Int.not_le.2 (Int.negSucc_lt_zero n))]
  rfl

/-- Half of the last place of a magnitude is less than the magnitude. -/
theorem half_place_lt {x : Magnitude} (h : x.mantissa ≠ 0) {k : Nat} (hk : k ≤ 2) :
    (ratio ⟨k, x.exponent - 2⟩).1 * x.ratio.2 < x.ratio.1 * (ratio ⟨k, x.exponent - 2⟩).2 := by
  obtain ⟨m, e⟩ := x
  have hm : 0 < m := Nat.pos_of_ne_zero h
  -- the quarter is at an exponent that is less by two
  have hquarter (p : Nat) (hp : 0 < p) : k * p < m * (p * 2 * 2) := by
    calc k * p ≤ 2 * p := Nat.mul_le_mul_right p hk
      _ < p * 2 * 2 := by omega
      _ ≤ m * (p * 2 * 2) := Nat.le_mul_of_pos_left _ hm
  have hpow (n : Nat) : 0 < Nat.pow 2 n := Nat.pow_pos (by decide)
  rcases Int.lt_or_le e 0 with he | he
  · obtain ⟨n, rfl⟩ := Int.eq_negSucc_of_lt_zero he
    have hexp : Int.negSucc n - 2 = Int.negSucc (n + 2) := by omega
    rw [hexp, ratio_negSucc, ratio_negSucc]
    exact hquarter (Nat.pow 2 (n + 1)) (hpow (n + 1))
  · obtain ⟨n, rfl⟩ := Int.eq_ofNat_of_zero_le he
    rw [ratio_ofNat]
    match n with
    | 0 =>
      have hexp : ((0 : Nat) : Int) - 2 = Int.negSucc 1 := rfl
      rw [hexp, ratio_negSucc, Nat.mul_assoc]
      exact hquarter 1 (by decide)
    | 1 =>
      have hexp : ((1 : Nat) : Int) - 2 = Int.negSucc 0 := rfl
      rw [hexp, ratio_negSucc, Nat.mul_assoc]
      exact hquarter 1 (by decide)
    | n + 2 =>
      have hexp : ((n + 2 : Nat) : Int) - 2 = (n : Int) := by omega
      rw [hexp, ratio_ofNat, Nat.mul_one, Nat.mul_one]
      exact hquarter (Nat.pow 2 n) (hpow n)

theorem roundsFrom_zero {x : Magnitude} (h : x.mantissa ≠ 0) {q : Nat} (hq : 0 < q) :
    x.roundsFrom 0 q = false := by
  unfold roundsFrom
  dsimp only
  generalize hunits : (if (decide (x.mantissa = Nat.pow 2 52) &&
    decide (x.exponent > minExponent)) = true then ((1, 2) : Nat × Nat) else (2, 2)) = units
  have hbelow : units.1 ≤ 2 := by
    rw [← hunits]
    split <;> decide
  have hlow : 0 < (x.ratio.1 * (ratio ⟨units.1, x.exponent - 2⟩).2 -
      (ratio ⟨units.1, x.exponent - 2⟩).1 * x.ratio.2) * q :=
    Nat.mul_pos (Nat.sub_pos_of_lt (half_place_lt h hbelow)) hq
  rw [Nat.zero_mul, decide_eq_false (Nat.not_le.2 hlow), decide_eq_false (Nat.not_lt_zero _)]
  simp

/-! ## Digits -/

theorem withDigits_ne_zero {x : Magnitude} (h : x.mantissa ≠ 0) {count k : Nat} {unit : Int}
    (hw : x.withDigits count = some (k, unit)) : k ≠ 0 := by
  rintro rfl
  unfold withDigits at hw
  dsimp only at hw
  obtain ⟨k, hk, heq⟩ := Option.map_eq_some_iff.1 hw
  obtain ⟨rfl, -⟩ := Prod.mk.inj heq
  have hrounds := List.find?_some hk
  have hpow (n : Nat) : 0 < Nat.pow 10 n := Nat.pow_pos (by decide)
  rw [Nat.zero_mul, roundsFrom_zero h Nat.one_pos, roundsFrom_zero h (hpow _)] at hrounds
  simp at hrounds

/-- The shortest decimal is zero, or its digits do not begin with zero. -/
theorem shortest_digits {x : Magnitude} (h : x.mantissa ≠ 0) :
    (∀ c ∈ x.shortest.digits, c.isDigit = true) ∧ x.shortest.digits ≠ [] ∧
      (x.shortest = ⟨['0'], 0⟩ ∨ x.shortest.digits.head? ≠ some '0') := by
  unfold shortest
  split
  · rename_i k unit hk
    obtain ⟨i, -, hw⟩ := List.exists_of_findSome?_eq_some hk
    have hhead := Text.head?_toDigits (withDigits_ne_zero h hw)
    cases hcs : Nat.toDigits 10 k with
    | nil => exact absurd hcs Nat.toDigits_ne_nil
    | cons c cs =>
      have hdigits : ∀ d ∈ c :: cs, d.isDigit = true := fun d hd =>
        Text.digit_of_mem_toDigits (hcs ▸ hd)
      have hc : (c == '0') = false := by
        rw [hcs] at hhead
        simpa using hhead
      dsimp only
      -- the first digit is none of the zeros that are left out at the end
      obtain ⟨ds, hds⟩ : ∃ ds, ((c :: cs).reverse.dropWhile (· == '0')).reverse = c :: ds := by
        rw [List.reverse_cons, List.dropWhile_append]
        split
        · exact ⟨[], by rw [List.dropWhile_cons, hc]; rfl⟩
        · exact ⟨_, by rw [List.reverse_append]; rfl⟩
      have hmem : ∀ d ∈ c :: ds, d ∈ c :: cs := fun d hd => by
        rw [← hds, List.mem_reverse] at hd
        exact List.mem_reverse.1 ((List.dropWhile_sublist _).mem hd)
      rw [hds]
      exact ⟨fun d hd => hdigits d (hmem d hd), List.cons_ne_nil _ _, .inr (by simpa using hc)⟩
  · have hdigit : ∀ c ∈ ['0'], c.isDigit = true := by
      rintro c hc
      obtain rfl := List.mem_singleton.1 hc
      rfl
    exact ⟨hdigit, List.cons_ne_nil _ _, .inl rfl⟩

end ImageRelay.Decimal.Magnitude
