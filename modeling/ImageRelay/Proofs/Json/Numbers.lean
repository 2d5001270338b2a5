import ImageRelay.Proofs.Decimal.Shortest
import ImageRelay.Proofs.Json.Numerals

/-!
# Reading written numbers back

The text of every number is a numeral (`Number.exists_numeral`). `Number.readsBack_integer`: the
integers of 64 bits are read back from it.

* `Number.ReadsBack`: the numbers that are read back from their text.
* `Number.Fits`, `Number.Exact`: the numbers that are read (`fits_of_number?`), and of them those
  that are read back (`readsBack_of_exact`).
-/

set_option autoImplicit false

namespace ImageRelay.Json

open Text.Utf8

/-! ## Magnitudes -/

open Decimal (Magnitude)
open Written (IsDigits IsNumeral fractionText exponentText)

theorem isDigits_of_mem {cs ds : List Char} (hne : cs ≠ []) (h : ∀ c ∈ cs, c = '0' ∨ c ∈ ds)
    (hd : ∀ c ∈ ds, c.isDigit = true) : IsDigits cs := by
  refine ⟨hne, fun c hc => ?_⟩
  rcases h c hc with rfl | hc
  · rfl
  · exact hd c hc

theorem isDigits_single {c : Char} (h : c.isDigit = true) : IsDigits [c] :=
  ⟨List.cons_ne_nil _ _, by simpa using h⟩

/-- The digits of an exponent: at least two. -/
theorem isDigits_exponent (n : Nat) :
    IsDigits (if (Nat.toDigits 10 n).length < 2 then '0' :: Nat.toDigits 10 n
      else Nat.toDigits 10 n) := by
  refine isDigits_of_mem ?_ ?_ fun c => Text.digit_of_mem_toDigits (n := n)
  · split
    · exact List.cons_ne_nil _ _
    · exact Nat.toDigits_ne_nil
  · intro c hc
    split at hc
    · exact List.mem_cons.1 hc
    · exact .inr hc

/-- Every magnitude is written as a numeral. -/
theorem isNumeral_magnitudeText (x : Magnitude) :
    ∃ cs, IsNumeral cs ∧ magnitudeText x = String.ofList cs := by
  unfold magnitudeText
  split
  · refine ⟨"0.0".toList, ⟨['0'], some ['0'], none, isDigits_single rfl, .inl rfl, ?_, by simp, rfl⟩,
      rfl⟩
    rintro _ ⟨⟩
    exact isDigits_single rfl
  · rename_i hx
    obtain ⟨hdigits, hne, hlead⟩ := Magnitude.shortest_digits hx
    generalize x.shortest = s at hdigits hne hlead
    obtain ⟨_ | ⟨d, ds⟩, e⟩ := s
    · exact absurd rfl hne
    have hd : d.isDigit = true := hdigits d List.mem_cons_self
    dsimp only at hdigits hlead ⊢
    split
    · -- positional: the whole part is as long as the exponent says
      refine ⟨_, ⟨(d :: ds).take (e.toNat + 1) ++
        List.replicate (e.toNat + 1 - (d :: ds).length) '0',
        some (if ((d :: ds).drop (e.toNat + 1)).isEmpty then ['0'] else (d :: ds).drop (e.toNat + 1)),
        none, isDigits_of_mem (by simp) (fun c hc => ?_) hdigits, ?_, ?_, by simp, rfl⟩, ?_⟩
      · rcases List.mem_append.1 hc with hc | hc
        · exact .inr (List.mem_of_mem_take hc)
        · exact .inl (List.eq_of_mem_replicate hc)
      · rcases hlead with hzero | hlead
        · cases hzero
          exact .inl rfl
        · exact .inr (by simpa using hlead)
      · rintro _ ⟨⟩
        split
        · exact isDigits_single rfl
        · rename_i hrest
          exact isDigits_of_mem (by simpa using hrest) (fun c hc => .inr (List.mem_of_mem_drop hc))
            hdigits
      · simp [fractionText, exponentText]
    split
    · -- positional, with zeros behind the point
      refine ⟨_, ⟨['0'], some (List.replicate ((-e).toNat - 1) '0' ++ d :: ds), none,
        isDigits_single rfl, .inl rfl, ?_, by simp, rfl⟩, ?_⟩
      · rintro _ ⟨⟩
        refine isDigits_of_mem (by simp) (fun c hc => ?_) hdigits
        exact (List.mem_append.1 hc).imp_left List.eq_of_mem_replicate
      · simp [fractionText, exponentText]
    · -- scientific: one digit before the point
      refine ⟨_, ⟨[d], if ds.isEmpty then none else some ds,
        some (decide (e < 0), if (Nat.toDigits 10 e.natAbs).length < 2 then
          '0' :: Nat.toDigits 10 e.natAbs else Nat.toDigits 10 e.natAbs), isDigits_single hd,
        .inl rfl, ?_, ?_, rfl⟩, ?_⟩
      · intro cs hcs
        split at hcs
        · cases hcs
        · cases hcs
          rename_i hrest
          exact isDigits_of_mem (by simpa using hrest) (fun c hc => .inr (List.mem_cons_of_mem d hc))
            hdigits
      · rintro _ ⟨⟩
        exact isDigits_exponent e.natAbs
      · cases ds with
        | nil => simp [fractionText, exponentText]
        | cons d' ds => simp [fractionText, exponentText]

/-! ## Numbers -/

/-- The number of digits behind a number. -/
def Numeral.value (v : Nat) (ds : List Nat) : Nat := ds.foldl (fun v d => 10 * v + d) v

theorem Numeral.le_value (v : Nat) (ds : List Nat) : v ≤ value v ds := by
  induction ds generalizing v with
  | nil => exact Nat.le_refl _
  | cons d ds ih =>
    have h := ih (10 * v + d)
    rw [value, List.foldl_cons]
    exact Nat.le_trans (by omega) h

/-- All digits of a number of 64 bits count. -/
theorem Numeral.significand_eq {v : Nat} {ds : List Nat} (h : value v ds < UInt64.size) :
    significand v ds = (value v ds, []) := by
  induction ds generalizing v with
  | nil => rfl
  | cons d ds ih =>
    have hle : 10 * v + d ≤ value v (d :: ds) := le_value (10 * v + d) ds
    rw [significand, if_pos (by omega)]
    exact ih h

theorem Numeral.significand_lt {v : Nat} (h : v < UInt64.size) (ds : List Nat) :
    (significand v ds).1 < UInt64.size := by
  induction ds generalizing v with
  | nil => exact h
  | cons d ds ih =>
    rw [significand]
    split
    · exact ih ‹_›
    · exact h

/-! ## Numbers -/

namespace Number

/-- The text of a number is read as this number. -/
def ReadsBack (n : Number) : Prop :=
  ∃ w, Written.numeral (encode n.text) = some (w, []) ∧ w.number? = some n

/-- Integers are those of 64 bits with or without a sign. -/
def Fits : Number → Prop
  | integer n => -(Nat.pow 2 63 : Int) ≤ n ∧ n < UInt64.size
  | float _ _ => True

/-- A number that is read back if it is a floating-point number. Not all of these are: a reader
rounds the digits and their power of ten one after the other. -/
def Exact : Number → Prop
  | integer _ => True
  | float negative x => (float negative x).ReadsBack

/-! ## Integers -/

theorem ascii_toDigits (n : Nat) : ∀ c ∈ Nat.toDigits 10 n, c.toNat < 0x80 := fun c hc => by
  have hrange := Text.toNat_of_isDigit (Text.digit_of_mem_toDigits hc)
  omega

/-- The digits of a natural number are a numeral with its sign. -/
theorem unsigned_toDigits (negative : Bool) (n : Nat) : ∃ ds, Numeral.value 0 ds = n ∧
    Written.unsigned negative ((Nat.toDigits 10 n).map Written.byteOf) =
      some (⟨negative, ds, none, none⟩, []) := by
  have hdigits : IsDigits (Nat.toDigits 10 n) :=
    ⟨Nat.toDigits_ne_nil, fun c => Text.digit_of_mem_toDigits⟩
  have hzero : (Nat.toDigits 10 n).length = 1 ∨ (Nat.toDigits 10 n).head? ≠ some '0' := by
    by_cases hn : n = 0
    · subst hn
      exact .inl rfl
    · exact .inr (Text.head?_toDigits hn)
  refine ⟨Written.valuesOf (Nat.toDigits 10 n), ?_, ?_⟩
  · rw [Numeral.value, Written.valuesOf, List.foldl_map]
    exact Nat.ofDigitChars_ten_toDigits
  · have hfraction : ∀ ds ∈ (none : Option (List Char)), IsDigits ds := by simp
    have hexponent : ∀ e ∈ (none : Option (Bool × List Char)), IsDigits e.2 := by simp
    simpa [fractionText, exponentText] using
      Written.unsigned_digits negative hdigits hzero hfraction hexponent

/-- The text of an integer is a numeral with its sign and the digits of its value. -/
theorem numeral_integer (n : Int) : ∃ ds, Numeral.value 0 ds = n.natAbs ∧
    Written.numeral (encode (integer n).text) = some (⟨decide (n < 0), ds, none, none⟩, []) := by
  cases n with
  | ofNat m =>
    obtain ⟨ds, hvalue, hread⟩ := unsigned_toDigits false m
    refine ⟨ds, hvalue, ?_⟩
    have htext : encode (integer (.ofNat m)).text = (Nat.toDigits 10 m).map Written.byteOf :=
      encode_ascii (ascii_toDigits m)
    rw [htext]
    exact Written.numeral_of_unsigned hread
  | negSucc m =>
    obtain ⟨ds, hvalue, hread⟩ := unsigned_toDigits true (m + 1)
    refine ⟨ds, hvalue, ?_⟩
    have htext : encode (integer (.negSucc m)).text =
        Written.byteOf '-' :: (Nat.toDigits 10 (m + 1)).map Written.byteOf := by
      rw [← encode_ascii (ascii_toDigits (m + 1))]
      exact encode_append "-" _
    rw [htext, decide_eq_true (Int.negSucc_lt_zero m)]
    exact Written.numeral_of_unsigned hread

/-- The text of every number is a numeral. -/
theorem exists_numeral (n : Number) : ∃ w, Written.numeral (encode n.text) = some (w, []) := by
  cases n with
  | integer n =>
    obtain ⟨ds, -, hread⟩ := numeral_integer n
    exact ⟨_, hread⟩
  | float negative x =>
    obtain ⟨cs, hcs, htext⟩ := isNumeral_magnitudeText x
    obtain ⟨w, hread⟩ := hcs.unsigned negative
    have hsign : encode (if negative then "-" else "") =
        if negative then [Written.byteOf '-'] else [] := by cases negative <;> rfl
    refine ⟨w, ?_⟩
    rw [text, encode_append, hsign, htext, encode_ascii hcs.ascii]
    exact Written.numeral_of_unsigned hread

theorem number?_natural {ds : List Nat} {k : Nat} (h : Numeral.value 0 ds = k)
    (hk : k < UInt64.size) :
    (⟨false, ds, none, none⟩ : Numeral).number? = some (integer k) := by
  subst h
  simp [Numeral.number?, Numeral.significand_eq hk]

theorem number?_negative {ds : List Nat} {k : Nat} (h : Numeral.value 0 ds = k) (hn : k ≠ 0)
    (hk : k ≤ Nat.pow 2 63) :
    (⟨true, ds, none, none⟩ : Numeral).number? = some (integer (-k)) := by
  subst h
  have hsize : Numeral.value 0 ds < UInt64.size := Nat.lt_of_le_of_lt hk (by decide)
  simp [Numeral.number?, Numeral.significand_eq hsize, hn, hk]

theorem readsBack_integer {n : Int} (h : (integer n).Fits) : (integer n).ReadsBack := by
  obtain ⟨hlow, hhigh⟩ := h
  obtain ⟨ds, hvalue, hread⟩ := numeral_integer n
  refine ⟨_, hread, ?_⟩
  by_cases hn : n < 0
  · have habs : n = -(n.natAbs : Int) := by omega
    rw [decide_eq_true hn, number?_negative hvalue (by omega) (by omega), ← habs]
  · have habs : n = (n.natAbs : Int) := by omega
    rw [decide_eq_false hn, number?_natural hvalue (by omega), ← habs]

theorem readsBack_of_exact {n : Number} (h : n.Fits) (he : n.Exact) : n.ReadsBack := by
  cases n with
  | integer => exact readsBack_integer h
  | float => exact he

theorem fits_of_number? {w : Numeral} {n : Number} (h : w.number? = some n) : n.Fits := by
  cases n with
  | float => trivial
  | integer n =>
    have hlt := Numeral.significand_lt (v := 0) (by decide) w.whole
    simp only [Numeral.number?] at h
    split at h
    · split at h
      · cases h
        exact ⟨by omega, Int.ofNat_lt.2 hlt⟩
      · split at h
        · rename_i hle
          simp only [Bool.and_eq_true, decide_eq_true_eq] at hle
          cases h
          exact ⟨by omega, by omega⟩
        · simp at h
    -- any other numeral is a floating-point number
    · split at h
      · simp at h
      · split at h
        · split at h <;> simp at h
        · simp at h

end Number

end ImageRelay.Json
