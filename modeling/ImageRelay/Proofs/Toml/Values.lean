import ImageRelay.Proofs.Text.Digits
import ImageRelay.Proofs.Toml.Strings
import ImageRelay.Toml.Document

/-!
# Written values are read back

A string, a truth value or a natural number as it is written at the end of a line is read as that
value (`spells_stringText`, `spells_booleanWord`, `spells_toDigits`).

* `Spells`: a text at the end of a line that is read as a value.
* `scalar?_toDigits`: the decimal digits of a number are no date, no time of day and no number in
  another base.
-/

set_option autoImplicit false

namespace ImageRelay.Toml

/-! ## Natural numbers -/

section
variable {s : List Char} (hs : ∀ d ∈ s, d.isDigit = true)
include hs

theorem ne_of_digits {c : Char} (hc : c.isDigit = false) {d : Char} (hd : d ∈ s) : d ≠ c := by
  rintro rfl
  simp [hs d hd] at hc

theorem behind?_drop_of_digits {c : Char} (hc : c.isDigit = false) (n : Nat) :
    behind? c (s.drop n) = none := by
  cases hr : s.drop n with
  | nil => rfl
  | cons d r =>
    have hd : d ∈ s := List.mem_of_mem_drop (hr ▸ List.mem_cons_self)
    simp [behind?, ne_of_digits hs hc hd]

omit hs in
theorem rest_of_fixed? {n v : Nat} {r : List Char} (h : fixed? n s = some (v, r)) :
    r = s.drop n := by
  unfold fixed? at h
  dsimp only at h
  split at h
  · cases h
    rfl
  · cases h

/-- A text of digits is neither a date nor a time of day. -/
theorem isDatetime_of_digits : isDatetime s = false := by
  have hdate : date? s = none := by
    unfold date?
    cases hf : fixed? 4 s with
    | none => rfl
    | some p =>
      obtain ⟨year, r⟩ := p
      have hnone : behind? '-' r = none := by
        rw [rest_of_fixed? hf, behind?_drop_of_digits hs rfl]
      simp [hnone]
  have htime : time? s = none := by
    unfold time?
    cases hf : fixed? 2 s with
    | none => rfl
    | some p =>
      obtain ⟨hour, r⟩ := p
      have hnone : behind? ':' r = none := by
        rw [rest_of_fixed? hf, behind?_drop_of_digits hs rfl]
      simp [hnone]
  simp [isDatetime, hdate, htime]

theorem based?_of_digits : based? s = none := by
  unfold based?
  split
  · exact absurd rfl (ne_of_digits hs (c := 'x') rfl (by simp))
  · exact absurd rfl (ne_of_digits hs (c := 'o') rfl (by simp))
  · exact absurd rfl (ne_of_digits hs (c := 'b') rfl (by simp))
  · rfl

theorem sign_of_digits : sign s = (false, s) := by
  unfold sign
  split
  · exact absurd rfl (ne_of_digits hs (c := '-') rfl (by simp))
  · exact absurd rfl (ne_of_digits hs (c := '+') rfl (by simp))
  · rfl

theorem grouped?_of_digits (hn : s ≠ []) : grouped? Char.isDigit s = some s := by
  have hu (d : Char) (hd : d ∈ s) : d ≠ '_' := ne_of_digits hs rfl hd
  have hhead : s.head? ≠ some '_' := fun h => hu _ (List.mem_of_head? h) rfl
  have hlast : s.getLast? ≠ some '_' := fun h => hu _ (List.mem_of_getLast? h) rfl
  have hall : s.all (fun c => c.isDigit || c == '_') = true := by
    rw [List.all_eq_true]
    intro d hd
    simp [hs d hd]
  have hfilter : s.filter (· != '_') = s := by
    rw [List.filter_eq_self]
    intro d hd
    simp [hu d hd]
  unfold grouped?
  rw [hall, hfilter]
  refine if_neg ?_
  simp only [hn, hhead, hlast, Bool.or_eq_true, List.isEmpty_iff, beq_iff_eq, List.any_eq_true,
    Bool.not_true, Bool.false_eq_true, false_or, or_false]
  rintro ⟨⟨a, b⟩, hp, hpair⟩
  simp [hu a (List.of_mem_zip hp).1] at hpair

end

/-- The digits of a natural number spell it. -/
theorem scalar?_toDigits (n : Nat) : scalar? (Nat.toDigits 10 n) = some (.integer n) := by
  have hs : ∀ d ∈ Nat.toDigits 10 n, d.isDigit = true := fun d => Text.digit_of_mem_toDigits
  have hword (word : String) (c : Char) (hc : c ∈ word.toList) (hd : c.isDigit = false) :
      Nat.toDigits 10 n ≠ word.toList := fun h => ne_of_digits hs hd (h ▸ hc) rfl
  have hzero : ((Nat.toDigits 10 n).head? == some '0' && (Nat.toDigits 10 n).length > 1) = false := by
    by_cases hn : n = 0
    · subst hn
      rfl
    · simp [Text.head?_toDigits hn]
  have hwhole : wholePart? (Nat.toDigits 10 n) = some (Nat.toDigits 10 n) := by
    unfold wholePart?
    rw [grouped?_of_digits hs Nat.toDigits_ne_nil]
    exact if_neg (by rw [hzero]; exact Bool.false_ne_true)
  have hvalue : digitsValue (Nat.toDigits 10 n) = n := Nat.ofDigitChars_ten_toDigits
  have hinteger : integer? (Nat.toDigits 10 n) = some (n : Int) := by
    simp [integer?, based?_of_digits hs, sign_of_digits hs, hwhole, hvalue]
  rw [scalar?, if_neg (hword "true" 't' (by decide) rfl), if_neg (hword "false" 'f' (by decide) rfl),
    isDatetime_of_digits hs, hinteger]
  rfl

/-! ## Values -/

/-- At the end of a line the text is read as the value. -/
structure Spells (text : List Char) (v : Value) : Prop where
  flush (rest : List Char) : skipGap (text ++ '\n' :: rest) = text ++ '\n' :: rest
  read (fuel depth : Nat) (rest : List Char) :
    value? (fuel + 1) depth (text ++ '\n' :: rest) = some (v, '\n' :: rest)

theorem skipGap_cons {c : Char} (h : isGap c = false) (r : List Char) :
    skipGap (c :: r) = c :: r := by
  rw [skipGap, List.dropWhile_cons, h]
  rfl

theorem value?_string {c : Char} (h : c = '"' ∨ c = '\'') (fuel depth : Nat) (r : List Char) :
    value? (fuel + 1) depth (c :: r) =
      (stringAt? (c :: r)).map fun (text, r) => (.string (String.ofList text), r) := by
  rcases h with rfl | rfl <;> simp [value?]

/-- A string begins with a quote. -/
theorem exists_of_stringAt? {s : List Char} {x : List Char × List Char} (h : stringAt? s = some x) :
    ∃ c r, s = c :: r ∧ (c = '"' ∨ c = '\'') := by
  unfold stringAt? at h
  dsimp only at h
  split at h
  · exact ⟨'"', _, rfl, .inl rfl⟩
  · exact ⟨'\'', _, rfl, .inr rfl⟩
  · exact ⟨'"', _, rfl, .inl rfl⟩
  · exact ⟨'\'', _, rfl, .inr rfl⟩
  · cases h

theorem spells_stringText (s : String) : Spells (stringText s).toList (.string s) := by
  have hread (rest : List Char) :
      stringAt? ((stringText s).toList ++ '\n' :: rest) = some (s.toList, '\n' :: rest) :=
    stringAt?_stringText s (by simp) (by simp)
  constructor
  · intro rest
    obtain ⟨c, r, hs, hc⟩ := exists_of_stringAt? (hread rest)
    rw [hs]
    exact skipGap_cons (by rcases hc with rfl | rfl <;> rfl) r
  · intro fuel depth rest
    obtain ⟨c, r, hs, hc⟩ := exists_of_stringAt? (hread rest)
    rw [hs, value?_string hc, ← hs, hread]
    simp

/-- A word of scalar characters at the end of a line is read as what it spells. -/
theorem spells_word {word : List Char} {v : Value} (hw : word ≠ [])
    (hc : ∀ c ∈ word, isScalarChar c = true) (hv : scalar? word = some v) : Spells word v := by
  obtain ⟨c, r, rfl⟩ := List.exists_cons_of_ne_nil hw
  have hne (d : Char) (hd : isScalarChar d = false) : c ≠ d := by
    rintro rfl
    simp [hc c List.mem_cons_self] at hd
  constructor
  · intro rest
    have hgap : isGap c = false := by simp [isGap, hne ' ' rfl, hne '\t' rfl]
    exact skipGap_cons hgap _
  · intro fuel depth rest
    have htake := (Text.span_append_cons hc (show isScalarChar '\n' = false from rfl) rest).1
    have hread : scalarAt? ((c :: r) ++ '\n' :: rest) = some (v, '\n' :: rest) := by
      rw [scalarAt?, htake]
      simp [hv]
    rw [← hread, List.cons_append]
    simp [value?, hne '[' rfl, hne '\x7b' rfl, hne '"' rfl, hne '\'' rfl]

theorem spells_booleanWord (b : Bool) :
    Spells (if b then "true" else "false").toList (.boolean b) := by
  cases b <;> exact spells_word (by decide) (List.all_eq_true.1 rfl) rfl

theorem spells_toDigits (n : Nat) : Spells (Nat.toDigits 10 n) (.integer n) := by
  refine spells_word Nat.toDigits_ne_nil (fun c hc => ?_) (scalar?_toDigits n)
  have hdigit := Text.digit_of_mem_toDigits hc
  simp [isScalarChar, Text.isAlphanum_of_isDigit hdigit]

end ImageRelay.Toml
