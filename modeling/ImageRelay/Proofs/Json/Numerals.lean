import ImageRelay.Json.Value
import ImageRelay.Proofs.Text.Bytes
import ImageRelay.Proofs.Text.Digits

/-!
# Reading numerals

What is read as a numeral, and that this does not depend on what follows it.

* `Follows`, `Written.numeral_append`: a numeral is read the same way before whatever may follow a
  value.
* `Written.unsigned_digits`: the digits of a numeral are read, with its fraction and its exponent.
-/

set_option autoImplicit false

namespace ImageRelay.Json

open Text.Utf8

/-- What may follow a value: nothing, a comma, a bracket or a brace. -/
def Follows (rest : List UInt8) : Prop := ∀ b ∈ rest.head?, b = 0x2C ∨ b = 0x5D ∨ b = 0x7D

theorem follows_cons {b : UInt8} (h : b = 0x2C ∨ b = 0x5D ∨ b = 0x7D) (rest : List UInt8) :
    Follows (b :: rest) := by
  intro b' hb
  cases hb
  exact h

theorem follows_nil : Follows [] := by
  intro b hb
  cases hb

namespace Written

/-! ## Numerals before something else -/

section
variable {rest : List UInt8} (hr : Follows rest)
include hr

theorem digits_append (s : List UInt8) :
    digits (s ++ rest) = ((digits s).1, (digits s).2 ++ rest) := by
  induction s with
  | nil =>
    cases rest with
    | nil => rfl
    | cons b rest =>
      have hb : isDigit b = false := by rcases hr b rfl with rfl | rfl | rfl <;> decide
      simp [digits, hb]
  | cons c s ih =>
    simp only [digits, Prod.mk.injEq] at ih ⊢
    cases hc : isDigit c <;> simp [hc, ih]

theorem fraction?_append (s : List UInt8) :
    fraction? (s ++ rest) = (fraction? s).map fun (f, r) => (f, r ++ rest) := by
  cases s with
  | nil =>
    cases rest with
    | nil => rfl
    | cons b rest =>
      have hb : (b == byteOf '.') = false := by rcases hr b rfl with rfl | rfl | rfl <;> decide
      simp [fraction?, hb]
  | cons c s =>
    simp only [List.cons_append, fraction?, digits_append hr]
    split
    · rcases digits s with ⟨_ | ⟨d, ds⟩, r⟩ <;> rfl
    · rfl

/-- The sign before the digits of an exponent, and the rest. -/
def exponentSign : List UInt8 → Bool × List UInt8
  | c :: r => if c == byteOf '-' then (true, r) else if c == byteOf '+' then (false, r)
    else (false, c :: r)
  | [] => (false, [])

/-- The exponent behind its letter. -/
def exponentBody? (s : List UInt8) : Option (Option (Bool × List Nat) × List UInt8) :=
  match digits (exponentSign s).2 with
  | ([], _) => none
  | (ds, r) => some (some ((exponentSign s).1, ds), r)

omit hr in
theorem exponent?_cons (b : UInt8) (r : List UInt8) :
    exponent? (b :: r) =
      if b == byteOf 'e' || b == byteOf 'E' then exponentBody? r else some (none, b :: r) := by
  cases r with
  | nil => rfl
  | cons s r => rfl

theorem exponentSign_append (s : List UInt8) :
    exponentSign (s ++ rest) = ((exponentSign s).1, (exponentSign s).2 ++ rest) := by
  cases s with
  | nil =>
    cases rest with
    | nil => rfl
    | cons b rest => rcases hr b rfl with rfl | rfl | rfl <;> rfl
  | cons c s =>
    simp only [List.cons_append, exponentSign]
    split
    · rfl
    · split <;> rfl

theorem exponentBody?_append (s : List UInt8) :
    exponentBody? (s ++ rest) = (exponentBody? s).map fun (e, r) => (e, r ++ rest) := by
  simp only [exponentBody?, exponentSign_append hr, digits_append hr]
  rcases digits (exponentSign s).2 with ⟨_ | ⟨d, ds⟩, r⟩ <;> rfl

theorem exponent?_append (s : List UInt8) :
    exponent? (s ++ rest) = (exponent? s).map fun (e, r) => (e, r ++ rest) := by
  cases s with
  | nil =>
    cases rest with
    | nil => rfl
    | cons b rest =>
      have hb : (b == byteOf 'e' || b == byteOf 'E') = false := by
        rcases hr b rfl with rfl | rfl | rfl <;> decide
      simp [exponent?, hb]
  | cons c s =>
    rw [List.cons_append, exponent?_cons, exponent?_cons, exponentBody?_append hr]
    split <;> rfl

/-- A number behind its whole part. -/
def behindWhole (negative : Bool) (whole : List Nat) (s : List UInt8) :
    Option (Numeral × List UInt8) :=
  match fraction? s with
  | none => none
  | some (fraction, r) =>
    (exponent? r).map fun (exponent, r) => (⟨negative, whole, fraction, exponent⟩, r)

/-- A number behind its sign. -/
def unsigned (negative : Bool) (s : List UInt8) : Option (Numeral × List UInt8) :=
  match digits s with
  | ([], _) => none
  | (0 :: _ :: _, _) => none
  | (whole, r) => behindWhole negative whole r

omit hr in
theorem numeral_eq (s : List UInt8) :
    numeral s = unsigned (s.head? == some (byteOf '-'))
      (if s.head? == some (byteOf '-') then s.tail else s) := rfl

theorem behindWhole_append (negative : Bool) (whole : List Nat) (s : List UInt8) :
    behindWhole negative whole (s ++ rest) =
      (behindWhole negative whole s).map fun (n, r) => (n, r ++ rest) := by
  rw [behindWhole, behindWhole, fraction?_append hr]
  cases fraction? s with
  | none => rfl
  | some fr =>
    dsimp only [Option.map_some]
    rw [exponent?_append hr, Option.map_map, Option.map_map]
    rfl

theorem unsigned_append (negative : Bool) (s : List UInt8) :
    unsigned negative (s ++ rest) = (unsigned negative s).map fun (n, r) => (n, r ++ rest) := by
  rw [unsigned, unsigned, digits_append hr]
  -- the whole part has no digit, one, or more of which the first may be zero
  rcases digits s with ⟨_ | ⟨d, _ | ⟨e, ds⟩⟩, r⟩
  · rfl
  · cases d with
    | zero => exact behindWhole_append hr negative [0] r
    | succ d => exact behindWhole_append hr negative [d + 1] r
  · cases d with
    | zero => rfl
    | succ d => exact behindWhole_append hr negative ((d + 1) :: e :: ds) r

/-- A numeral is read the same way before what may follow a value. -/
theorem numeral_append (s : List UInt8) :
    numeral (s ++ rest) = (numeral s).map fun (n, r) => (n, r ++ rest) := by
  rw [numeral_eq, numeral_eq]
  cases s with
  | nil =>
    have hminus : (rest.head? == some (byteOf '-')) = false := by
      cases rest with
      | nil => rfl
      | cons b rest => rcases hr b rfl with rfl | rfl | rfl <;> rfl
    simpa [hminus] using unsigned_append hr false []
  | cons c s =>
    rw [List.cons_append, List.head?_cons, List.head?_cons]
    split
    · exact unsigned_append hr _ s
    · exact unsigned_append hr _ (c :: s)

end

theorem unsigned_start {negative : Bool} {s : List UInt8} {n : Numeral × List UInt8}
    (h : unsigned negative s = some n) : ∃ b body, s = b :: body ∧ isDigit b = true := by
  cases s with
  | nil => cases h
  | cons b body =>
    refine ⟨b, body, rfl, Decidable.byContradiction fun hb => ?_⟩
    rw [Bool.not_eq_true] at hb
    simp [unsigned, digits, hb] at h

/-- A numeral begins with a sign or a digit. -/
theorem numeral_start {s : List UInt8} {n : Numeral × List UInt8} (h : numeral s = some n) :
    ∃ b body, s = b :: body ∧ (b = byteOf '-' ∨ isDigit b = true) := by
  rw [numeral_eq] at h
  split at h
  · rename_i hsign
    obtain ⟨body, rfl⟩ := List.head?_eq_some_iff.1 (beq_iff_eq.1 hsign)
    exact ⟨_, body, rfl, .inl rfl⟩
  · obtain ⟨b, body, rfl, hb⟩ := unsigned_start h
    exact ⟨b, body, rfl, .inr hb⟩

theorem numeral_of_unsigned {negative : Bool} {s : List UInt8} {n : Numeral × List UInt8}
    (h : unsigned negative s = some n) :
    numeral ((if negative then [byteOf '-'] else []) ++ s) = some n := by
  cases negative with
  | true => exact h
  | false =>
    obtain ⟨b, body, rfl, hb⟩ := unsigned_start h
    have hsign : ((b :: body).head? == some (byteOf '-')) = false := by
      rw [List.head?_cons, beq_eq_false_iff_ne]
      rintro ⟨rfl⟩
      cases hb
    rw [if_neg Bool.false_ne_true, List.nil_append, numeral_eq, hsign]
    exact h

end Written

/-! ## Written digits -/

theorem encode_ascii {cs : List Char} (h : ∀ c ∈ cs, c.toNat < 0x80) :
    encode (String.ofList cs) = cs.map Written.byteOf := by
  rw [encode_ofList]
  induction cs with
  | nil => rfl
  | cons c cs ih =>
    obtain ⟨hc, hcs⟩ := List.forall_mem_cons.1 h
    rw [List.flatMap_cons, List.map_cons, ih hcs]
    rcases bytes_cases c with ⟨_, hb⟩ | ⟨hge, _⟩ | ⟨hge, _⟩ | ⟨hge, _⟩
    · rw [hb]
      rfl
    · omega
    · omega
    · omega

namespace Written

theorem toNat_byteOf {c : Char} (h : c.isDigit = true) : (byteOf c).toNat = c.toNat := by
  have hrange := Text.toNat_of_isDigit h
  rw [byteOf, UInt8.toNat_ofNat', Nat.mod_eq_of_lt (by omega)]

/-- The values of digits. -/
def valuesOf (cs : List Char) : List Nat := cs.map fun c => c.toNat - '0'.toNat

/-- Digits are read up to what is no digit. -/
theorem digits_map_append {cs : List Char} (h : ∀ c ∈ cs, c.isDigit = true) {rest : List UInt8}
    (hr : ∀ b ∈ rest.head?, isDigit b = false) :
    digits (cs.map byteOf ++ rest) = (valuesOf cs, rest) := by
  induction cs with
  | nil =>
    cases rest with
    | nil => rfl
    | cons b rest =>
      have hb := hr b rfl
      simp [digits, valuesOf, hb]
  | cons c cs ih =>
    obtain ⟨hc, hcs⟩ := List.forall_mem_cons.1 h
    have hnat := toNat_byteOf hc
    have hrange := Text.toNat_of_isDigit hc
    have hdigit : isDigit (byteOf c) = true := by
      simp [isDigit, UInt8.le_iff_toNat_le, hnat, hrange]
    have ih := ih hcs
    simp only [digits, valuesOf, Prod.mk.injEq] at ih ⊢
    simp [hdigit, hnat, ih]

/-- At least one digit. -/
def IsDigits (cs : List Char) : Prop := cs ≠ [] ∧ ∀ c ∈ cs, c.isDigit = true

/-- The text of a fraction, if there is one. -/
def fractionText (fraction : Option (List Char)) : List Char :=
  match fraction with
  | some cs => '.' :: cs
  | none => []

/-- The text of an exponent, if there is one. -/
def exponentText (exponent : Option (Bool × List Char)) : List Char :=
  match exponent with
  | some (negative, cs) => 'e' :: (if negative then '-' else '+') :: cs
  | none => []

theorem digits_map {cs : List Char} (h : ∀ c ∈ cs, c.isDigit = true) :
    digits (cs.map byteOf) = (valuesOf cs, []) := by
  have hnil : ∀ b ∈ ([] : List UInt8).head?, isDigit b = false := by simp
  simpa using digits_map_append h hnil

theorem exponent?_text {exponent : Option (Bool × List Char)}
    (h : ∀ e ∈ exponent, IsDigits e.2) :
    exponent? ((exponentText exponent).map byteOf) =
      some (exponent.map fun (negative, cs) => (negative, valuesOf cs), []) := by
  cases exponent with
  | none => rfl
  | some e =>
    obtain ⟨negative, cs⟩ := e
    obtain ⟨hne, hdigits⟩ := h _ rfl
    have hsign : exponentSign (byteOf (if negative then '-' else '+') :: cs.map byteOf) =
        (negative, cs.map byteOf) := by cases negative <;> rfl
    rw [exponentText, List.map_cons, List.map_cons, exponent?_cons, if_pos (by decide),
      exponentBody?, hsign, digits_map hdigits]
    cases cs with
    | nil => exact absurd rfl hne
    | cons c cs => rfl

theorem fraction?_text {fraction : Option (List Char)} (h : ∀ cs ∈ fraction, IsDigits cs)
    {rest : List UInt8} (hr : ∀ b ∈ rest.head?, isDigit b = false ∧ b ≠ byteOf '.') :
    fraction? ((fractionText fraction).map byteOf ++ rest) =
      some (fraction.map valuesOf, rest) := by
  cases fraction with
  | none =>
    cases rest with
    | nil => rfl
    | cons b rest =>
      have hb := beq_false_of_ne (hr b rfl).2
      simp [fractionText, fraction?, hb]
  | some cs =>
    obtain ⟨hne, hdigits⟩ := h _ rfl
    rw [fractionText, List.map_cons, List.cons_append, fraction?, if_pos (by decide),
      digits_map_append hdigits fun b hb => (hr b hb).1]
    cases cs with
    | nil => exact absurd rfl hne
    | cons c cs => rfl

/-- Digits that no zero leads, and perhaps a fraction and an exponent. -/
def IsNumeral (cs : List Char) : Prop :=
  ∃ whole fraction exponent, IsDigits whole ∧ (whole.length = 1 ∨ whole.head? ≠ some '0') ∧
    (∀ ds ∈ fraction, IsDigits ds) ∧ (∀ e ∈ exponent, IsDigits e.2) ∧
    cs = whole ++ fractionText fraction ++ exponentText exponent

/-- The digits of a numeral are read, with its fraction and its exponent, if no zero leads them. -/
theorem unsigned_digits (negative : Bool) {whole : List Char} (hw : IsDigits whole)
    (hz : whole.length = 1 ∨ whole.head? ≠ some '0') {fraction : Option (List Char)}
    (hf : ∀ cs ∈ fraction, IsDigits cs) {exponent : Option (Bool × List Char)}
    (he : ∀ e ∈ exponent, IsDigits e.2) :
    unsigned negative ((whole ++ fractionText fraction ++ exponentText exponent).map byteOf) =
      some (⟨negative, valuesOf whole, fraction.map valuesOf,
        exponent.map fun (negative, cs) => (negative, valuesOf cs)⟩, []) := by
  have hexponent : ∀ b ∈ ((exponentText exponent).map byteOf).head?,
      isDigit b = false ∧ b ≠ byteOf '.' := by
    intro b hb
    cases exponent with
    | none => cases hb
    | some e =>
      cases hb
      decide
  have hfraction : ∀ b ∈ ((fractionText fraction).map byteOf ++
      (exponentText exponent).map byteOf).head?, isDigit b = false := by
    intro b hb
    cases fraction with
    | none => exact (hexponent b hb).1
    | some cs =>
      cases hb
      decide
  have hbehind (values : List Nat) : behindWhole negative values
      ((fractionText fraction).map byteOf ++ (exponentText exponent).map byteOf) =
        some (⟨negative, values, fraction.map valuesOf,
          exponent.map fun (negative, cs) => (negative, valuesOf cs)⟩, []) := by
    rw [behindWhole, fraction?_text hf hexponent]
    dsimp only
    rw [exponent?_text he]
    rfl
  rw [List.map_append, List.map_append, List.append_assoc, unsigned,
    digits_map_append hw.2 hfraction]
  rcases whole with _ | ⟨c, _ | ⟨d, cs⟩⟩
  · exact absurd rfl hw.1
  · have hread := hbehind (valuesOf [c])
    rw [valuesOf, List.map_singleton] at hread ⊢
    generalize c.toNat - '0'.toNat = v at hread ⊢
    cases v <;> exact hread
  · have hread := hbehind (valuesOf (c :: d :: cs))
    have hrange := Text.toNat_of_isDigit (hw.2 c List.mem_cons_self)
    have hne : c.toNat ≠ 48 := fun h => by simp [← Char.toNat_inj, h] at hz
    have hzero : '0'.toNat = 48 := rfl
    rw [valuesOf, List.map_cons, List.map_cons] at hread ⊢
    generalize hv : c.toNat - '0'.toNat = v at hread ⊢
    cases v with
    | zero => omega
    | succ v => exact hread

theorem IsNumeral.ascii {cs : List Char} (h : IsNumeral cs) : ∀ c ∈ cs, c.toNat < 0x80 := by
  obtain ⟨whole, fraction, exponent, hw, -, hf, he, rfl⟩ := h
  have hdigit {ds : List Char} (h : IsDigits ds) (c : Char) (hc : c ∈ ds) : c.toNat < 0x80 := by
    have hrange := Text.toNat_of_isDigit (h.2 c hc)
    omega
  intro c hc
  rcases List.mem_append.1 hc with hc | hc
  · rcases List.mem_append.1 hc with hc | hc
    · exact hdigit hw c hc
    · cases fraction with
      | none => cases hc
      | some ds =>
        rcases List.mem_cons.1 hc with rfl | hc
        · decide
        · exact hdigit (hf ds rfl) c hc
  · cases exponent with
    | none => cases hc
    | some e =>
      rcases List.mem_cons.1 hc with rfl | hc
      · decide
      · rcases List.mem_cons.1 hc with rfl | hc
        · cases e.1 <;> decide
        · exact hdigit (he e rfl) c hc

theorem IsNumeral.unsigned {cs : List Char} (h : IsNumeral cs) (negative : Bool) :
    ∃ n, Written.unsigned negative (cs.map byteOf) = some (n, []) := by
  obtain ⟨whole, fraction, exponent, hw, hz, hf, he, rfl⟩ := h
  exact ⟨_, unsigned_digits negative hw hz hf he⟩

end Written

end ImageRelay.Json
