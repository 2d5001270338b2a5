import ImageRelay.Failure
import ImageRelay.Proofs.Text.Digits
import ImageRelay.Version.Semantic

/-!
# What a semantic version is

The versions of the standard, with numbers of 64 bits, said without the reader (`Semantic.Proper`).
Each step of the reader takes what was written and leaves what follows (`number_eq_ok_iff`,
`identifiers_eq_ok_iff`, `announced_cases`, `announced_marked`); together they read exactly what
proper versions are written as (`parse_eq_ok_iff`), so a version that is read is written as it was.
The build metadata begin at the first plus (`Proper.takeWhile_text`).
-/

set_option autoImplicit false

namespace ImageRelay

namespace Semantic

/-! ## Forms -/

/-- An identifier: letters, digits and hyphens. One of a pre-release that is a number has no zero
before it. -/
structure Identifier (part : Part) (s : List Char) : Prop where
  ne_nil : s ≠ []
  chars : ∀ c ∈ s, c.isAlphanum = true ∨ c = '-'
  canonical : part = .pre → (∀ c ∈ s, c.isDigit = true) → s.length = 1 ∨ s.head? ≠ some '0'

/-- The identifiers of a part with dots between them, none where the version has no such part. -/
def Identifiers (part : Part) (s : List Char) : Prop :=
  s = [] ∨ Text.Joined '.' (Identifier part) s

/-- A version of the standard whose numbers fit in 64 bits. -/
structure Proper (v : Semantic) : Prop where
  major : v.major < UInt64.size
  minor : v.minor < UInt64.size
  patch : v.patch < UInt64.size
  pre : Identifiers .pre v.pre
  build : Identifiers .build v.build

/-- The text of such a version. -/
def IsVersion (s : List Char) : Prop := ∃ v : Semantic, v.Proper ∧ s = v.text

/-- What is written of a part: nothing where there is none, else its sign and its identifiers. -/
def marked (sign : Char) (s : List Char) : List Char := if s.isEmpty then [] else sign :: s

theorem text_eq (v : Semantic) : v.text = Nat.toDigits 10 v.major ++ '.' ::
    (Nat.toDigits 10 v.minor ++ '.' :: (Nat.toDigits 10 v.patch ++
      (marked '-' v.pre ++ marked '+' v.build))) := by
  change (toString v.major ++ "." ++ toString v.minor ++ "." ++ toString v.patch).toList
    ++ marked '-' v.pre ++ marked '+' v.build = _
  simp only [String.toList_append, Nat.toString_eq_repr, Nat.toList_repr, List.append_assoc]
  rfl

theorem head?_marked {sign c : Char} {s : List Char} (h : c ∈ (marked sign s).head?) :
    c = sign := by
  cases s with
  | nil => cases h
  | cons d s => exact (Option.some.inj h).symm

/-! ## Numbers -/

theorem hasLeadingZero_eq_false_iff {ds : List Char} (hne : ds ≠ []) :
    hasLeadingZero ds = false ↔ ds.length = 1 ∨ ds.head? ≠ some '0' := by
  have hpos := List.length_pos_iff.2 hne
  simp only [hasLeadingZero, Bool.and_eq_false_iff, beq_eq_false_iff_ne, decide_eq_false_iff_not]
  constructor
  · rintro (h | h)
    · exact .inr h
    · exact .inl (by omega)
  · rintro (h | h)
    · exact .inr (by omega)
    · exact .inl h

theorem not_hasLeadingZero_toDigits (n : Nat) : hasLeadingZero (Nat.toDigits 10 n) = false := by
  rw [hasLeadingZero_eq_false_iff Nat.toDigits_ne_nil]
  by_cases hn : n = 0
  · subst hn
    exact .inl rfl
  · exact .inr (Text.head?_toDigits hn)

/-- A number is read as far as its digits go, and the digits are those that it is written with. -/
theorem number_eq_ok_iff {part : Part} {s r : List Char} {n : Nat} :
    number part s = .ok (n, r) ↔ n < UInt64.size ∧ s = Nat.toDigits 10 n ++ r ∧
      ∀ c ∈ r.head?, c.isDigit = false := by
  constructor
  · intro h
    obtain ⟨hs, hdigits, hrest⟩ := (Text.span_eq_iff (s := s) (p := Char.isDigit)).1 ⟨rfl, rfl⟩
    unfold number at h
    simp only at h
    split at h
    · split at h <;> cases h
    split at h
    · cases h
    split at h
    · cases h
    · rename_i hempty hzero hlarge
      have hne : s.takeWhile Char.isDigit ≠ [] := by simpa using hempty
      have hz := (hasLeadingZero_eq_false_iff hne).1 (by simpa using hzero)
      have hwritten := Text.toDigits_ofDigitChars hne hdigits hz
      cases h
      refine ⟨Nat.lt_of_not_le hlarge, ?_, hrest⟩
      rw [show numberOf = fun ds => Nat.ofDigitChars 10 ds 0 from rfl, hwritten]
      exact hs
  · rintro ⟨hn, rfl, hr⟩
    obtain ⟨htake, hdrop⟩ := Text.span_eq_iff.2
      ⟨rfl, fun c (hc : c ∈ Nat.toDigits 10 n) => Text.digit_of_mem_toDigits hc, hr⟩
    have hvalue : numberOf (Nat.toDigits 10 n) = n := Nat.ofDigitChars_ten_toDigits
    have hsmall : ¬n ≥ UInt64.size := Nat.not_le_of_lt hn
    simp [number, htake, hdrop, not_hasLeadingZero_toDigits, hvalue, hsmall, Nat.toDigits_ne_nil]

theorem dot_eq_ok_iff {part : Part} {s r : List Char} : dot part s = .ok r ↔ s = '.' :: r := by
  cases s with
  | nil => simp [dot]
  | cons c s =>
    by_cases hc : c = '.' <;> simp [dot, hc]

/-! ## Identifiers -/

theorem segmentFault?_eq_none_iff {part : Part} {s : List Char}
    (hs : ∀ c ∈ s, c.isAlphanum = true ∨ c = '-') :
    segmentFault? part s = none ↔ Identifier part s := by
  unfold segmentFault?
  split
  · rename_i hempty
    constructor
    · intro h
      cases h
    · intro h
      exact absurd (List.isEmpty_iff.1 hempty) h.ne_nil
  · rename_i hempty
    have hne : s ≠ [] := by simpa using hempty
    split
    · rename_i hzero
      simp only [Bool.and_eq_true, decide_eq_true_eq, List.all_eq_true] at hzero
      obtain ⟨⟨hpre, hdigits⟩, hzero⟩ := hzero
      constructor
      · intro h
        cases h
      · intro h
        have hno := (hasLeadingZero_eq_false_iff hne).2 (h.canonical hpre hdigits)
        rw [hzero] at hno
        cases hno
    · rename_i hzero
      simp only [Bool.and_eq_true, decide_eq_true_eq, List.all_eq_true, not_and,
        Bool.not_eq_true] at hzero
      refine ⟨fun _ => ⟨hne, hs, fun hpre hdigits => ?_⟩, fun _ => rfl⟩
      exact (hasLeadingZero_eq_false_iff hne).1 (hzero ⟨hpre, hdigits⟩)

theorem Identifier.dot_not_mem {part : Part} {s : List Char} (h : Identifier part s) :
    '.' ∉ s := fun hdot => absurd (h.chars '.' hdot) (by decide)

/-- A character of identifiers or between them. -/
def isJoinedChar (c : Char) : Bool := isIdentifierChar c || c == '.'

theorem isJoinedChar_iff {c : Char} :
    isJoinedChar c = true ↔ (c.isAlphanum = true ∨ c = '-') ∨ c = '.' := by
  simp [isJoinedChar, isIdentifierChar]

theorem isJoinedChar_of_joined {part : Part} {s : List Char}
    (h : Text.Joined '.' (Identifier part) s) : ∀ c ∈ s, isJoinedChar c = true :=
  h.forall rfl fun _ hp c hc => isJoinedChar_iff.2 (.inl (hp.chars c hc))

theorem findSome?_segmentFault?_eq_none_iff {part : Part} {s : List Char}
    (hs : ∀ c ∈ s, isJoinedChar c = true) :
    (Text.splitAll '.' s).findSome? (segmentFault? part) = none ↔
      Text.Joined '.' (Identifier part) s := by
  rw [Text.joined_iff fun _ => Identifier.dot_not_mem, List.findSome?_eq_none_iff]
  refine forall₂_congr fun p hp => segmentFault?_eq_none_iff fun c hc => ?_
  rw [Text.splitAll_eq_splitOn] at hp
  have hne : c ≠ '.' := fun heq => Text.not_mem_of_mem_splitOn hp (heq ▸ hc)
  have hmem : c ∈ s := by
    have hin := (Text.mem_intercalate_of_ne hne).2 ⟨p, hp, hc⟩
    rwa [List.intercalate_splitOn] at hin
  exact (isJoinedChar_iff.1 (hs c hmem)).resolve_right hne

/-- Identifiers are read as far as their characters go. -/
theorem identifiers_eq_ok_iff {part : Part} {s t r : List Char} :
    identifiers part s = .ok (t, r) ↔ s = t ++ r ∧ Text.Joined '.' (Identifier part) t ∧
      ∀ c ∈ r.head?, isJoinedChar c = false := by
  have hchars : (fun c => isIdentifierChar c || c == '.') = isJoinedChar := rfl
  unfold identifiers
  simp only [hchars]
  constructor
  · intro h
    obtain ⟨hs, hall, hrest⟩ := (Text.span_eq_iff (s := s) (p := isJoinedChar)).1 ⟨rfl, rfl⟩
    split at h
    · cases h
    · rename_i hnone
      have hdrop : s.drop (s.takeWhile isJoinedChar).length = s.dropWhile isJoinedChar := by
        have hcut := congrArg (List.drop (s.takeWhile isJoinedChar).length) hs
        rwa [List.drop_left] at hcut
      rw [hdrop] at h
      cases h
      exact ⟨hs, (findSome?_segmentFault?_eq_none_iff hall).1 hnone, hrest⟩
  · rintro ⟨rfl, hjoined, hr⟩
    have hall := isJoinedChar_of_joined hjoined
    obtain ⟨htake, -⟩ := Text.span_eq_iff.2 ⟨rfl, hall, hr⟩
    rw [htake, (findSome?_segmentFault?_eq_none_iff hall).2 hjoined, List.drop_left]

theorem Identifiers.ne_nil_of_joined {part : Part} {s : List Char}
    (h : Text.Joined '.' (Identifier part) s) : s ≠ [] := by
  rintro rfl
  have hnil := (Text.joined_iff fun _ => Identifier.dot_not_mem).1 h [] List.mem_cons_self
  exact hnil.ne_nil rfl

theorem announced_cases {sign : Char} {part last q : Part} {s t r : List Char}
    (h : announced sign part last s = .ok (t, q, r)) :
    s = marked sign t ++ r ∧ Identifiers part t := by
  cases s with
  | nil =>
    cases h
    exact ⟨rfl, .inl rfl⟩
  | cons c s =>
    rw [announced] at h
    split at h
    · subst c
      cases hi : identifiers part s with
      | error fault =>
        rw [hi] at h
        cases h
      | ok tr =>
        rw [hi] at h
        cases h
        obtain ⟨rfl, hjoined, -⟩ := identifiers_eq_ok_iff.1 hi
        have hne := Identifiers.ne_nil_of_joined hjoined
        exact ⟨by simp [marked, hne], .inr hjoined⟩
    · cases h
      exact ⟨rfl, .inl rfl⟩

theorem announced_marked {sign : Char} {part : Part} (last : Part) {t r : List Char}
    (ht : Identifiers part t) (hr : ∀ c ∈ r.head?, c ≠ sign ∧ isJoinedChar c = false) :
    ∃ q, announced sign part last (marked sign t ++ r) = .ok (t, q, r) := by
  rcases ht with rfl | hjoined
  · refine ⟨last, ?_⟩
    cases r with
    | nil => rfl
    | cons c r => exact if_neg (hr c rfl).1
  · have hi := identifiers_eq_ok_iff.2 ⟨rfl, hjoined, fun c hc => (hr c hc).2⟩
    have hne := Identifiers.ne_nil_of_joined hjoined
    refine ⟨part, ?_⟩
    simp [marked, hne, announced, hi, Except.map]

/-! ## Versions -/

theorem Proper.of_parse {s : List Char} {v : Semantic} (h : parse s = .ok v) :
    v.Proper ∧ s = v.text := by
  unfold parse at h
  split at h
  · cases h
  obtain ⟨⟨major, s₁⟩, hmajor, h⟩ := bind_eq_ok_iff.1 h
  obtain ⟨s₂, hdot, h⟩ := bind_eq_ok_iff.1 h
  obtain ⟨⟨minor, s₃⟩, hminor, h⟩ := bind_eq_ok_iff.1 h
  obtain ⟨s₄, hdot', h⟩ := bind_eq_ok_iff.1 h
  obtain ⟨⟨patch, s₅⟩, hpatch, h⟩ := bind_eq_ok_iff.1 h
  obtain ⟨⟨pre, last, s₆⟩, hpre, h⟩ := bind_eq_ok_iff.1 h
  obtain ⟨⟨build, last', s₇⟩, hbuild, h⟩ := bind_eq_ok_iff.1 h
  cases s₇ with
  | cons c r => cases h
  | nil =>
    cases h
    obtain ⟨hmajor_lt, rfl, -⟩ := number_eq_ok_iff.1 hmajor
    obtain rfl := dot_eq_ok_iff.1 hdot
    obtain ⟨hminor_lt, rfl, -⟩ := number_eq_ok_iff.1 hminor
    obtain rfl := dot_eq_ok_iff.1 hdot'
    obtain ⟨hpatch_lt, rfl, -⟩ := number_eq_ok_iff.1 hpatch
    obtain ⟨rfl, hpres⟩ := announced_cases hpre
    obtain ⟨rfl, hbuilds⟩ := announced_cases hbuild
    exact ⟨⟨hmajor_lt, hminor_lt, hpatch_lt, hpres, hbuilds⟩, by rw [text_eq, List.append_nil]⟩

theorem Proper.parse_text {v : Semantic} (h : v.Proper) : parse v.text = .ok v := by
  -- none of the signs is a digit, and no plus could go on with a pre-release
  have hdot (r : List Char) : ∀ c ∈ ('.' :: r).head?, c.isDigit = false := by
    rintro c ⟨⟩
    rfl
  have hbehind : ∀ c ∈ (marked '-' v.pre ++ marked '+' v.build).head?, c.isDigit = false := by
    intro c hc
    rw [List.head?_append] at hc
    rcases Option.or_eq_some_iff.1 hc with hc | ⟨-, hc⟩
    · rw [head?_marked hc]
      rfl
    · rw [head?_marked hc]
      rfl
  have hplus : ∀ c ∈ (marked '+' v.build).head?, c ≠ '-' ∧ isJoinedChar c = false := by
    intro c hc
    rw [head?_marked hc]
    decide
  obtain ⟨last, hpre⟩ := announced_marked .patch h.pre hplus
  obtain ⟨last', hbuild⟩ : ∃ q, announced '+' .build last (marked '+' v.build ++ []) =
    .ok (v.build, q, []) := announced_marked last h.build (by simp)
  rw [List.append_nil] at hbuild
  rw [text_eq, parse, if_neg (by simp)]
  refine bind_eq_ok_iff.2 ⟨_, number_eq_ok_iff.2 ⟨h.major, rfl, hdot _⟩, ?_⟩
  refine bind_eq_ok_iff.2 ⟨_, dot_eq_ok_iff.2 rfl, ?_⟩
  refine bind_eq_ok_iff.2 ⟨_, number_eq_ok_iff.2 ⟨h.minor, rfl, hdot _⟩, ?_⟩
  refine bind_eq_ok_iff.2 ⟨_, dot_eq_ok_iff.2 rfl, ?_⟩
  refine bind_eq_ok_iff.2 ⟨_, number_eq_ok_iff.2 ⟨h.patch, rfl, hbehind⟩, ?_⟩
  exact bind_eq_ok_iff.2 ⟨_, hpre, bind_eq_ok_iff.2 ⟨_, hbuild, rfl⟩⟩

/-- Exactly the texts of proper versions are read, and as what they were written from. -/
theorem parse_eq_ok_iff {s : List Char} {v : Semantic} :
    parse s = .ok v ↔ v.Proper ∧ s = v.text :=
  ⟨Proper.of_parse, fun ⟨h, hs⟩ => hs ▸ h.parse_text⟩

theorem isVersion_iff {s : List Char} : IsVersion s ↔ ∃ v, parse s = .ok v := by
  simp only [IsVersion, parse_eq_ok_iff]

/-! ## Characters -/

/-- A version without its build metadata. -/
def bare (v : Semantic) : Semantic := { v with build := [] }

theorem text_eq_bare (v : Semantic) : v.text = v.bare.text ++ marked '+' v.build := by
  rw [text_eq, text_eq]
  simp [bare, marked]

theorem Proper.bare {v : Semantic} (h : v.Proper) : v.bare.Proper :=
  ⟨h.major, h.minor, h.patch, h.pre, .inl rfl⟩

theorem Identifiers.forall {part : Part} {s : List Char} (h : Identifiers part s) :
    ∀ c ∈ s, isJoinedChar c = true := by
  rcases h with rfl | h
  · simp
  · exact isJoinedChar_of_joined h

/-- Everything before the build metadata is letters, digits, hyphens and dots. -/
theorem Proper.isJoinedChar_of_mem {v : Semantic} (h : v.Proper) :
    ∀ c ∈ v.bare.text, isJoinedChar c = true := by
  have hdigits (n : Nat) : ∀ c ∈ Nat.toDigits 10 n, isJoinedChar c = true := by
    intro c hc
    have hdigit := Text.digit_of_mem_toDigits hc
    exact isJoinedChar_iff.2 (.inl (.inl (Text.isAlphanum_of_isDigit hdigit)))
  have hpre : ∀ c ∈ marked '-' v.pre, isJoinedChar c = true := by
    unfold marked
    split
    · simp
    · simpa using ⟨by decide, h.pre.forall⟩
  have hnone : marked '+' v.bare.build = [] := rfl
  rw [text_eq, hnone, List.append_nil]
  intro c hc
  simp only [List.mem_append, List.mem_cons] at hc
  rcases hc with hc | rfl | hc | rfl | hc | hc
  · exact hdigits _ c hc
  · decide
  · exact hdigits _ c hc
  · decide
  · exact hdigits _ c hc
  · exact hpre c hc

/-- A version is cut at its first plus where its build metadata begins. -/
theorem Proper.takeWhile_text {v : Semantic} (h : v.Proper) :
    v.text.takeWhile (· != '+') = v.bare.text := by
  refine (Text.span_eq_iff.2 ⟨v.text_eq_bare, fun c hc => ?_, fun c hc => ?_⟩).1
  · have hjoined := h.isJoinedChar_of_mem c hc
    rw [bne_iff_ne]
    rintro rfl
    exact absurd hjoined (by decide)
  · rw [head?_marked hc]
    rfl

theorem IsVersion.takeWhile {s : List Char} (h : IsVersion s) :
    IsVersion (s.takeWhile (· != '+')) := by
  obtain ⟨v, hv, rfl⟩ := h
  exact ⟨v.bare, hv.bare, hv.takeWhile_text⟩

theorem IsVersion.forall {s : List Char} (h : IsVersion s) :
    ∀ c ∈ s, isJoinedChar c = true ∨ c = '+' := by
  obtain ⟨v, hv, rfl⟩ := h
  intro c hc
  rw [text_eq_bare, List.mem_append] at hc
  rcases hc with hc | hc
  · exact .inl (hv.isJoinedChar_of_mem c hc)
  · unfold marked at hc
    split at hc
    · cases hc
    · rcases List.mem_cons.1 hc with rfl | hc
      · exact .inr rfl
      · exact .inl (hv.build.forall c hc)

theorem IsVersion.exists_cons {s : List Char} (h : IsVersion s) :
    ∃ d r, s = d :: r ∧ d.isDigit = true := by
  obtain ⟨v, -, rfl⟩ := h
  rw [text_eq]
  cases hd : Nat.toDigits 10 v.major with
  | nil => exact absurd hd Nat.toDigits_ne_nil
  | cons d ds =>
    exact ⟨d, _, rfl, Text.digit_of_mem_toDigits (n := v.major) (hd ▸ List.mem_cons_self)⟩

end Semantic

end ImageRelay
