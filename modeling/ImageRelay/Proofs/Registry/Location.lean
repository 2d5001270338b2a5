import ImageRelay.Registry.Location
import Mathlib.Data.List.TakeWhile

/-!
# Values that are locations

`Location.ofValue?` is what a value stands for: the value is `stripped`, and if that is not
`Malformed`, its host ends at the first slash. `Location.ofValue?_eq_some_iff` says the same by the
text of the location, and `Location.parse_eq` that locations are read so.
-/

set_option autoImplicit false

namespace ImageRelay

namespace Text

theorem getLast?_dropTrailing {α : Type} [DecidableEq α] (a : α) (s : List α) :
    (dropTrailing a s).getLast? ≠ some a := by
  rw [dropTrailing, List.getLast?_reverse]
  intro h
  have hd := List.head?_dropWhile_not (· == a) s.reverse
  rw [h] at hd
  simp at hd

end Text

namespace Location

/-- A value without the blanks at its start, and then, read backwards, without those at its end and
without the slashes before them. -/
def stripped (value : String) : List Char :=
  (((value.toList.dropWhile Text.isBlank).reverse.dropWhile Text.isBlank).dropWhile
    (· == '/')).reverse

theorem stripped_eq (value : String) :
    stripped value = Text.dropTrailing '/' (Text.trim value.toList) := by
  rw [stripped, Text.dropTrailing, Text.trim, Text.trimEnd, Text.trimStart, List.reverse_reverse]

/-- A stripped value that is no location: it is empty, begins with a slash, or has a blank in it. -/
def Malformed (s : List Char) : Prop := s = [] ∨ s.head? = some '/' ∨ ∃ c ∈ s, Text.isBlank c = true

instance (s : List Char) : Decidable (Malformed s) := inferInstanceAs (Decidable (_ ∨ _ ∨ _))

def chars (l : Location) : List Char := if l.path = [] then l.host else l.host ++ '/' :: l.path

/-- The location that a stripped value is cut into: the host is what comes before the first slash,
and the path what comes behind it. -/
def cut (s : List Char) : Location := ⟨s.takeWhile (· != '/'), (s.dropWhile (· != '/')).tail⟩

theorem cut_of_not_mem {s : List Char} (h : '/' ∉ s) : cut s = ⟨s, []⟩ := by
  have hall : ∀ c ∈ s, (c != '/') = true := fun c hc => bne_iff_ne.2 fun he => h (he ▸ hc)
  rw [cut, List.takeWhile_eq_self_iff.2 hall, List.dropWhile_eq_nil_iff.2 hall, List.tail_nil]

theorem cut_append {host : List Char} (h : '/' ∉ host) (path : List Char) :
    cut (host ++ '/' :: path) = ⟨host, path⟩ := by
  have hall : ∀ c ∈ host, (c != '/') = true := fun c hc => bne_iff_ne.2 fun he => h (he ▸ hc)
  rw [cut, List.takeWhile_append_of_pos hall, List.dropWhile_append_of_pos hall]
  simp

/-- A text that does not end in a slash is cut at the first slash in it. -/
theorem cut_eq_iff {s : List Char} (hs : s.getLast? ≠ some '/') {l : Location} :
    cut s = l ↔ s = l.chars ∧ '/' ∉ l.host := by
  constructor
  · rintro rfl
    cases hcut : Text.splitOnce '/' s with
    | none =>
      have hno := Text.splitOnce_eq_none_iff.1 hcut
      rw [cut_of_not_mem hno]
      exact ⟨rfl, hno⟩
    | some parts =>
      obtain ⟨host, path⟩ := parts
      obtain ⟨rfl, hno⟩ := Text.splitOnce_eq_some_iff.1 hcut
      -- the slash at which it is cut is not its last character
      have hpath : path ≠ [] := by
        rintro rfl
        simp at hs
      rw [cut_append hno]
      exact ⟨(if_neg hpath).symm, hno⟩
  · rintro ⟨rfl, hno⟩
    obtain ⟨host, path⟩ := l
    by_cases hpath : path = []
    · subst hpath
      exact cut_of_not_mem hno
    · rw [chars, if_neg hpath]
      exact cut_append hno path

/-- What a value stands for: nothing if it is malformed, and otherwise what it is cut into. -/
def ofValue? (value : String) : Option Location :=
  if Malformed (stripped value) then none else some (cut (stripped value))

/-- A value that is not malformed stands for the location that is written so, and whose host has no
slash in it. -/
theorem ofValue?_eq_some_iff {value : String} {l : Location} : ofValue? value = some l ↔
    ¬ Malformed (stripped value) ∧ stripped value = l.chars ∧ '/' ∉ l.host := by
  have hlast : (stripped value).getLast? ≠ some '/' := by
    rw [stripped_eq]
    exact Text.getLast?_dropTrailing '/' _
  rw [← cut_eq_iff hlast, ofValue?]
  split <;> simp_all

theorem parse_eq (value : String) : parse value = ofValue? value := by
  have hcond : ((stripped value).isEmpty || (stripped value).head? == some '/' ||
      (stripped value).any Text.isBlank) = true ↔ Malformed (stripped value) := by
    simp [Malformed, or_assoc]
  by_cases hm : Malformed (stripped value)
  · simp only [parse, ofValue?, ← stripped_eq, if_pos hm, if_pos (hcond.2 hm)]
  · simp only [parse, ofValue?, ← stripped_eq, if_neg hm, if_neg (mt hcond.1 hm)]
    cases hsplit : Text.splitOnce '/' (stripped value) with
    | none => rw [cut_of_not_mem (Text.splitOnce_eq_none_iff.1 hsplit)]
    | some parts =>
      obtain ⟨hs, hno⟩ := Text.splitOnce_eq_some_iff.1 hsplit
      rw [hs, cut_append hno]

theorem parse_eq_none_iff {value : String} : parse value = none ↔ Malformed (stripped value) := by
  rw [parse_eq, ofValue?]
  split <;> simp_all

end Location

end ImageRelay
