/-!
# Blank characters

The characters with the Unicode property White_Space, and the removal of blanks from the ends of a
text. Every place that says "trimmed" means this trimming.

## Main statements
* `trim_eq_self`: a text that neither begins nor ends with a blank is left as it is.
* `trim_trim`: a text that was trimmed is left as it is.
* `trim_eq_nil_iff`: nothing is left of a text of blanks, and of no other.
* `trim_append_blanks`: blanks around a text make no difference.
-/

set_option autoImplicit false

namespace ImageRelay.Text

/-- The property White_Space of Unicode. -/
def isBlank (c : Char) : Bool :=
  let n := c.toNat
  (0x09 ≤ n && n ≤ 0x0D) || n == 0x20 || n == 0x85 || n == 0xA0 || n == 0x1680 ||
    (0x2000 ≤ n && n ≤ 0x200A) || n == 0x2028 || n == 0x2029 || n == 0x202F || n == 0x205F ||
    n == 0x3000

/-- The text without the blanks at its start. -/
def trimStart (s : List Char) : List Char := s.dropWhile isBlank

/-- The text without the blanks at its end. -/
def trimEnd (s : List Char) : List Char := (s.reverse.dropWhile isBlank).reverse

/-- The text without the blanks at both ends. -/
def trim (s : List Char) : List Char := trimEnd (trimStart s)

/-- `trim` on strings. -/
def trimmed (s : String) : String := String.ofList (trim s.toList)

theorem toList_trimmed (s : String) : (trimmed s).toList = trim s.toList := String.toList_ofList

theorem trimStart_eq_self {s : List Char} (h : ∀ c ∈ s.head?, isBlank c = false) :
    trimStart s = s := by
  cases s with
  | nil => rfl
  | cons c r => simp [trimStart, h c (by simp)]

theorem trimEnd_eq_self {s : List Char} (h : ∀ c ∈ s.getLast?, isBlank c = false) :
    trimEnd s = s := by
  have hr : ∀ c ∈ s.reverse.head?, isBlank c = false := by simpa using h
  have := trimStart_eq_self hr
  simp only [trimStart] at this
  simp [trimEnd, this]

theorem trim_eq_self {s : List Char} (hs : ∀ c ∈ s.head?, isBlank c = false)
    (he : ∀ c ∈ s.getLast?, isBlank c = false) : trim s = s := by
  rw [trim, trimStart_eq_self hs, trimEnd_eq_self he]

theorem not_isBlank_head?_trimStart (s : List Char) :
    ∀ c ∈ (trimStart s).head?, isBlank c = false := by
  intro c hc
  have hhead := List.head?_dropWhile_not isBlank s
  rw [trimStart] at hc
  rwa [hc] at hhead

theorem not_isBlank_head?_trim (s : List Char) : ∀ c ∈ (trim s).head?, isBlank c = false := by
  intro c hc
  -- what is trimmed at its end begins as before
  obtain ⟨after, hprefix⟩ : trimEnd (trimStart s) <+: trimStart s :=
    List.reverse_suffix.1 (by rw [trimEnd, List.reverse_reverse]; exact List.dropWhile_suffix _)
  refine not_isBlank_head?_trimStart s c ?_
  rw [← hprefix, List.head?_append]
  exact Option.or_eq_some_iff.2 (.inl hc)

theorem not_isBlank_getLast?_trim (s : List Char) :
    ∀ c ∈ (trim s).getLast?, isBlank c = false := by
  intro c hc
  rw [trim, trimEnd, List.getLast?_reverse] at hc
  exact not_isBlank_head?_trimStart _ c hc

theorem trim_trim (s : List Char) : trim (trim s) = trim s :=
  trim_eq_self (not_isBlank_head?_trim s) (not_isBlank_getLast?_trim s)

theorem trimEnd_append_blanks {after : List Char} (h : ∀ c ∈ after, isBlank c = true)
    (s : List Char) : trimEnd (s ++ after) = trimEnd s := by
  have hr : ∀ c ∈ after.reverse, isBlank c = true := by simpa using h
  rw [trimEnd, trimEnd, List.reverse_append, List.dropWhile_append_of_pos hr]

theorem trim_append_blanks {before after : List Char} (hb : ∀ c ∈ before, isBlank c = true)
    (ha : ∀ c ∈ after, isBlank c = true) (s : List Char) :
    trim (before ++ s ++ after) = trim s := by
  rw [trim, trim, trimStart, trimStart, List.append_assoc, List.dropWhile_append_of_pos hb,
    List.dropWhile_append]
  split
  · -- the text is blank itself
    rename_i hs
    have hnone : (after ++ []).dropWhile isBlank = [] := List.dropWhile_append_of_pos ha
    rw [List.append_nil] at hnone
    rw [hnone, List.isEmpty_iff.1 hs]
  · exact trimEnd_append_blanks ha _

theorem isBlank_of_mem_takeWhile {s : List Char} : ∀ c ∈ s.takeWhile isBlank, isBlank c = true :=
  List.all_eq_true.1 List.all_takeWhile

theorem exists_blanks_behind (s : List Char) :
    ∃ after, (∀ c ∈ after, isBlank c = true) ∧ s = trimEnd s ++ after := by
  refine ⟨(s.reverse.takeWhile isBlank).reverse,
    fun c hc => isBlank_of_mem_takeWhile c (List.mem_reverse.1 hc), ?_⟩
  rw [trimEnd, ← List.reverse_append, List.takeWhile_append_dropWhile, List.reverse_reverse]

/-- Blanks are left out at both ends, and nothing else. -/
theorem exists_blanks (s : List Char) : ∃ before after, (∀ c ∈ before, isBlank c = true) ∧
    (∀ c ∈ after, isBlank c = true) ∧ s = before ++ trim s ++ after := by
  obtain ⟨after, ha, hend⟩ := exists_blanks_behind (trimStart s)
  refine ⟨s.takeWhile isBlank, after, isBlank_of_mem_takeWhile, ha, ?_⟩
  rw [List.append_assoc, trim, ← hend, trimStart, List.takeWhile_append_dropWhile]

theorem trim_trimEnd (s : List Char) : trim (trimEnd s) = trim s := by
  obtain ⟨after, ha, hend⟩ := exists_blanks_behind s
  have htrim : trim ([] ++ trimEnd s ++ after) = trim (trimEnd s) :=
    trim_append_blanks (by simp) ha _
  rw [← htrim, List.nil_append, ← hend]

/-- Blanks at the end are left out up to the last character that is none. -/
theorem trimEnd_append_cons {c : Char} (hc : isBlank c = false) (s t : List Char) :
    trimEnd (s ++ c :: t) = s ++ c :: trimEnd t := by
  obtain ⟨after, ha, hend⟩ := exists_blanks_behind t
  have hlast : trimEnd (s ++ c :: trimEnd t) = s ++ c :: trimEnd t := by
    refine trimEnd_eq_self fun x hx => ?_
    rw [List.getLast?_append, List.getLast?_cons] at hx
    cases ht : (trimEnd t).getLast? with
    | none =>
      rw [ht] at hx
      cases hx
      exact hc
    | some y =>
      rw [ht] at hx
      obtain rfl : y = x := Option.some.inj hx
      rw [trimEnd, List.getLast?_reverse] at ht
      exact not_isBlank_head?_trimStart _ y ht
  have heq : s ++ c :: t = s ++ c :: trimEnd t ++ after := by
    rw [List.append_assoc, List.cons_append, ← hend]
  rw [heq, trimEnd_append_blanks ha, hlast]

theorem trim_eq_nil_iff {s : List Char} : trim s = [] ↔ ∀ c ∈ s, isBlank c = true := by
  constructor
  · intro h c hc
    obtain ⟨before, after, hb, ha, heq⟩ := exists_blanks s
    rw [heq, h, List.append_nil, List.mem_append] at hc
    exact hc.elim (hb c) (ha c)
  · intro h
    have hnil : trim (s ++ [] ++ []) = trim [] := trim_append_blanks h (by simp) []
    rwa [List.append_nil, List.append_nil] at hnil

end ImageRelay.Text
