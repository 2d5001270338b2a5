import ImageRelay.Text.Blank
import ImageRelay.Text.Split
import Mathlib.Data.List.Basic

/-!
# Lines and the blanks around them

Who takes a text line by line and leaves the blanks around a line out does not see how lines end,
nor whether the last one does: what is made of the lines is made of the pieces between the line
feeds (`filterMap_lines`).

* `Tight`: a text that is not blank, without blanks around it.
* `tightLines`: the lines of a text that are not blank, without the blanks around them.
* `tightLines_append`, `tightLines_trim`: line by line, and without regard to the blanks at both
  ends of the text.
* `infix_of_mem_tightLines`: the text contains each of them.
-/

set_option autoImplicit false

namespace ImageRelay.Text

/-! ## Pieces of a text -/

section
variable {α β : Type} [DecidableEq α]

theorem apply_dropLastOf {f : List α → β} {a : α} (h : ∀ l, f (l ++ [a]) = f l) (s : List α) :
    f (dropLastOf a s) = f s := by
  unfold dropLastOf
  split
  · rename_i hlast
    obtain ⟨l, rfl⟩ := List.getLast?_eq_some_iff.1 hlast
    rw [List.dropLast_concat, h]
  · rfl

theorem filterMap_lines {f : List α → Option β} {lf cr : α} (hcr : ∀ l, f (l ++ [cr]) = f l)
    (hnil : f [] = none) (s : List α) :
    (lines lf cr s).filterMap f = (s.splitOn lf).filterMap f := by
  have hlast : (s.splitOn lf).dropLast ++ [(s.splitOn lf).getLastD []] = s.splitOn lf := by
    rw [List.getLastD_eq_getLast?, List.getLast?_eq_some_getLast (List.splitOn_ne_nil lf s)]
    exact List.dropLast_concat_getLast _
  rw [lines, splitAll_eq_splitOn]
  conv_rhs => rw [← hlast]
  rw [List.filterMap_append, List.filterMap_append, List.filterMap_map]
  congr 1
  · exact List.filterMap_congr fun l _ => apply_dropLastOf hcr l
  · split
    · rename_i he
      rw [List.isEmpty_iff.1 he]
      simp [hnil]
    · rfl

/-- No line contains the end of one. -/
theorem not_mem_of_mem_lines {lf cr : α} {l s : List α} (h : l ∈ lines lf cr s) : lf ∉ l := by
  have hpiece {p : List α} (hp : p ∈ splitAll lf s) : lf ∉ p :=
    not_mem_of_mem_splitOn (splitAll_eq_splitOn lf s ▸ hp)
  rcases List.mem_append.1 h with h | h
  · obtain ⟨p, hp, rfl⟩ := List.mem_map.1 h
    have hsub : dropLastOf cr p ⊆ p := by
      unfold dropLastOf
      split
      · exact List.dropLast_subset p
      · exact List.Subset.refl p
    exact fun hlf => hpiece (List.dropLast_subset _ hp) (hsub hlf)
  · split at h
    · cases h
    · rw [List.mem_singleton.1 h, List.getLastD_eq_getLast?]
      cases hlast : (splitAll lf s).getLast? with
      | none => exact List.not_mem_nil
      | some p => exact hpiece (List.mem_of_getLast? hlast)

/-- A symbol in front that the function ignores makes no difference, whether it is a cut or not. -/
theorem filterMap_splitOn_cons {f : List α → Option β} {a c : α} (hc : ∀ l, f (c :: l) = f l)
    (hnil : f [] = none) (s : List α) :
    ((c :: s).splitOn a).filterMap f = (s.splitOn a).filterMap f := by
  rw [List.splitOn_cons_eq_if_modifyHead]
  split
  · rw [List.filterMap_cons, hnil]
  · cases hs : s.splitOn a with
    | nil => exact absurd hs (List.splitOn_ne_nil _ _)
    | cons p ps => rw [List.modifyHead_cons, List.filterMap_cons, List.filterMap_cons, hc]

/-- Every text is one piece or has a cut between two texts. -/
theorem cut_induction {a : α} {P : List α → Prop} (piece : ∀ s, a ∉ s → P s)
    (cut : ∀ s t, P s → P t → P (s ++ a :: t)) (s : List α) : P s := by
  cases h : splitOnce a s with
  | none => exact piece s (splitOnce_eq_none_iff.1 h)
  | some parts =>
    obtain ⟨before, after⟩ := parts
    obtain ⟨rfl, hbefore⟩ := splitOnce_eq_some_iff.1 h
    exact cut before after (piece before hbefore) (cut_induction piece cut after)
termination_by s.length
decreasing_by
  subst_vars
  rw [List.length_append, List.length_cons]
  omega

theorem splitOn_concat_of_ne {a c : α} (hc : c ≠ a) (s : List α) :
    ∃ init last, s.splitOn a = init ++ [last] ∧ (s ++ [c]).splitOn a = init ++ [last ++ [c]] := by
  induction s with
  | nil => exact ⟨[], [], by simp, by simp [List.splitOn_cons_eq_if_modifyHead, hc]⟩
  | cons x s ih =>
    obtain ⟨init, last, hs, hsc⟩ := ih
    rw [List.cons_append, List.splitOn_cons_eq_if_modifyHead, List.splitOn_cons_eq_if_modifyHead,
      hs, hsc]
    split
    · exact ⟨[] :: init, last, rfl, rfl⟩
    · cases init with
      | nil => exact ⟨[], x :: last, rfl, rfl⟩
      | cons p init => exact ⟨(x :: p) :: init, last, rfl, rfl⟩

omit [DecidableEq α] in
theorem infix_intercalate (a : α) {p : List α} :
    ∀ {pieces : List (List α)}, p ∈ pieces → p <:+: [a].intercalate pieces
  | [q], h => by
    obtain rfl : p = q := by simpa using h
    exact ⟨[], [], by simp⟩
  | q :: r :: pieces, h => by
    rw [List.intercalate_cons_cons]
    rcases List.mem_cons.1 h with rfl | h
    · exact ⟨[], [a] ++ [a].intercalate (r :: pieces), by simp⟩
    · obtain ⟨before, after, heq⟩ := infix_intercalate a h
      exact ⟨q ++ [a] ++ before, after, by rw [← heq]; simp⟩

end

/-! ## Texts without blanks around them -/

/-- A text that is not blank, without blanks around it. -/
structure Tight (s : List Char) : Prop where
  ne_nil : s ≠ []
  trim_eq : trim s = s

theorem tight_trim {s : List Char} (h : trim s ≠ []) : Tight (trim s) := ⟨h, trim_trim s⟩

theorem trim_cons {c : Char} (hc : isBlank c = true) (s : List Char) : trim (c :: s) = trim s := by
  have htrim := @trim_append_blanks [c] [] (by simpa using hc) (by simp) s
  rwa [List.append_nil] at htrim

theorem trim_concat {c : Char} (hc : isBlank c = true) (s : List Char) :
    trim (s ++ [c]) = trim s :=
  @trim_append_blanks [] [c] (by simp) (by simpa using hc) s

/-- What is tight stays so behind a text that does not begin with a blank. -/
theorem Tight.append {s : List Char} (h : Tight s) {c : Char} (hc : isBlank c = false)
    (r : List Char) : trim (c :: (r ++ s)) = c :: (r ++ s) := by
  refine trim_eq_self (fun x hx => ?_) fun x hx => ?_
  · obtain rfl : c = x := by simpa using hx
    exact hc
  · rw [← List.cons_append, List.getLast?_append_of_ne_nil _ h.ne_nil, ← h.trim_eq] at hx
    exact not_isBlank_getLast?_trim s x hx

/-! ## Lines that are not blank -/

/-- A line without the blanks around it; none if it is blank. -/
def tight? (line : List Char) : Option (List Char) :=
  if trim line = [] then none else some (trim line)

/-- The lines of a text that are not blank, without the blanks around them. -/
def tightLines (s : List Char) : List (List Char) := (lines '\n' '\r' s).filterMap tight?

theorem tight?_congr {s t : List Char} (h : trim s = trim t) : tight? s = tight? t := by
  rw [tight?, tight?, h]

theorem tight?_eq_some_iff {s t : List Char} : tight? s = some t ↔ trim s = t ∧ t ≠ [] := by
  unfold tight?
  split
  · rename_i h
    rw [h]
    constructor
    · intro h
      cases h
    · rintro ⟨rfl, hne⟩
      exact absurd rfl hne
  · rename_i h
    rw [Option.some.injEq]
    exact ⟨fun ht => ⟨ht, ht ▸ h⟩, And.left⟩

theorem tight?_eq_none_iff {s : List Char} : tight? s = none ↔ trim s = [] := by
  simp [tight?]

theorem tightLines_eq (s : List Char) : tightLines s = (s.splitOn '\n').filterMap tight? :=
  filterMap_lines (fun l => tight?_congr (trim_concat (by decide) l)) rfl s

theorem tightLines_of_not_mem {s : List Char} (h : '\n' ∉ s) :
    tightLines s = (tight? s).toList := by
  rw [tightLines_eq, List.splitOn_eq_singleton h, List.filterMap_cons]
  cases tight? s <;> rfl

theorem tightLines_append (s t : List Char) :
    tightLines (s ++ '\n' :: t) = tightLines s ++ tightLines t := by
  rw [tightLines_eq, tightLines_eq, tightLines_eq, List.splitOn_append_cons_self,
    List.filterMap_append]

theorem tightLines_cons {c : Char} (hc : isBlank c = true) (s : List Char) :
    tightLines (c :: s) = tightLines s := by
  rw [tightLines_eq, tightLines_eq]
  exact filterMap_splitOn_cons (fun l => tight?_congr (trim_cons hc l)) rfl s

theorem tightLines_concat {c : Char} (hc : isBlank c = true) (s : List Char) :
    tightLines (s ++ [c]) = tightLines s := by
  by_cases hn : c = '\n'
  · subst hn
    rw [tightLines_append]
    exact List.append_nil _
  · obtain ⟨init, last, hs, hsc⟩ := splitOn_concat_of_ne hn s
    rw [tightLines_eq, tightLines_eq, hs, hsc, List.filterMap_append, List.filterMap_append,
      List.filterMap_cons, List.filterMap_cons, tight?_congr (trim_concat hc last)]

theorem tightLines_trim (s : List Char) : tightLines (trim s) = tightLines s := by
  have hstart : ∀ (before t : List Char), (∀ c ∈ before, isBlank c = true) →
      tightLines (before ++ t) = tightLines t := by
    intro before t hb
    induction before with
    | nil => rfl
    | cons c before ih =>
      rw [List.cons_append, tightLines_cons (hb c List.mem_cons_self),
        ih fun x hx => hb x (List.mem_cons_of_mem _ hx)]
  have hend : ∀ (after t : List Char), (∀ c ∈ after, isBlank c = true) →
      tightLines (t ++ after) = tightLines t := by
    intro after t ha
    induction after generalizing t with
    | nil => rw [List.append_nil]
    | cons c after ih =>
      rw [List.append_cons, ih _ fun x hx => ha x (List.mem_cons_of_mem _ hx),
        tightLines_concat (ha c List.mem_cons_self)]
  obtain ⟨before, after, hb, ha, heq⟩ := exists_blanks s
  conv_rhs => rw [heq]
  rw [hend after _ ha, hstart before _ hb]

/-- Only a blank text has no line that is not blank. -/
theorem tightLines_eq_nil_iff {s : List Char} : tightLines s = [] ↔ trim s = [] := by
  constructor
  · intro h
    refine trim_eq_nil_iff.2 fun c hc => ?_
    by_cases hn : c = '\n'
    · subst hn
      decide
    · have hjoined : c ∈ ['\n'].intercalate (s.splitOn '\n') := by rwa [List.intercalate_splitOn]
      obtain ⟨p, hp, hcp⟩ := (mem_intercalate_of_ne hn).1 hjoined
      rw [tightLines_eq, List.filterMap_eq_nil_iff] at h
      exact trim_eq_nil_iff.1 (tight?_eq_none_iff.1 (h p hp)) c hcp
  · intro h
    rw [← tightLines_trim, h]
    rfl

/-- A text contains each of its lines. -/
theorem infix_of_mem_tightLines {l s : List Char} (h : l ∈ tightLines s) : l <:+: s := by
  rw [tightLines_eq] at h
  obtain ⟨p, hp, hl⟩ := List.mem_filterMap.1 h
  obtain ⟨rfl, -⟩ := tight?_eq_some_iff.1 hl
  obtain ⟨before, after, -, -, heq⟩ := exists_blanks p
  have hpiece := infix_intercalate '\n' hp
  rw [List.intercalate_splitOn] at hpiece
  exact List.IsInfix.trans ⟨before, after, heq.symm⟩ hpiece

end ImageRelay.Text
