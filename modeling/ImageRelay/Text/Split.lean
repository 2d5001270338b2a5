/-!
# Cutting texts

Cuts at the first or last occurrence of a symbol, pieces between occurrences, and lines. All of
them work on lists of any symbols, so that bytes and characters share them.

## Main statements
* `splitOnce_eq_some_iff`: the cut is at the first occurrence, and nothing is lost.
* `splitOnce_eq_none_iff`: there is no cut exactly when the symbol does not occur.
* `append_cons_inj`, `append_cons_inj_last`: a text is cut at the first occurrence, or at the last
  one, in one way only.
* `splitAll_eq_splitOn`, `not_mem_of_mem_splitOn`: the pieces are those of the library, and no
  occurrence is left in them.
* `joined_iff`: pieces in which the symbol does not occur are what a text of them is cut into.
* `span_eq_iff`: the longest part at the start that satisfies a test, and the rest.
-/

set_option autoImplicit false

namespace ImageRelay.Text

variable {α : Type} [DecidableEq α]

/-- The parts before and after the first `a`. -/
def splitOnce (a : α) : List α → Option (List α × List α)
  | [] => none
  | x :: r => if x = a then some ([], r) else (splitOnce a r).map fun (b, e) => (x :: b, e)

theorem splitOnce_eq_none_iff {a : α} {s : List α} : splitOnce a s = none ↔ a ∉ s := by
  induction s with
  | nil => simp [splitOnce]
  | cons x r ih =>
    by_cases h : x = a
    · simp [splitOnce, h]
    · simp [splitOnce, h, ih, Ne.symm h]

theorem splitOnce_eq_some_iff {a : α} {s b e : List α} :
    splitOnce a s = some (b, e) ↔ s = b ++ a :: e ∧ a ∉ b := by
  induction s generalizing b with
  | nil => simp [splitOnce]
  | cons x r ih =>
    by_cases h : x = a
    · subst h
      cases b with
      | nil => simp [splitOnce]
      | cons y b =>
        simp only [splitOnce, if_true, List.cons_append, List.cons.injEq, List.mem_cons]
        constructor
        · intro h; simp at h
        · rintro ⟨⟨rfl, _⟩, h⟩; exact absurd (Or.inl rfl) h
    · cases b with
      | nil => simp [splitOnce, h]
      | cons y b =>
        simp only [splitOnce, h, if_false, Option.map_eq_some_iff, Prod.mk.injEq, List.cons.injEq,
          Prod.exists, List.cons_append, List.mem_cons, not_or]
        constructor
        · rintro ⟨b', e', h', ⟨rfl, rfl⟩, rfl⟩
          exact ⟨⟨rfl, (ih.1 h').1⟩, Ne.symm h, (ih.1 h').2⟩
        · rintro ⟨⟨rfl, hr⟩, _, hb⟩
          exact ⟨b, e, ih.2 ⟨hr, hb⟩, ⟨rfl, rfl⟩, rfl⟩

theorem append_cons_inj {a : α} {b b' e e' : List α} (hb : a ∉ b) (hb' : a ∉ b') :
    b ++ a :: e = b' ++ a :: e' ↔ b = b' ∧ e = e' := by
  constructor
  · intro h
    have hcut := splitOnce_eq_some_iff.2 ⟨h, hb'⟩
    rw [splitOnce_eq_some_iff.2 ⟨rfl, hb⟩, Option.some.injEq, Prod.mk.injEq] at hcut
    exact hcut
  · rintro ⟨rfl, rfl⟩
    rfl

theorem append_cons_inj_last {a : α} {b b' e e' : List α} (he : a ∉ e) (he' : a ∉ e') :
    b ++ a :: e = b' ++ a :: e' ↔ b = b' ∧ e = e' := by
  -- read backwards, the last occurrence is the first
  have hback : e.reverse ++ a :: b.reverse = e'.reverse ++ a :: b'.reverse ↔
      e.reverse = e'.reverse ∧ b.reverse = b'.reverse :=
    append_cons_inj (mt List.mem_reverse.1 he) (mt List.mem_reverse.1 he')
  rw [← List.reverse_inj, List.reverse_append, List.reverse_append, List.reverse_cons,
    List.reverse_cons, List.append_assoc, List.append_assoc, List.singleton_append,
    List.singleton_append, hback, List.reverse_inj, List.reverse_inj, and_comm]

/-- The pieces between the occurrences of `a`; one more than there are occurrences. -/
def splitAll (a : α) (s : List α) : List (List α) :=
  s.foldr
    (fun x pieces =>
      if x = a then [] :: pieces
      else match pieces with
        | [] => [[x]]
        | p :: ps => (x :: p) :: ps)
    [[]]

theorem splitAll_eq_splitOn (a : α) (s : List α) : splitAll a s = s.splitOn a := by
  induction s with
  | nil => rfl
  | cons x r ih =>
    have hstep : splitAll a (x :: r) = if x = a then [] :: splitAll a r else
        match splitAll a r with
        | [] => [[x]]
        | p :: ps => (x :: p) :: ps := rfl
    rw [hstep, ih, List.splitOn_cons_eq_if_modifyHead]
    cases h : r.splitOn a with
    | nil => exact absurd h (List.splitOn_ne_nil _ _)
    | cons p ps => simp

theorem not_mem_of_mem_splitOn {a : α} {p : List α} : ∀ {s : List α}, p ∈ s.splitOn a → a ∉ p
  | [], h => by simp_all
  | x :: r, h => by
    rw [List.splitOn_cons_eq_if_modifyHead] at h
    split at h
    · rcases List.mem_cons.1 h with rfl | h
      · simp
      · exact not_mem_of_mem_splitOn h
    · rename_i hx
      cases hr : r.splitOn a with
      | nil => exact absurd hr (List.splitOn_ne_nil _ _)
      | cons q qs =>
        have hmem {p : List α} (hp : p ∈ q :: qs) : a ∉ p := not_mem_of_mem_splitOn (hr ▸ hp)
        rw [hr, List.modifyHead_cons] at h
        rcases List.mem_cons.1 h with rfl | h
        · have hne : a ≠ x := by
            rintro rfl
            simp at hx
          simp [hne, hmem List.mem_cons_self]
        · exact hmem (List.mem_cons_of_mem _ h)

/-- A text of pieces that satisfy `P`, with an `a` between each two of them. -/
def Joined (a : α) (P : List α → Prop) (s : List α) : Prop :=
  ∃ pieces, pieces ≠ [] ∧ (∀ p ∈ pieces, P p) ∧ s = [a].intercalate pieces

theorem joined_iff {a : α} {P : List α → Prop} (hP : ∀ p, P p → a ∉ p) {s : List α} :
    Joined a P s ↔ ∀ p ∈ splitAll a s, P p := by
  rw [splitAll_eq_splitOn]
  constructor
  · rintro ⟨pieces, hne, hall, rfl⟩
    rwa [List.splitOn_intercalate a (fun p hp => hP p (hall p hp)) hne]
  · intro h
    exact ⟨s.splitOn a, List.splitOn_ne_nil _ _, h, (List.intercalate_splitOn a).symm⟩

omit [DecidableEq α] in
theorem mem_intercalate_of_ne {a x : α} (h : x ≠ a) :
    ∀ {pieces : List (List α)}, x ∈ [a].intercalate pieces ↔ ∃ p ∈ pieces, x ∈ p
  | [] => by simp
  | [p] => by simp
  | p :: q :: pieces => by
    have ih : x ∈ [a].intercalate (q :: pieces) ↔ ∃ p ∈ q :: pieces, x ∈ p :=
      mem_intercalate_of_ne h
    rw [List.intercalate_cons_cons, List.mem_append, List.mem_append, List.mem_singleton, ih]
    simp [h]

/-- What holds of `a` and of all symbols of the pieces holds of all symbols. -/
theorem Joined.forall {a : α} {P : List α → Prop} {Q : α → Prop} {s : List α} (h : Joined a P s)
    (ha : Q a) (hP : ∀ p, P p → ∀ x ∈ p, Q x) : ∀ x ∈ s, Q x := by
  obtain ⟨pieces, -, hall, rfl⟩ := h
  intro x hx
  by_cases hxa : x = a
  · exact hxa ▸ ha
  · obtain ⟨p, hp, hxp⟩ := (mem_intercalate_of_ne hxa).1 hx
    exact hP p (hall p hp) x hxp

omit [DecidableEq α] in
theorem span_eq_iff {p : α → Bool} {s t r : List α} :
    s.takeWhile p = t ∧ s.dropWhile p = r ↔
      s = t ++ r ∧ (∀ x ∈ t, p x = true) ∧ ∀ x ∈ r.head?, p x = false := by
  constructor
  · rintro ⟨rfl, rfl⟩
    refine ⟨List.takeWhile_append_dropWhile.symm, List.all_eq_true.1 List.all_takeWhile, ?_⟩
    intro x hx
    have hhead := List.head?_dropWhile_not p s
    rwa [hx] at hhead
  · rintro ⟨rfl, ht, hr⟩
    have hstop : r.takeWhile p = [] ∧ r.dropWhile p = r := by
      cases r with
      | nil => exact ⟨rfl, rfl⟩
      | cons x r => simp [hr x rfl]
    rw [List.takeWhile_append_of_pos ht, List.dropWhile_append_of_pos ht, hstop.1, hstop.2]
    exact ⟨List.append_nil _, rfl⟩

omit [DecidableEq α] in
/-- What is taken and what is left where a symbol that fails stands behind some that pass. -/
theorem span_append_cons {p : α → Bool} {a : α} {t : List α} (ht : ∀ x ∈ t, p x = true)
    (ha : p a = false) (r : List α) :
    (t ++ a :: r).takeWhile p = t ∧ (t ++ a :: r).dropWhile p = a :: r := by
  refine span_eq_iff.2 ⟨rfl, ht, ?_⟩
  rintro x ⟨⟩
  exact ha

/-- The list without `a` at its end, if it ends in one. -/
def dropLastOf (a : α) (s : List α) : List α := if s.getLast? = some a then s.dropLast else s

/-- The list without all `a` at its end. -/
def dropTrailing (a : α) (s : List α) : List α := (s.reverse.dropWhile (· == a)).reverse

/-- The lines of a text: a line ends with `lf`, or with `cr` and `lf`; an end without one is a line
only if it is not empty, and keeps its `cr`. -/
def lines (lf cr : α) (s : List α) : List (List α) :=
  let pieces := splitAll lf s
  let last := pieces.getLastD []
  pieces.dropLast.map (dropLastOf cr) ++ if last.isEmpty then [] else [last]

/-- Whether `part` stands somewhere in the list. -/
def occursIn (part : List α) : List α → Bool
  | [] => part.isEmpty
  | x :: r => part.isPrefixOf (x :: r) || occursIn part r

end ImageRelay.Text
