import ImageRelay.Keyed
import ImageRelay.Registry.ImageSet

/-!
# Look-up in sorted entries and image sets

Keys and names are strictly increasing, so each of them stands for one entry: what is looked up is
what is there (`Keyed.lookup_eq_some_iff`, `ImageSet.get?_eq_some_iff`), and images that are given
in the order of their names are a set as they are (`ImageSet.images_ofList`).
-/

set_option autoImplicit false

namespace ImageRelay

/-! ## Entries -/

namespace Keyed

variable {α : Type}

theorem lookup_eq_none_of_lt {k : String} {es : List (String × α)} (h : ∀ e ∈ es, k < e.1) :
    es.lookup k = none := by
  induction es with
  | nil => rfl
  | cons e es ih =>
    have hne : k ≠ e.1 := fun heq => String.lt_irrefl k (heq ▸ h e List.mem_cons_self)
    rw [show e = (e.1, e.2) from rfl, lookup_cons_of_ne hne]
    exact ih fun e' he => h e' (List.mem_cons_of_mem _ he)

theorem lookup_eq_some_iff {es : List (String × α)} (hs : Sorted es) {k : String} {v : α} :
    es.lookup k = some v ↔ (k, v) ∈ es := by
  induction es with
  | nil => simp
  | cons e es ih =>
    obtain ⟨hlt, hrest⟩ := List.pairwise_cons.1 hs
    obtain ⟨k', v'⟩ := e
    by_cases hk : k = k'
    · subst hk
      -- the key of the first entry is not repeated
      have hno : (k, v) ∉ es := fun h => String.lt_irrefl k (hlt _ h)
      simp [hno, eq_comm]
    · rw [lookup_cons_of_ne hk, ih hrest]
      simp [hk]

end Keyed

/-! ## Image sets -/

namespace ImageSet

theorem eq_of_name {set : ImageSet} {i j : Image} (hi : i ∈ set.images) (hj : j ∈ set.images)
    (h : i.name = j.name) : i = j := by
  obtain ⟨before, after, hset⟩ := List.append_of_mem hi
  have hs := set.sorted
  rw [hset, List.pairwise_append, List.pairwise_cons] at hs
  obtain ⟨-, ⟨hafter, -⟩, hbefore⟩ := hs
  rw [hset, List.mem_append, List.mem_cons] at hj
  rcases hj with hj | rfl | hj
  · exact absurd (h ▸ hbefore j hj i List.mem_cons_self) (String.lt_irrefl _)
  · rfl
  · exact absurd (h ▸ hafter j hj) (String.lt_irrefl _)

theorem get?_eq_some_iff {set : ImageSet} {name : String} {i : Image} :
    set.get? name = some i ↔ i ∈ set.images ∧ i.name = name := by
  constructor
  · intro h
    exact ⟨List.mem_of_find?_eq_some h, by simpa using List.find?_some h⟩
  · rintro ⟨hi, rfl⟩
    cases h : set.get? i.name with
    | none => simpa using List.find?_eq_none.1 h i hi
    | some j =>
      have hj : j.name = i.name := by simpa using List.find?_some h
      rw [set.eq_of_name (List.mem_of_find?_eq_some h) hi hj]

theorem resolve_eq_ok_iff {set : ImageSet} {name : String} {i : Image} :
    set.resolve name = .ok i ↔ i ∈ set.images ∧ i.name = name := by
  rw [← get?_eq_some_iff, resolve]
  cases set.get? name <;> simp

theorem get?_eq_none_iff {set : ImageSet} {name : String} :
    set.get? name = none ↔ ∀ i ∈ set.images, i.name ≠ name := by
  simp [get?, List.find?_eq_none]

/-- An image behind all others is placed at the end. -/
theorem place_eq_append {i : Image} {l : List Image} (h : ∀ j ∈ l, j.name < i.name) :
    place i l = l ++ [i] := by
  induction l with
  | nil => rfl
  | cons j l ih =>
    have hj := h j List.mem_cons_self
    have hlt : ¬ i.name < j.name := fun h' => String.lt_irrefl _ (String.lt_trans hj h')
    have hne : i.name ≠ j.name := fun h' => String.lt_irrefl j.name (h' ▸ hj)
    rw [place, if_neg hlt, if_neg hne, ih fun k hk => h k (List.mem_cons_of_mem _ hk),
      List.cons_append]

theorem images_foldl_insert {images : List Image} {set : ImageSet}
    (h : (set.images ++ images).Pairwise (·.name < ·.name)) :
    (images.foldl insert set).images = set.images ++ images := by
  induction images generalizing set with
  | nil => simp
  | cons i images ih =>
    have hi : (set.insert i).images = set.images ++ [i] :=
      place_eq_append fun j hj => (List.pairwise_append.1 h).2.2 j hj i List.mem_cons_self
    rw [List.append_cons, ← hi] at h
    rw [List.foldl_cons, ih h, hi, List.append_assoc, List.singleton_append]

theorem images_ofList {images : List Image} (h : images.Pairwise (·.name < ·.name)) :
    (ofList images).images = images :=
  @images_foldl_insert images empty h

end ImageSet

end ImageRelay
