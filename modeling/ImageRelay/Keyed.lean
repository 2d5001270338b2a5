/-!
# Entries in key order

Finite maps from texts, held as entries in strictly increasing order of their keys. Texts are
ordered by code point, which is also the order of their UTF-8 bytes.

## Main statements
* `Keyed.lookup_insert`, `Keyed.lookup_erase`: an insertion or removal is seen at its own key and
  nowhere else.
* `Keyed.sorted_insert`, `Keyed.sorted_erase`, `Keyed.sorted_ofList`: the order of the keys is kept.
* `Keyed.ofList_eq_self`: entries in key order stay as they are.
-/

set_option autoImplicit false

namespace ImageRelay.Keyed

variable {α : Type}

/-- The keys are strictly increasing, so none is repeated. -/
def Sorted (entries : List (String × α)) : Prop := entries.Pairwise (·.1 < ·.1)

/-- Sets the value at a key, in place of the one that is there. -/
def insert (k : String) (v : α) : List (String × α) → List (String × α)
  | [] => [(k, v)]
  | e :: r =>
    if k < e.1 then (k, v) :: e :: r else if k = e.1 then (k, v) :: r else e :: insert k v r

/-- The entries of a list in key order; of two with one key the later stays. -/
def ofList (entries : List (String × α)) : List (String × α) :=
  entries.foldl (fun m e => insert e.1 e.2 m) []

/-- Removes the entry at a key. -/
def erase (k : String) (entries : List (String × α)) : List (String × α) :=
  entries.filter (·.1 ≠ k)

theorem sorted_nil : Sorted ([] : List (String × α)) := List.Pairwise.nil

theorem mem_insert {k : String} {v : α} {a : String × α} {es : List (String × α)}
    (h : a ∈ insert k v es) : a = (k, v) ∨ a ∈ es := by
  induction es with
  | nil => simpa [insert] using h
  | cons e r ih =>
    rw [insert] at h
    split at h
    · simpa using h
    · split at h
      · rcases List.mem_cons.1 h with h | h
        · exact .inl h
        · exact .inr (List.mem_cons_of_mem _ h)
      · rcases List.mem_cons.1 h with h | h
        · exact .inr (h ▸ List.mem_cons_self)
        · exact (ih h).imp_right (List.mem_cons_of_mem _)

theorem sorted_insert (k : String) (v : α) {es : List (String × α)} (h : Sorted es) :
    Sorted (insert k v es) := by
  induction es with
  | nil => exact List.pairwise_singleton _ _
  | cons e r ih =>
    have hr := List.pairwise_cons.1 h
    rw [insert]
    split
    · rename_i hk
      refine List.pairwise_cons.2 ⟨fun a ha => ?_, h⟩
      rcases List.mem_cons.1 ha with ha | ha
      · exact ha ▸ hk
      · exact String.lt_trans hk (hr.1 a ha)
    · split
      · rename_i _ hk
        exact List.pairwise_cons.2 ⟨fun a ha => hk ▸ hr.1 a ha, hr.2⟩
      · rename_i hlt hne
        refine List.pairwise_cons.2 ⟨fun a ha => ?_, ih hr.2⟩
        rcases mem_insert ha with ha | ha
        · subst ha
          exact String.not_le.1 fun hle => hne (String.le_antisymm hle (String.not_lt.1 hlt))
        · exact hr.1 a ha

theorem sorted_ofList (es : List (String × α)) : Sorted (ofList es) := by
  have step : ∀ m : List (String × α), Sorted m →
      Sorted (es.foldl (fun m e => insert e.1 e.2 m) m) := by
    induction es with
    | nil => exact fun _ h => h
    | cons e r ih => exact fun m h => ih _ (sorted_insert e.1 e.2 h)
  exact step [] sorted_nil

theorem sorted_erase (k : String) {es : List (String × α)} (h : Sorted es) : Sorted (erase k es) :=
  List.Pairwise.filter _ h

theorem mem_of_mem_ofList {a : String × α} {es : List (String × α)} (h : a ∈ ofList es) :
    a ∈ es := by
  have step : ∀ m : List (String × α), a ∈ es.foldl (fun m e => insert e.1 e.2 m) m →
      a ∈ m ∨ a ∈ es := by
    clear h
    induction es with
    | nil => exact fun _ h => .inl h
    | cons e r ih =>
      intro m h
      rcases ih _ h with h | h
      · rcases mem_insert h with rfl | h
        · exact .inr List.mem_cons_self
        · exact .inl h
      · exact .inr (List.mem_cons_of_mem _ h)
  exact (step [] h).resolve_left List.not_mem_nil

/-- An entry behind all others is set at the end. -/
theorem insert_eq_append {k : String} {v : α} {es : List (String × α)} (h : ∀ e ∈ es, e.1 < k) :
    insert k v es = es ++ [(k, v)] := by
  induction es with
  | nil => rfl
  | cons e r ih =>
    have he := h e List.mem_cons_self
    have hlt : ¬ k < e.1 := fun h' => String.lt_irrefl _ (String.lt_trans he h')
    have hne : k ≠ e.1 := fun h' => String.lt_irrefl e.1 (h' ▸ he)
    rw [insert, if_neg hlt, if_neg hne, ih fun a ha => h a (List.mem_cons_of_mem _ ha),
      List.cons_append]

theorem ofList_eq_self {es : List (String × α)} (h : Sorted es) : ofList es = es := by
  have step : ∀ m : List (String × α), Sorted (m ++ es) →
      es.foldl (fun m e => insert e.1 e.2 m) m = m ++ es := by
    clear h
    induction es with
    | nil => simp
    | cons e r ih =>
      intro m hm
      have he : insert e.1 e.2 m = m ++ [e] :=
        insert_eq_append fun a ha => (List.pairwise_append.1 hm).2.2 a ha e List.mem_cons_self
      rw [List.append_cons] at hm
      rw [List.foldl_cons, he, ih _ hm, ← List.append_cons]
  exact step [] h

theorem lookup_cons_of_ne {k k' : String} (h : k' ≠ k) (v : α) (es : List (String × α)) :
    List.lookup k' ((k, v) :: es) = es.lookup k' := by
  rw [List.lookup_cons, beq_false_of_ne h]

theorem lookup_insert (k k' : String) (v : α) (es : List (String × α)) :
    (insert k v es).lookup k' = if k' = k then some v else es.lookup k' := by
  by_cases h : k' = k
  · subst h
    rw [if_pos rfl]
    induction es with
    | nil => simp [insert]
    | cons e r ih =>
      rw [insert]
      split
      · simp
      · split
        · simp
        · rename_i hne
          rw [lookup_cons_of_ne hne, ih]
  · rw [if_neg h]
    induction es with
    | nil => rw [insert, lookup_cons_of_ne h]
    | cons e r ih =>
      obtain ⟨a, b⟩ := e
      rw [insert]
      split
      · rw [lookup_cons_of_ne h]
      · split
        · rename_i _ hk
          rw [lookup_cons_of_ne h, lookup_cons_of_ne fun e => h (e.trans hk.symm)]
        · simp only [List.lookup_cons, ih]

theorem lookup_erase (k k' : String) (es : List (String × α)) :
    (erase k es).lookup k' = if k' = k then none else es.lookup k' := by
  induction es with
  | nil => simp [erase]
  | cons e r ih =>
    obtain ⟨a, b⟩ := e
    rw [erase] at ih
    by_cases ha : a = k
    · subst ha
      rw [erase, List.filter_cons_of_neg (by simp), ih]
      split
      · rfl
      · rw [lookup_cons_of_ne ‹_›]
    · rw [erase, List.filter_cons_of_pos (by simpa using ha), List.lookup_cons, List.lookup_cons, ih]
      split
      · rename_i heq
        rw [if_neg]
        rintro rfl
        exact ha (beq_iff_eq.1 heq).symm
      · rfl

end ImageRelay.Keyed
