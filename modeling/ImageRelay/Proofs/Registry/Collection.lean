import ImageRelay.Proofs.Registry.Merge
import ImageRelay.Proofs.Registry.Sorted
import ImageRelay.Proofs.Text.Bytes
import Mathlib.Data.List.Dedup
import Mathlib.Data.List.Induction

/-!
# Image sets of any images

Images may be given in any order and with any names. A set holds the last of each name and no other
(`ImageSet.mem_ofList_iff`), since an image that is placed takes the place of the one with its name
(`ImageSet.mem_place_iff`). Images that are made one after the other are collected up to the first
that cannot be made (`ImageSet.collect_eq_ok_iff`, `ImageSet.collect_eq_error_iff`), and so is the
set of the table (`Catalog.build_eq_collect`).

`ImageSet.collection`: what is in a set, in which order, and what is looked up in it.
-/

set_option autoImplicit false

namespace ImageRelay

namespace ImageSet

/-! ## The last image of a name -/

/-- The image is the last one of its name. -/
def LastOf (images : List Image) (i : Image) : Prop :=
  ∃ before after, images = before ++ i :: after ∧ ∀ j ∈ after, j.name ≠ i.name

theorem lastOf_concat {images : List Image} {i k : Image} :
    LastOf (images ++ [k]) i ↔ i = k ∨ LastOf images i ∧ k.name ≠ i.name := by
  constructor
  · rintro ⟨before, after, heq, hafter⟩
    rcases List.eq_nil_or_concat after with rfl | ⟨after, j, rfl⟩
    · obtain ⟨-, rfl⟩ := List.append_singleton_inj.1 heq
      exact .inl rfl
    · rw [List.concat_eq_append] at heq hafter
      rw [← List.cons_append, ← List.append_assoc, List.append_singleton_inj] at heq
      obtain ⟨rfl, rfl⟩ := heq
      exact .inr ⟨⟨before, after, rfl, fun x hx => hafter x (List.mem_append_left _ hx)⟩,
        hafter k (by simp)⟩
  · rintro (rfl | ⟨⟨before, after, rfl, hafter⟩, hk⟩)
    · exact ⟨images, [], rfl, by simp⟩
    · refine ⟨before, after ++ [k], by simp, fun j hj => ?_⟩
      rcases List.mem_append.1 hj with hj | hj
      · exact hafter j hj
      · rwa [List.mem_singleton.1 hj]

/-- Every name that occurs has a last image. -/
theorem exists_lastOf {images : List Image} {i : Image} (h : i ∈ images) :
    ∃ j, LastOf images j ∧ j.name = i.name := by
  induction images using List.reverseRecOn with
  | nil => cases h
  | append_singleton images k ih =>
    by_cases hk : k.name = i.name
    · exact ⟨k, lastOf_concat.2 (.inl rfl), hk⟩
    · have hi : i ∈ images := by
        rcases List.mem_append.1 h with h | h
        · exact h
        · exact absurd (by rw [List.mem_singleton.1 h]) hk
      obtain ⟨j, hj, hname⟩ := ih hi
      exact ⟨j, lastOf_concat.2 (.inr ⟨hj, hname ▸ hk⟩), hname⟩

/-! ## Sets of images -/

/-- A placed image stands instead of the one with its name, and beside all others. -/
theorem mem_place_iff {i j : Image} {l : List Image} (h : l.Pairwise (·.name < ·.name)) :
    j ∈ place i l ↔ j = i ∨ j ∈ l ∧ j.name ≠ i.name := by
  induction l with
  | nil => simp [place]
  | cons k l ih =>
    obtain ⟨hk, hl⟩ := List.pairwise_cons.1 h
    have hne {a b : Image} (hab : a.name < b.name) : b.name ≠ a.name :=
      fun heq => String.lt_irrefl _ (heq ▸ hab)
    rw [place]
    split
    · -- all that follow have greater names
      rename_i hik
      have hall : j ∈ k :: l → j.name ≠ i.name := by
        intro hj
        rcases List.mem_cons.1 hj with rfl | hj
        · exact hne hik
        · exact hne (String.lt_trans hik (hk j hj))
      rw [List.mem_cons, and_iff_left_of_imp hall]
    · split
      · rename_i _ hik
        have hall : j ∈ l → j.name ≠ i.name := fun hj => hik ▸ hne (hk j hj)
        rw [List.mem_cons, List.mem_cons]
        constructor
        · exact Or.imp_right fun hj => ⟨.inr hj, hall hj⟩
        · rintro (hj | ⟨rfl | hj, hji⟩)
          · exact .inl hj
          · exact absurd hik.symm hji
          · exact .inr hj
      · rename_i _ hik
        rw [List.mem_cons, ih hl, List.mem_cons]
        constructor
        · rintro (rfl | rfl | ⟨hj, hji⟩)
          · exact .inr ⟨.inl rfl, Ne.symm hik⟩
          · exact .inl rfl
          · exact .inr ⟨.inr hj, hji⟩
        · rintro (hj | ⟨rfl | hj, hji⟩)
          · exact .inr (.inl hj)
          · exact .inl rfl
          · exact .inr (.inr ⟨hj, hji⟩)

theorem ofList_concat (images : List Image) (k : Image) :
    ofList (images ++ [k]) = (ofList images).insert k := by
  rw [ofList, List.foldl_append]
  rfl

theorem mem_ofList_iff {images : List Image} {i : Image} :
    i ∈ (ofList images).images ↔ LastOf images i := by
  induction images using List.reverseRecOn with
  | nil => simp [ofList, empty, LastOf]
  | append_singleton images k ih =>
    rw [ofList_concat, lastOf_concat, ← ih, ne_comm]
    exact mem_place_iff (ofList images).sorted

/-- A set has one image for each name that occurs. -/
theorem size_ofList (images : List Image) :
    (ofList images).size = (images.map (·.name)).dedup.length := by
  have hnodup : ((ofList images).images.map (·.name)).Nodup := by
    rw [List.Nodup, List.pairwise_map]
    refine (ofList images).sorted.imp fun {i j} hlt => ?_
    intro heq
    exact String.lt_irrefl j.name (heq ▸ hlt)
  have hperm : ((ofList images).images.map (·.name)).Perm (images.map (·.name)).dedup := by
    refine (List.perm_ext_iff_of_nodup hnodup (List.nodup_dedup _)).2 fun name => ?_
    rw [List.mem_dedup, List.mem_map, List.mem_map]
    constructor
    · rintro ⟨i, hi, rfl⟩
      obtain ⟨before, after, rfl, -⟩ := mem_ofList_iff.1 hi
      exact ⟨i, by simp, rfl⟩
    · rintro ⟨i, hi, rfl⟩
      obtain ⟨j, hj, hname⟩ := exists_lastOf hi
      exact ⟨j, mem_ofList_iff.2 hj, hname⟩
  rw [size, ← hperm.length_eq, List.length_map]

theorem resolve_eq_error_iff {set : ImageSet} {name : String} {e : ResolutionError} :
    set.resolve name = .error e ↔ e = .unknownImage name ∧ ∀ i ∈ set.images, i.name ≠ name := by
  rw [← get?_eq_none_iff, resolve]
  cases set.get? name <;> simp [eq_comm]

/-- The only set without images is that of none. -/
theorem images_ofList_eq_nil_iff {images : List Image} :
    (ofList images).images = [] ↔ images = [] := by
  constructor
  · intro h
    refine List.eq_nil_iff_forall_not_mem.2 fun i hi => ?_
    obtain ⟨j, hj, -⟩ := exists_lastOf hi
    exact List.not_mem_nil (h ▸ mem_ofList_iff.2 hj)
  · rintro rfl
    rfl

theorem resolve_ofList_eq_error_iff {images : List Image} {name : String} {e : ResolutionError} :
    (ofList images).resolve name = .error e ↔
      e = .unknownImage name ∧ ∀ i ∈ images, i.name ≠ name := by
  have hnames : (∀ i ∈ (ofList images).images, i.name ≠ name) ↔ ∀ i ∈ images, i.name ≠ name := by
    constructor
    · intro h i hi hname
      obtain ⟨j, hj, hji⟩ := exists_lastOf hi
      exact h j (mem_ofList_iff.2 hj) (hji.trans hname)
    · intro h i hi
      obtain ⟨before, after, rfl, -⟩ := mem_ofList_iff.1 hi
      exact h i (by simp)
  rw [resolve_eq_error_iff, hnames]

/-! ## Images that are made one after the other -/

/-- Either all images can be made, or there is a first that cannot. -/
theorem cases_of_results (results : List (Except ResolutionError Image)) :
    (∃ images : List Image, results = images.map .ok) ∨
      ∃ (images : List Image) (e : ResolutionError) (after : List (Except ResolutionError Image)),
        results = images.map .ok ++ .error e :: after := by
  induction results with
  | nil => exact .inl ⟨[], rfl⟩
  | cons r results ih =>
    cases r with
    | error e => exact .inr ⟨[], e, results, rfl⟩
    | ok i =>
      rcases ih with ⟨images, rfl⟩ | ⟨images, e, after, rfl⟩
      · exact .inl ⟨i :: images, rfl⟩
      · exact .inr ⟨i :: images, e, after, rfl⟩

/-- The images before the first that cannot be made are all placed. -/
theorem foldlM_ok (images : List Image) (set : ImageSet)
    (after : List (Except ResolutionError Image)) :
    (images.map Except.ok ++ after).foldlM (fun s r => Except.map s.insert r) set =
      after.foldlM (fun s r => Except.map s.insert r) (images.foldl insert set) := by
  induction images generalizing set with
  | nil => rfl
  | cons i images ih => exact ih (set.insert i)

theorem collect_ok (images : List Image) : collect (images.map .ok) = .ok (ofList images) := by
  have hfold := foldlM_ok images empty []
  rwa [List.append_nil] at hfold

theorem collect_error (images : List Image) (e : ResolutionError)
    (after : List (Except ResolutionError Image)) :
    collect (images.map .ok ++ .error e :: after) = .error e :=
  foldlM_ok images empty (.error e :: after)

theorem collect_eq_ok_iff {results : List (Except ResolutionError Image)} {set : ImageSet} :
    collect results = .ok set ↔ ∃ images, results = images.map .ok ∧ set = ofList images := by
  constructor
  · intro h
    rcases cases_of_results results with ⟨images, rfl⟩ | ⟨images, e, after, rfl⟩
    · rw [collect_ok] at h
      exact ⟨images, rfl, (Except.ok.inj h).symm⟩
    · rw [collect_error] at h
      cases h
  · rintro ⟨images, rfl, rfl⟩
    exact collect_ok images

theorem collect_eq_error_iff {results : List (Except ResolutionError Image)} {e : ResolutionError} :
    collect results = .error e ↔ ∃ (images : List Image)
      (after : List (Except ResolutionError Image)),
      results = images.map .ok ++ .error e :: after := by
  constructor
  · intro h
    rcases cases_of_results results with ⟨images, rfl⟩ | ⟨images, e', after, rfl⟩
    · rw [collect_ok] at h
      cases h
    · rw [collect_error] at h
      cases h
      exact ⟨images, after, rfl⟩
  · rintro ⟨images, after, rfl⟩
    exact collect_error images e after

end ImageSet

namespace Catalog

/-- To place the images one by one is to make all of them first. -/
theorem foldlM_map {α : Type} (f : α → Except ResolutionError Image) (l : List α) (set : ImageSet) :
    (l.map f).foldlM (fun s r => Except.map s.insert r) set =
      (l.mapM f).map fun images => images.foldl ImageSet.insert set := by
  induction l generalizing set with
  | nil => rfl
  | cons a l ih =>
    rw [List.map_cons, List.foldlM_cons, List.mapM_cons]
    cases f a with
    | error e => rfl
    | ok i =>
      refine (ih (set.insert i)).trans ?_
      change _ = Except.map _ (l.mapM f >>= fun images => pure (i :: images))
      cases l.mapM f <;> rfl

/-- What is built of overrides is collected from the images of the table. -/
theorem build_eq_collect (o : Overrides) (v : KubeVersion) :
    build o v = (Routing.ofOverrides o).bind fun routing =>
      ImageSet.collect (table.map (routing.image v.text)) := by
  cases hr : Routing.ofOverrides o with
  | error e => rw [build, hr]; rfl
  | ok routing =>
    rw [build_of_ofOverrides hr]
    exact (foldlM_map _ _ _).symm

end Catalog

/-- **Image sets**: the images of a set are in strictly increasing order of the bytes of their
names, and they are the last of each name that occurs. What is looked up is what is there. Images
that are made one after the other give the set of all of them, or the error of the first that cannot
be made; so are the images of the table. -/
theorem ImageSet.collection :
    (∀ images : List Image, let set := ofList images
      set.images.Pairwise (fun i j => Text.Utf8.encode i.name < Text.Utf8.encode j.name) ∧
      (∀ i, i ∈ set.images ↔ LastOf images i) ∧
      (∀ name i, (set.get? name = some i ↔ i ∈ set.images ∧ i.name = name) ∧
        (set.resolve name = .ok i ↔ i ∈ set.images ∧ i.name = name)) ∧
      (∀ name e, set.resolve name = .error e ↔
        e = .unknownImage name ∧ ∀ i ∈ images, i.name ≠ name) ∧
      set.size = set.images.length ∧ set.size = (images.map (·.name)).dedup.length ∧
      (set.isEmpty = true ↔ set.images = []) ∧ (set.images = [] ↔ images = []) ∧
      set.references = set.images.map (·.reference)) ∧
    (∀ results : List (Except ResolutionError Image),
      (∀ set, collect results = .ok set ↔
        ∃ images, results = images.map .ok ∧ set = ofList images) ∧
      ∀ e, collect results = .error e ↔ ∃ (images : List Image)
        (after : List (Except ResolutionError Image)),
        results = images.map .ok ++ .error e :: after) ∧
    ∀ (o : Overrides) (v : KubeVersion), Catalog.build o v =
      (Catalog.Routing.ofOverrides o).bind fun routing =>
        collect (Catalog.table.map (routing.image v.text)) := by
  refine ⟨fun images => ⟨?_, fun i => mem_ofList_iff, fun name i =>
      ⟨get?_eq_some_iff, resolve_eq_ok_iff⟩, fun name e => resolve_ofList_eq_error_iff, rfl,
      size_ofList images, List.isEmpty_iff, images_ofList_eq_nil_iff, rfl⟩,
    fun results => ⟨fun set => collect_eq_ok_iff, fun e => collect_eq_error_iff⟩,
    Catalog.build_eq_collect⟩
  exact (ofList images).sorted.imp Text.Utf8.encode_lt_encode_iff.2

end ImageRelay
