import ImageRelay.Proofs.Image.References
import ImageRelay.Proofs.Registry.Merge

/-!
# References of image sets

* `Catalog.images_of_build`: the images of a set that was built, one for each entry of the
  table.
* `Catalog.mem_references_of_isBuiltIn`, `Catalog.isBuiltIn_of_mem_references`: the references of
  the set without overrides are those of the built-in places.
-/

set_option autoImplicit false

namespace ImageRelay

namespace Catalog

/-! ## Images that are built -/

theorem images_of_build {o : Overrides} {v : KubeVersion} {set : ImageSet}
    (h : build o v = .ok set) :
    set.images.map (fun i => (i.name, i.host, i.repository, i.tag)) =
      table.map fun e => (e.name, (placeOf o e).1, (placeOf o e).2, v.text) := by
  cases merges_iff.2 h with
  | merged _ _ hs => exact hs

theorem exists_entry {o : Overrides} {v : KubeVersion} {set : ImageSet}
    (h : build o v = .ok set) {i : Image} (hi : i ∈ set.images) :
    ∃ e ∈ table, i.name = e.name ∧ (i.host, i.repository) = placeOf o e ∧ i.tag = v.text := by
  have hmem := List.mem_map_of_mem (f := fun i : Image => (i.name, i.host, i.repository, i.tag)) hi
  rw [images_of_build h] at hmem
  obtain ⟨e, he, heq⟩ := List.mem_map.1 hmem
  simp only [Prod.mk.injEq] at heq
  obtain ⟨hname, hhost, hrepository, htag⟩ := heq
  exact ⟨e, he, hname.symm, Prod.ext hhost.symm hrepository.symm, htag.symm⟩

theorem exists_image {o : Overrides} {v : KubeVersion} {set : ImageSet}
    (h : build o v = .ok set) {e : Entry} (he : e ∈ table) :
    ∃ i ∈ set.images, i.name = e.name ∧ i.reference = referenceAt o v e := by
  have hmem := List.mem_map_of_mem
    (f := fun e => (e.name, (placeOf o e).1, (placeOf o e).2, v.text)) he
  rw [← images_of_build h] at hmem
  obtain ⟨i, hi, heq⟩ := List.mem_map.1 hmem
  simp only [Prod.mk.injEq] at heq
  obtain ⟨hname, hhost, hrepository, htag⟩ := heq
  exact ⟨i, hi, hname, by
    rw [Image.reference, hhost, hrepository, htag, referenceOf_eq, referenceAt]⟩

/-- Without overrides every image is at its built-in place. -/
theorem placeOf_empty (e : Entry) : placeOf .empty e = (registryHost, e.repository) := by
  simp [placeOf, given?, Overrides.get?, Overrides.empty, registryOf]

theorem located_empty : Located .empty := by
  intro key value h
  cases h

/-- A release without overrides has its images. -/
theorem exists_release : ∃ set, build .empty ⟨"v1.18.0", by decide⟩ = .ok set := by
  have hvalid : ∀ e ∈ table, faultOf .empty ⟨"v1.18.0", by decide⟩ e = none := by decide +kernel
  obtain ⟨set, hbuild, -⟩ := build_of_valid located_empty hvalid
  exact ⟨set, hbuild⟩

/-- A place of the built-in registry that an image of the table has by default. -/
def IsBuiltIn (place : String × String) : Prop :=
  ∃ e ∈ table, place = (registryHost, e.repository)

/-- The references of built-in places are in the set without overrides. -/
theorem mem_references_of_isBuiltIn {o : Overrides} {v : KubeVersion} {upstream : ImageSet}
    (h : build .empty v = .ok upstream) {e : Entry} (hb : IsBuiltIn (placeOf o e)) :
    referenceAt o v e ∈ upstream.references := by
  obtain ⟨e', he', hplace⟩ := hb
  obtain ⟨i, hi, -, href⟩ := exists_image h he'
  refine List.mem_map.2 ⟨i, hi, ?_⟩
  rw [href, referenceAt, referenceAt, placeOf_empty, hplace]

/-- An image with the reference of a built-in one is at a built-in place. -/
theorem isBuiltIn_of_mem_references {v : KubeVersion} {upstream : ImageSet}
    (h : build .empty v = .ok upstream) {i : Image} (hi : i.reference ∈ upstream.references) :
    IsBuiltIn (i.host, i.repository) := by
  obtain ⟨j, hj, heq⟩ := List.mem_map.1 hi
  obtain ⟨e, he, -, hplace, -⟩ := exists_entry h hj
  obtain ⟨hhost, hrepository, -⟩ := Image.reference_inj.1 heq.symm
  refine ⟨e, he, ?_⟩
  rw [hhost, hrepository, hplace, placeOf_empty]

end Catalog

end ImageRelay
