import ImageRelay.Proofs.Registry.References
import ImageRelay.Proofs.Version.Kube
import ImageRelay.Registry.Load

/-!
# Releases

A release is the image set of a version without overrides. All places of the table are fit for a
reference, so its images differ in nothing but the tag when it comes to faults (`faultOf_empty`): a
version that can be a tag has its release, and any other fails at the first image.
-/

set_option autoImplicit false

namespace ImageRelay

namespace Catalog

theorem faultOf_empty (v : KubeVersion) {e : Entry} (he : e ∈ table) :
    faultOf .empty v e = if isTag v.text.toList then none else some .tag := by
  have hhost : isHost registryHost.toList = true := by decide +kernel
  have hrepositories : ∀ e ∈ table, e.repository.isEmpty = false ∧
      (Text.splitAll '/' e.repository.toList).find? (!isComponent ·) = none := by decide +kernel
  obtain ⟨hempty, hcomponents⟩ := hrepositories e he
  rw [faultOf, placeOf_empty, ReferenceFault.find?]
  simp only [hhost, hempty, hcomponents]
  cases isTag v.text.toList <;> rfl

/-- The error of a version that can be no tag. -/
def untaggable (v : KubeVersion) : ResolutionError :=
  .invalidReference s!"k8s.gcr.io/conformance:{v.text}" s!"bad tag '{v.text}'"

/-- Either there is a release, or its first image has a bad tag. -/
theorem build_empty_cases (v : KubeVersion) :
    (v.Taggable ∧ ∃ set, build .empty v = .ok set) ∨
    (¬v.Taggable ∧ build .empty v = .error (untaggable v)) := by
  rw [← v.tagForm_iff, ← isTag_iff]
  cases htag : isTag v.text.toList with
  | true =>
    have hvalid : ∀ e ∈ table, faultOf .empty v e = none := by
      intro e he
      rw [faultOf_empty v he, htag]
      rfl
    obtain ⟨set, hbuild, -⟩ := build_of_valid located_empty hvalid
    exact .inl ⟨rfl, set, hbuild⟩
  | false =>
    have hfault : faultOf .empty v ⟨"conformance", "conformance"⟩ = some .tag := by
      rw [faultOf_empty v (by decide), htag]
      rfl
    have hfirst : table = [] ++ ⟨"conformance", "conformance"⟩ :: table.tail := rfl
    have hbuild := build_of_refused located_empty hfirst (by simp) (Image.make_of_fault hfault)
    refine .inr ⟨by decide, hbuild.trans ?_⟩
    rw [placeOf_empty]
    rfl

theorem tags_of_build {o : Overrides} {v : KubeVersion} {set : ImageSet}
    (h : build o v = .ok set) :
    set.images.map (fun i => (i.name, i.tag)) = table.map fun e => (e.name, v.text) := by
  have himages := congrArg (List.map fun p : String × String × String × String => (p.1, p.2.2.2))
    (images_of_build h)
  rw [List.map_map, List.map_map] at himages
  exact himages

/-- **Releases**: without an override file exactly the versions without a plus and of at most 128
characters have an image set, and the first image refuses any other for its tag. In such a set every
image of the table has the version as its tag. The archive of a version is one part of a path, be it
the version of a set or not. -/
theorem release_loads (v : KubeVersion) (s : Session) :
    ((∃ set, load none v s = (.ok set, s)) ↔ '+' ∉ v.text.toList ∧ v.text.length ≤ 128) ∧
    (load none v s = (.error (.invalidReference s!"k8s.gcr.io/conformance:{v.text}"
        s!"bad tag '{v.text}'"), s) ↔ ¬('+' ∉ v.text.toList ∧ v.text.length ≤ 128)) ∧
    (∀ set, (load none v s).1 = .ok set →
      set.images.map (fun i => (i.name, i.tag)) = table.map fun e => (e.name, v.text)) ∧
    '/' ∉ v.archiveName.toList ∧ Path.parts v.archiveName = [v.archiveName] := by
  rw [load_none]
  refine ⟨?_, ?_, fun set h => tags_of_build h, v.slash_not_mem_archiveName,
    Path.parts_eq_singleton v.slash_not_mem_archiveName v.archiveName_ne_empty⟩
  · rcases build_empty_cases v with ⟨htag, set, hbuild⟩ | ⟨htag, hbuild⟩
    · rw [hbuild]
      exact ⟨fun _ => htag, fun _ => ⟨set, rfl⟩⟩
    · rw [hbuild]
      exact ⟨fun ⟨set, h⟩ => (by cases h), fun h => absurd h htag⟩
  · rcases build_empty_cases v with ⟨htag, set, hbuild⟩ | ⟨htag, hbuild⟩
    · rw [hbuild]
      exact ⟨fun h => (by cases h), fun h => absurd htag h⟩
    · rw [hbuild]
      exact ⟨fun _ => htag, fun _ => rfl⟩

end Catalog

end ImageRelay
