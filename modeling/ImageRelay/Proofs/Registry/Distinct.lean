import ImageRelay.Proofs.Batch.Duty
import ImageRelay.Proofs.Registry.References

/-!
# Images with one reference

The built-in repositories differ and have no slash in them, so they are told apart by what stands
behind the last slash of a repository. A registry override and an override of an image without a
path keep that (`repository_of_not_hasOwnPath`), and only an override of an image with a path of its
own can bring it to the reference of another (`shared_reference_overridden`).
-/

set_option autoImplicit false

namespace ImageRelay

namespace Location

/-- Below whatever paths, names without a slash stay apart. -/
theorem join_inj {l l' : Location} {a b : String} (ha : '/' ∉ a.toList) (hb : '/' ∉ b.toList)
    (h : l.join a = l'.join b) : a = b := by
  have hjoin (l : Location) (s : String) (hs : l.path.isEmpty = false) :
      (l.join s).toList = l.path ++ '/' :: s.toList := by
    simp [join, hs, String.toList_append]
  have hbare (l : Location) (s : String) (hs : l.path.isEmpty = true) : l.join s = s := by
    simp [join, hs]
  cases hl : l.path.isEmpty <;> cases hl' : l'.path.isEmpty
  · have hlast := congrArg String.toList h
    rw [hjoin l a hl, hjoin l' b hl', Text.append_cons_inj_last ha hb] at hlast
    exact String.toList_inj.1 hlast.2
  · rw [hbare l' b hl'] at h
    rw [← h, hjoin l a hl] at hb
    simp at hb
  · rw [hbare l a hl] at h
    rw [h, hjoin l' b hl'] at ha
    simp at ha
  · rwa [hbare l a hl, hbare l' b hl'] at h

end Location

namespace Catalog

/-- Overrides give an image a location with a path. -/
def HasOwnPath (o : Overrides) (name : String) : Prop :=
  ∃ l, given? o name = some l ∧ l.path ≠ []

theorem repository_of_not_hasOwnPath {o : Overrides} {e : Entry} (h : ¬HasOwnPath o e.name) :
    ∃ l : Location, (placeOf o e).2 = l.join e.repository := by
  unfold placeOf
  cases hg : given? o e.name with
  | none => exact ⟨registryOf o, by simp [Location.join]⟩
  | some l =>
    have hpath : l.path = [] := Decidable.byContradiction fun hp => h ⟨l, hg, hp⟩
    exact ⟨l, by simp [hpath, Location.join]⟩

theorem slash_not_mem_repository : ∀ e ∈ table, '/' ∉ e.repository.toList := by decide

theorem eq_of_repository_eq :
    ∀ e ∈ table, ∀ e' ∈ table, e.repository = e'.repository → e = e' := by decide

section
variable {o : Overrides} {v : KubeVersion} {set : ImageSet} (h : build o v = .ok set)
include h

/-- Images of a set with one reference are one image, unless one of them has a path of its own. -/
theorem name_eq_of_reference_eq {i j : Image} (hi : i ∈ set.images) (hj : j ∈ set.images)
    (hio : ¬HasOwnPath o i.name) (hjo : ¬HasOwnPath o j.name) (hr : i.reference = j.reference) :
    i.name = j.name := by
  obtain ⟨e, he, hname, hplace, -⟩ := exists_entry h hi
  obtain ⟨e', he', hname', hplace', -⟩ := exists_entry h hj
  rw [hname] at hio
  rw [hname'] at hjo
  obtain ⟨l, hl⟩ := repository_of_not_hasOwnPath hio
  obtain ⟨l', hl'⟩ := repository_of_not_hasOwnPath hjo
  have hjoin : l.join e.repository = l'.join e'.repository :=
    calc l.join e.repository = i.repository := by rw [← hl, ← hplace]
      _ = j.repository := (Image.reference_inj.1 hr).2.1
      _ = l'.join e'.repository := by rw [← hl', ← hplace']
  have hrepository := Location.join_inj (slash_not_mem_repository e he)
    (slash_not_mem_repository e' he') hjoin
  rw [hname, hname', eq_of_repository_eq e he e' he' hrepository]

/-- Where no image has a path of its own, images in name order have references that differ. -/
theorem nodup_references (hown : ∀ e ∈ table, ¬HasOwnPath o e.name) {images : List Image}
    (hs : images.Pairwise (·.name < ·.name)) (hsub : ∀ i ∈ images, i ∈ set.images) :
    (images.map Image.reference).Nodup := by
  have hbare : ∀ i ∈ set.images, ¬HasOwnPath o i.name := by
    intro i hi
    obtain ⟨e, he, hname, -⟩ := exists_entry h hi
    exact hname ▸ hown e he
  rw [List.Nodup, List.pairwise_map]
  refine hs.imp_of_mem fun {i j} hi hj hlt hr => ?_
  have hname := name_eq_of_reference_eq h (hsub i hi) (hsub j hj) (hbare i (hsub i hi))
    (hbare j (hsub j hj)) hr
  exact String.lt_irrefl j.name (hname ▸ hlt)

end

end Catalog

namespace Batch

theorem mem_of_mem_counterparts {source destination : ImageSet} {i : Image}
    (h : i ∈ counterparts source destination) : i ∈ destination.images := by
  obtain ⟨j, -, hj⟩ := List.mem_filterMap.1 h
  exact List.mem_of_find?_eq_some hj

/-- The references of a report on images at references that differ do so, too. -/
theorem Covers.nodup_references {r : Report} {token : Bool} {images : List Image} {k : Nat}
    (c : Covers r token images k) (h : (images.map Image.reference).Nodup) :
    (r.results.map (·.reference)).Nodup := by
  have hsnd := congrArg (List.map Prod.snd) c.entries
  rw [List.map_map, List.map_map] at hsnd
  have heq : r.results.map (·.reference) = (images.map Image.reference).take k := by
    rw [← List.map_take]
    exact hsnd
  rw [heq]
  exact h.sublist (List.take_sublist k _)

end Batch

namespace Catalog

/-- **Images with one reference**: two names come to the same reference only if one of them has an
override with a path of its own. Without such overrides the references of a set all differ, and so
do those that a push to it reports on, so no push overwrites another. -/
theorem shared_reference_overridden {o : Overrides} {v : KubeVersion} {set : ImageSet}
    (h : build o v = .ok set) :
    (∀ name name' i j, name ≠ name' → set.resolve name = .ok i → set.resolve name' = .ok j →
      i.reference = j.reference → HasOwnPath o name ∨ HasOwnPath o name') ∧
    ((∀ e ∈ table, ¬HasOwnPath o e.name) → set.references.Nodup ∧
      ∀ w options source c s,
        ((Batch.pushAll w options source set c s).1.results.map (·.reference)).Nodup) := by
  constructor
  · intro name name' i j hne hi hj hr
    obtain ⟨himem, rfl⟩ := ImageSet.resolve_eq_ok_iff.1 hi
    obtain ⟨hjmem, rfl⟩ := ImageSet.resolve_eq_ok_iff.1 hj
    by_cases hio : HasOwnPath o i.name
    · exact .inl hio
    · by_cases hjo : HasOwnPath o j.name
      · exact .inr hjo
      · exact absurd (name_eq_of_reference_eq h himem hjmem hio hjo hr) hne
  · intro hown
    refine ⟨nodup_references h hown set.sorted fun i hi => hi, fun w options source c s => ?_⟩
    obtain ⟨k, hk⟩ := Batch.Duty.covers w options (.push source set c) s
    have himages : (Batch.Duty.push source set c).images = Batch.counterparts source set :=
      Batch.map_snd_pairs source set
    rw [himages] at hk
    exact hk.nodup_references (nodup_references h hown (Batch.sorted_counterparts source set)
      fun i hi => Batch.mem_of_mem_counterparts hi)

/-- A mirror of the registry, one image on a host of its own, and one that is put where the mirror
has another. -/
def crossed : Overrides :=
  .ofList [("gcRegistry", "mirror.local:5000/e2e/"), ("kube-scheduler", "other.local"),
    ("conformance", "mirror.local:5000/e2e/kube-proxy")]

theorem placeOf_crossed : ∀ e ∈ table, placeOf crossed e =
    if e.name = "conformance" then ("mirror.local:5000", "e2e/kube-proxy")
    else if e.name = "kube-scheduler" then ("other.local", "kube-scheduler")
    else ("mirror.local:5000", "e2e/" ++ e.repository) := by
  intro e he
  simp only [placeOf, registryOf, given?_eq]
  revert e
  decide +kernel

theorem crossed_images_share :
    ∃ set i j, build crossed ⟨"v1.18.0", by decide⟩ = .ok set ∧
      set.resolve "conformance" = .ok i ∧ set.resolve "kube-proxy" = .ok j ∧
      i.reference = j.reference ∧
      (HasOwnPath crossed "conformance" ∨ HasOwnPath crossed "kube-proxy") := by
  have hlocated : Located crossed := located_iff.2 (by decide +kernel)
  have hvalid : ∀ e ∈ table, faultOf crossed ⟨"v1.18.0", by decide⟩ e = none := by
    intro e he
    rw [faultOf, placeOf_crossed e he]
    revert e
    decide +kernel
  obtain ⟨set, hbuild, -⟩ := build_of_valid hlocated hvalid
  have hconformance : (⟨"conformance", "conformance"⟩ : Entry) ∈ table := by decide
  have hproxy : (⟨"kube-proxy", "kube-proxy"⟩ : Entry) ∈ table := by decide
  obtain ⟨i, hi, hiname, hiref⟩ := exists_image hbuild hconformance
  obtain ⟨j, hj, hjname, hjref⟩ := exists_image hbuild hproxy
  have hi := ImageSet.resolve_eq_ok_iff.2 ⟨hi, hiname⟩
  have hj := ImageSet.resolve_eq_ok_iff.2 ⟨hj, hjname⟩
  have hr : i.reference = j.reference := by
    rw [hiref, hjref, referenceAt, referenceAt, placeOf_crossed _ hconformance,
      placeOf_crossed _ hproxy]
    rfl
  exact ⟨set, i, j, hbuild, hi, hj, hr,
    (shared_reference_overridden hbuild).1 _ _ i j (by decide) hi hj hr⟩

end Catalog

end ImageRelay
