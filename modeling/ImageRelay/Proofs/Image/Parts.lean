import ImageRelay.Engine.Authorization
import ImageRelay.Proofs.Image.References

/-!
# References and their parts

The text of a reference determines its parts: the host ends at the first slash, the tag begins
behind the last colon, and the repository is what lies between (`CutsInto`). A host may hold a colon
and a repository slashes, so neither cut could be made at any other occurrence. The registry that
credentials are filed under is read off the same text by another rule (`RegistryOf`), and is the
host of the image wherever that is a full name.
-/

set_option autoImplicit false

namespace ImageRelay

/-- A reference is cut into a host before the first slash, a tag behind the last colon, and the
repository between them. -/
structure CutsInto (reference host repository tag : String) : Prop where
  text : reference.toList = host.toList ++ '/' :: (repository.toList ++ ':' :: tag.toList)
  first : '/' ∉ host.toList
  last : ':' ∉ tag.toList

/-- A text is cut in one way only. -/
theorem CutsInto.unique {reference host repository tag host' repository' tag' : String}
    (h : CutsInto reference host repository tag)
    (h' : CutsInto reference host' repository' tag') :
    host = host' ∧ repository = repository' ∧ tag = tag' := by
  have htext := h.text.symm.trans h'.text
  rwa [Text.append_cons_inj h.first h'.first, Text.append_cons_inj_last h.last h'.last,
    String.toList_inj, String.toList_inj, String.toList_inj] at htext

namespace Authorization

/-- The host of a reference is a full name. -/
theorem isHost_iff {host : String} : isHost host.toList = true ↔
    '.' ∈ host.toList ∨ ':' ∈ host.toList ∨ host = "localhost" := by
  simp only [isHost, Bool.or_eq_true, List.contains_iff_mem, beq_iff_eq, or_assoc,
    String.toList_inj]

/-- The registry that a reference belongs to: what stands before its first slash, if that is a full
name, and the implicit one otherwise. -/
inductive RegistryOf (reference : String) : String → Prop
  | named {host : String} {rest : List Char} (ht : reference.toList = host.toList ++ '/' :: rest)
      (hs : '/' ∉ host.toList) (hn : '.' ∈ host.toList ∨ ':' ∈ host.toList ∨ host = "localhost") :
      RegistryOf reference host
  | unnamed {host : String} {rest : List Char} (ht : reference.toList = host.toList ++ '/' :: rest)
      (hs : '/' ∉ host.toList)
      (hn : ¬('.' ∈ host.toList ∨ ':' ∈ host.toList ∨ host = "localhost")) :
      RegistryOf reference "docker.io"
  | bare (h : '/' ∉ reference.toList) : RegistryOf reference "docker.io"

theorem registryHost_of_cut {reference host : String} {rest : List Char}
    (ht : reference.toList = host.toList ++ '/' :: rest) (hs : '/' ∉ host.toList) :
    registryHost reference =
      if '.' ∈ host.toList ∨ ':' ∈ host.toList ∨ host = "localhost" then host else "docker.io" := by
  have hfirst := Text.splitOnce_eq_some_iff.2 ⟨ht, hs⟩
  simp only [registryHost, hfirst, ← isHost_iff, String.ofList_toList]
  rfl

theorem registryHost_of_bare {reference : String} (h : '/' ∉ reference.toList) :
    registryHost reference = "docker.io" := by
  rw [registryHost, Text.splitOnce_eq_none_iff.2 h]
  rfl

theorem registryOf_iff {reference host : String} :
    RegistryOf reference host ↔ host = registryHost reference := by
  constructor
  · intro h
    cases h with
    | named ht hs hn => rw [registryHost_of_cut ht hs, if_pos hn]
    | unnamed ht hs hn => rw [registryHost_of_cut ht hs, if_neg hn]
    | bare h => rw [registryHost_of_bare h]
  · rintro rfl
    by_cases h : '/' ∈ reference.toList
    · obtain ⟨first, rest, ht, hs⟩ := List.eq_append_cons_of_mem h
      obtain ⟨host, rfl⟩ : ∃ host : String, first = host.toList :=
        ⟨String.ofList first, String.toList_ofList.symm⟩
      rw [registryHost_of_cut ht hs]
      split
      · exact .named ht hs ‹_›
      · exact .unnamed ht hs ‹_›
    · rw [registryHost_of_bare h]
      exact .bare h

end Authorization

namespace Image

theorem cutsInto (i : Image) : CutsInto i.reference i.host i.repository i.tag where
  text := i.toList_reference
  first := i.forms.1.slash_not_mem
  last := i.forms.2.2.colon_not_mem

/-- **References and their parts**: a reference is cut into the parts of its image and into no
others, so images have the same reference exactly if they have the same parts; and the registry that
it belongs to is the host of the image if that is a full name, and the implicit one otherwise. -/
theorem reference_cut (i : Image) :
    (∀ host repository tag, CutsInto i.reference host repository tag ↔
      host = i.host ∧ repository = i.repository ∧ tag = i.tag) ∧
    (∀ j : Image, i.reference = j.reference ↔
      i.host = j.host ∧ i.repository = j.repository ∧ i.tag = j.tag) ∧
    Authorization.registryHost i.reference =
      if '.' ∈ i.host.toList ∨ ':' ∈ i.host.toList ∨ i.host = "localhost" then i.host
      else "docker.io" := by
  refine ⟨fun host repository tag => ⟨fun h => h.unique i.cutsInto, ?_⟩, fun j => reference_inj, ?_⟩
  · rintro ⟨rfl, rfl, rfl⟩
    exact i.cutsInto
  · exact Authorization.registryHost_of_cut i.toList_reference i.cutsInto.first

end Image

end ImageRelay
