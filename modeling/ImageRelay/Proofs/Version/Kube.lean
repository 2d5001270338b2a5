import ImageRelay.Files.Path
import ImageRelay.Proofs.Image.References
import ImageRelay.Proofs.Version.Grammar
import ImageRelay.Version.Kube

/-!
# Versions that are accepted

A text is accepted if it is a semantic version once the blanks around it and one leading `v` are
taken off, and it is accepted as it is but for the blanks (`parse_eq_ok_iff`). Its characters are
letters, digits, hyphens, dots and the plus before build metadata, so it is a tag exactly if it has no
plus and is short enough (`tagForm_iff`), and its archive is one part of a path.
-/

set_option autoImplicit false

namespace ImageRelay

open Semantic (IsVersion isJoinedChar)

/-! ## The leading `v` -/

theorem withoutV_cases (s : List Char) :
    (s.head? = some 'v' ∧ s = 'v' :: withoutV s) ∨ (s.head? ≠ some 'v' ∧ withoutV s = s) := by
  unfold withoutV
  split
  · exact .inl ⟨rfl, rfl⟩
  · rename_i hv
    refine .inr ⟨fun h => ?_, rfl⟩
    obtain ⟨r, hr⟩ := List.head?_eq_some_iff.1 h
    exact hv r hr

/-- The part before the first plus begins as the text. -/
theorem head?_takeWhile (s : List Char) :
    (s.takeWhile (· != '+')).head? = some 'v' ↔ s.head? = some 'v' := by
  cases s with
  | nil => exact Iff.rfl
  | cons c r =>
    by_cases hc : c = '+' <;> simp [hc]

/-- To take off a leading `v` and to cut at the first plus go together. -/
theorem withoutV_takeWhile (s : List Char) :
    withoutV (s.takeWhile (· != '+')) = (withoutV s).takeWhile (· != '+') := by
  rcases withoutV_cases s with ⟨-, hs⟩ | ⟨hhead, hs⟩
  · rw [hs]
    rfl
  · rw [hs]
    rcases withoutV_cases (s.takeWhile (· != '+')) with ⟨ht, -⟩ | ⟨-, ht⟩
    · exact absurd ((head?_takeWhile s).1 ht) hhead
    · exact ht

/-! ## Characters -/

/-- The characters of a version, with the `v` before it. -/
theorem isJoinedChar_of_mem {s : List Char} (h : IsVersion (withoutV s)) :
    ∀ c ∈ s, isJoinedChar c = true ∨ c = '+' := by
  intro c hc
  rcases withoutV_cases s with ⟨-, hs⟩ | ⟨-, hs⟩
  · rw [hs] at hc
    rcases List.mem_cons.1 hc with rfl | hc
    · exact .inl (by decide)
    · exact h.forall c hc
  · exact h.forall c (hs.symm ▸ hc)

theorem exists_cons_of_isVersion {s : List Char} (h : IsVersion (withoutV s)) :
    ∃ c r, s = c :: r ∧ c.isAlphanum = true := by
  rcases withoutV_cases s with ⟨-, hs⟩ | ⟨-, hs⟩
  · exact ⟨'v', withoutV s, hs, by decide⟩
  · obtain ⟨d, r, hr, hd⟩ := h.exists_cons
    exact ⟨d, r, hs.symm.trans hr, Text.isAlphanum_of_isDigit hd⟩

theorem not_isBlank {c : Char} (h : isJoinedChar c = true ∨ c = '+') : Text.isBlank c = false := by
  rw [Semantic.isJoinedChar_iff] at h
  rcases h with ((h | rfl) | rfl) | rfl
  · rw [isAlphanum_iff] at h
    simp only [Text.isBlank, Bool.or_eq_false_iff, Bool.and_eq_false_iff, decide_eq_false_iff_not,
      beq_eq_false_iff_ne]
    omega
  · decide
  · decide
  · decide

theorem trim_eq_self_of_isVersion {s : List Char} (h : IsVersion (withoutV s)) :
    Text.trim s = s :=
  Text.trim_eq_self (fun c hc => not_isBlank (isJoinedChar_of_mem h c (List.mem_of_mem_head? hc)))
    fun c hc => not_isBlank (isJoinedChar_of_mem h c (List.mem_of_getLast? hc))

namespace KubeVersion

/-! ## Acceptance -/

theorem toBool_parse_iff {s : List Char} :
    (Semantic.parse s).toBool = true ↔ IsVersion s := by
  rw [Semantic.isVersion_iff]
  cases Semantic.parse s <;> simp [Except.toBool]

theorem isVersion (v : KubeVersion) : IsVersion (withoutV v.text.toList) :=
  toBool_parse_iff.1 v.accepted

theorem parse_of_isVersion {raw : String} (h : IsVersion (withoutV (Text.trim raw.toList))) :
    ∃ v, parse raw = .ok v ∧ v.text = Text.trimmed raw := by
  have htext := Text.toList_trimmed raw
  have hempty : Text.trimmed raw ≠ "" := by
    intro heq
    obtain ⟨c, r, hcons, -⟩ := exists_cons_of_isVersion h
    rw [← htext, heq] at hcons
    cases hcons
  have hauto : Text.trimmed raw ≠ auto := by
    intro heq
    obtain ⟨d, r, hcons, hd⟩ := h.exists_cons
    rw [← htext, heq] at hcons
    obtain rfl : 'a' = d := (List.cons.inj hcons).1
    cases hd
  simp only [parse, hempty, hauto, if_false]
  split
  · rename_i fault hfault
    obtain ⟨v, hv⟩ := Semantic.isVersion_iff.1 (htext.symm ▸ h)
    rw [hfault] at hv
    cases hv
  · exact ⟨_, rfl, rfl⟩

theorem parse_of_not_isVersion {raw : String}
    (h : ¬IsVersion (withoutV (Text.trim raw.toList))) :
    ∃ reason, parse raw = .error (.invalidVersion raw reason) := by
  unfold parse
  simp only
  split
  · exact ⟨_, rfl⟩
  split
  · exact ⟨_, rfl⟩
  split
  · exact ⟨_, rfl⟩
  · rename_i v hv
    exact absurd (Semantic.isVersion_iff.2 ⟨v, Text.toList_trimmed raw ▸ hv⟩) h

theorem eq_of_text_eq {v w : KubeVersion} (h : v.text = w.text) : v = w := by
  cases v
  cases w
  simpa using h

/-- A text is accepted as what it is without the blanks around it. -/
theorem parse_eq_ok_iff {raw : String} {v : KubeVersion} :
    parse raw = .ok v ↔ v.text = Text.trimmed raw := by
  by_cases h : IsVersion (withoutV (Text.trim raw.toList))
  · obtain ⟨w, hparse, htext⟩ := parse_of_isVersion h
    rw [hparse, ← htext, Except.ok.injEq]
    exact ⟨fun heq => heq ▸ rfl, fun heq => eq_of_text_eq heq.symm⟩
  · obtain ⟨reason, hparse⟩ := parse_of_not_isVersion h
    rw [hparse]
    constructor
    · intro heq
      cases heq
    · intro heq
      have hv := v.isVersion
      rw [heq, Text.toList_trimmed] at hv
      exact absurd hv h

/-- A version is accepted as it is. -/
theorem parse_text (v : KubeVersion) : parse v.text = .ok v := by
  rw [parse_eq_ok_iff, Text.trimmed, trim_eq_self_of_isVersion v.isVersion, String.ofList_toList]

/-! ## Versions as tags -/

/-- A version that can be the tag of an image. -/
def Taggable (v : KubeVersion) : Prop := '+' ∉ v.text.toList ∧ v.text.length ≤ 128

theorem tagForm_iff (v : KubeVersion) : TagForm v.text.toList ↔ v.Taggable := by
  obtain ⟨c, r, hcons, hc⟩ := exists_cons_of_isVersion v.isVersion
  have hchars := isJoinedChar_of_mem v.isVersion
  unfold Taggable
  rw [← String.length_toList, hcons]
  rw [hcons] at hchars
  constructor
  · intro h
    have hplus : '+' ∉ c :: r := fun hmem =>
      absurd (h.isTagChar_of_mem '+' hmem) (by decide +kernel)
    obtain ⟨_, _, heq, -, hlen, -⟩ := h
    obtain ⟨rfl, rfl⟩ := List.cons.inj heq
    exact ⟨hplus, by rw [List.length_cons]; omega⟩
  · rintro ⟨hbare, hlen⟩
    rw [List.length_cons] at hlen
    refine ⟨c, r, rfl, Text.isWord_of_isAlphanum hc, by omega, ?_⟩
    intro x hx
    have hmem := List.mem_cons_of_mem c hx
    have hjoined := (hchars x hmem).resolve_right fun heq => hbare (heq ▸ hmem)
    rcases Semantic.isJoinedChar_iff.1 hjoined with (h | h) | h
    · exact .inl (Text.isWord_of_isAlphanum h)
    · exact .inr (.inr h)
    · exact .inr (.inl h)

/-! ## Archives -/

theorem slash_not_mem_archiveName (v : KubeVersion) : '/' ∉ v.archiveName.toList := by
  have htext : '/' ∉ v.text.toList := fun h =>
    absurd (isJoinedChar_of_mem v.isVersion '/' h) (by decide)
  change '/' ∉ ("kubernetes_e2e_images_" ++ v.text ++ ".tar").toList
  rw [String.toList_append, String.toList_append, List.mem_append, List.mem_append]
  rintro ((h | h) | h)
  · exact absurd h (by decide)
  · exact htext h
  · exact absurd h (by decide)

theorem archiveName_ne_empty (v : KubeVersion) : v.archiveName ≠ "" := by
  intro h
  have hlist := congrArg String.toList h
  change ("kubernetes_e2e_images_" ++ v.text ++ ".tar").toList = [] at hlist
  simp [String.toList_append] at hlist

end KubeVersion

/-- A name without a slash is one part of a path. -/
theorem Path.parts_eq_singleton {name : String} (h : '/' ∉ name.toList) (hne : name ≠ "") :
    parts name = [name] := by
  have hlist : name.toList.isEmpty = false :=
    Bool.eq_false_iff.2 fun he => hne (by simpa using he)
  rw [parts, Text.splitAll_eq_splitOn, List.splitOn_eq_singleton h]
  simp [hlist, String.ofList_toList]

end ImageRelay
