import ImageRelay.Proofs.Version.Releases

/-!
# What version texts come to

The cluster is asked for `auto` and for nothing else. Its answer is read, written again without
build metadata and read once more; since a version is written as it was read, all that does is to
cut the answer at its first plus (`withoutBuild_of_isVersion`).
-/

set_option autoImplicit false

namespace ImageRelay

open Semantic (IsVersion)

/-! ## Build metadata -/

/-- A text that is a version behind one leading `v` or none, written without build metadata. -/
theorem takeWhile_eq_bare {s : List Char} {v : Semantic} (hv : v.Proper)
    (hs : withoutV s = v.text) : s.takeWhile (· != '+') =
      if s.head? = some 'v' then 'v' :: v.bare.text else v.bare.text := by
  rcases withoutV_cases s with ⟨hhead, hcons⟩ | ⟨hhead, hself⟩
  · rw [if_pos hhead, hcons, hs, List.takeWhile_cons_of_pos (by decide), hv.takeWhile_text]
  · rw [if_neg hhead, ← hself, hs, hv.takeWhile_text]

theorem withoutBuild_of_isVersion {raw : String}
    (h : IsVersion (withoutV (Text.trim raw.toList))) :
    withoutBuild raw = String.ofList ((Text.trim raw.toList).takeWhile (· != '+')) := by
  obtain ⟨v, hv, hs⟩ := h
  have hparse : Semantic.parse (withoutV (Text.trim raw.toList)) = .ok v :=
    Semantic.parse_eq_ok_iff.2 ⟨hv, hs⟩
  rw [takeWhile_eq_bare hv hs]
  simp only [withoutBuild, hparse]
  split
  · rename_i hbuild
    -- there is no build metadata to leave out
    have hbare : v.bare.text = withoutV (Text.trim raw.toList) := by
      rw [hs, v.text_eq_bare, Semantic.marked, if_pos hbuild, List.append_nil]
    rcases withoutV_cases (Text.trim raw.toList) with ⟨hhead, hcons⟩ | ⟨hhead, hself⟩
    · rw [if_pos hhead, hbare, ← hcons]
    · rw [if_neg hhead, hbare, hself]
  · rfl

theorem withoutBuild_of_not_isVersion {raw : String}
    (h : ¬IsVersion (withoutV (Text.trim raw.toList))) : withoutBuild raw = Text.trimmed raw := by
  simp only [withoutBuild]
  split
  · rfl
  · rename_i v hv
    exact absurd (Semantic.isVersion_iff.2 ⟨v, hv⟩) h

/-! ## Resolution -/

namespace Resolution

/-- What the answer of a cluster is resolved to: the answer up to its first plus, as a version that
has a release if it is short enough. -/
structure Answered (answer : String) (v : KubeVersion) : Prop where
  text : v.text.toList = (Text.trim answer.toList).takeWhile (· != '+')
  sign : v.text.toList.head? = some 'v' ↔ (Text.trim answer.toList).head? = some 'v'
  bare : '+' ∉ v.text.toList
  accepted : KubeVersion.parse v.text = .ok v
  released : v.text.length ≤ 128 → ∀ s, ∃ set, Catalog.load none v s = (.ok set, s)

/-- What a text comes to, and how often the cluster is asked for it. -/
inductive Comes (raw : String) (cluster : Except Chain String) :
    Nat → Except ResolutionError KubeVersion → Prop
  /-- An explicit version is taken as it is, without the blanks around it. -/
  | explicit {v : KubeVersion} (hraw : Text.trimmed raw ≠ "auto")
      (hv : IsVersion (withoutV (Text.trim raw.toList))) (text : v.text = Text.trimmed raw) :
      Comes raw cluster 0 (.ok v)
  /-- Any other explicit text is refused. -/
  | refused {reason : String} (hraw : Text.trimmed raw ≠ "auto")
      (hv : ¬IsVersion (withoutV (Text.trim raw.toList))) :
      Comes raw cluster 0 (.error (.invalidVersion raw reason))
  /-- The cluster answers with a version. -/
  | answered {answer : String} {v : KubeVersion} (hraw : Text.trimmed raw = "auto")
      (hcluster : cluster = .ok answer) (hv : IsVersion (withoutV (Text.trim answer.toList)))
      (ha : Answered answer v) : Comes raw cluster 1 (.ok v)
  /-- The cluster answers with something else. -/
  | unfit {answer reason : String} (hraw : Text.trimmed raw = "auto")
      (hcluster : cluster = .ok answer) (hv : ¬IsVersion (withoutV (Text.trim answer.toList))) :
      Comes raw cluster 1 (.error (.invalidVersion (Text.trimmed answer) reason))
  /-- The cluster cannot be asked. -/
  | unanswered {source : Chain} (hraw : Text.trimmed raw = "auto")
      (hcluster : cluster = .error source) : Comes raw cluster 1 (.error (.clusterVersion source))

theorem trim_withoutBuild {answer : String}
    (h : IsVersion (withoutV (Text.trim answer.toList))) :
    IsVersion (withoutV (Text.trim (withoutBuild answer).toList)) ∧
      Text.trim (withoutBuild answer).toList =
        (Text.trim answer.toList).takeWhile (· != '+') := by
  have hcut : IsVersion (withoutV ((Text.trim answer.toList).takeWhile (· != '+'))) := by
    rw [withoutV_takeWhile]
    exact h.takeWhile
  rw [withoutBuild_of_isVersion h, String.toList_ofList, trim_eq_self_of_isVersion hcut]
  exact ⟨hcut, rfl⟩

theorem answered_of_text {answer : String} {v : KubeVersion}
    (htext : v.text.toList = (Text.trim answer.toList).takeWhile (· != '+')) :
    Answered answer v := by
  have hkept : ∀ c ∈ (Text.trim answer.toList).takeWhile (· != '+'), (c != '+') = true :=
    List.all_eq_true.1 List.all_takeWhile
  have hbare : '+' ∉ v.text.toList := by
    intro hmem
    exact absurd (hkept '+' (htext ▸ hmem)) (by decide)
  refine ⟨htext, htext ▸ head?_takeWhile _, hbare, v.parse_text, fun hlen s => ?_⟩
  rcases Catalog.build_empty_cases v with ⟨-, set, hbuild⟩ | ⟨htag, -⟩
  · exact ⟨set, by rw [Catalog.load_none, hbuild]⟩
  · exact absurd ⟨hbare, hlen⟩ htag

/-- **What version texts come to**: the cluster is asked once for `auto` and never for anything
else. An explicit version is resolved to itself, an answer to its part before the first plus, and
neither of them to anything if it is no semantic version behind one leading `v` or none. -/
theorem comes_ofText (raw : String) (cluster : Except Chain String) :
    Comes raw cluster (ofText raw).questions ((ofText raw).result cluster) := by
  by_cases hraw : Text.trimmed raw = auto
  · rw [ofText, if_pos hraw]
    cases cluster with
    | error source => exact .unanswered hraw rfl
    | ok answer =>
      rw [result]
      by_cases hv : IsVersion (withoutV (Text.trim answer.toList))
      · obtain ⟨hcut, htrim⟩ := trim_withoutBuild hv
        obtain ⟨v, hparse, htext⟩ := KubeVersion.parse_of_isVersion hcut
        rw [hparse]
        refine .answered hraw rfl hv (answered_of_text ?_)
        rw [htext, Text.toList_trimmed, htrim]
      · have hno : ¬IsVersion (withoutV (Text.trim (Text.trimmed answer).toList)) := by
          rwa [Text.toList_trimmed, Text.trim_trim]
        obtain ⟨reason, hparse⟩ := KubeVersion.parse_of_not_isVersion hno
        rw [withoutBuild_of_not_isVersion hv, hparse]
        exact .unfit hraw rfl hv
  · rw [ofText, if_neg hraw, result]
    by_cases hv : IsVersion (withoutV (Text.trim raw.toList))
    · obtain ⟨v, hparse, htext⟩ := KubeVersion.parse_of_isVersion hv
      rw [hparse]
      exact .explicit hraw hv htext
    · obtain ⟨reason, hparse⟩ := KubeVersion.parse_of_not_isVersion hv
      rw [hparse]
      exact .refused hraw hv

end Resolution

end ImageRelay
