import ImageRelay.Proofs.Image.Grammar

/-!
# References of images

* `Image.reference_inj`: images with one reference have one host, one repository and one tag, since a
  host ends at the first slash and a tag begins behind the last colon.
* `Image.engineReference_iff`: engines take ASCII only, and tags of ASCII word characters, `.` and
  `-`. Hosts and repositories are ASCII by their forms, but a tag may hold word characters of any
  script, so the reference of an image is one that engines take exactly if its tag is ASCII.
-/

set_option autoImplicit false

namespace ImageRelay

/-! ## Parts of references -/

theorem HostForm.slash_not_mem {s : List Char} (h : HostForm s) : '/' ∉ s := by
  obtain ⟨name, port, rfl, hname, hport⟩ := h
  rw [List.mem_append, not_or]
  refine ⟨fun hc => absurd (hname.chars _ hc) (by decide), ?_⟩
  rcases hport with rfl | ⟨digits, -, hdigits, rfl⟩
  · simp
  · simpa using fun hc => absurd (hdigits _ hc) (by decide)

theorem TagForm.isTagChar_of_mem {s : List Char} (h : TagForm s) : ∀ c ∈ s, isTagChar c = true := by
  obtain ⟨c, r, rfl, hc, -, hr⟩ := h
  intro x hx
  simp only [isTagChar, Bool.or_eq_true, beq_iff_eq, or_assoc]
  rcases List.mem_cons.1 hx with rfl | hx
  · exact .inl hc
  · exact hr x hx

theorem TagForm.colon_not_mem {s : List Char} (h : TagForm s) : ':' ∉ s := fun hc =>
  absurd (h.isTagChar_of_mem ':' hc) (by decide +kernel)

namespace Image

theorem toList_reference (i : Image) : i.reference.toList =
    i.host.toList ++ '/' :: (i.repository.toList ++ ':' :: i.tag.toList) := by
  change (i.host ++ "/" ++ i.repository ++ ":" ++ i.tag).toList = _
  simp [String.toList_append]

theorem reference_inj {i j : Image} : i.reference = j.reference ↔
    i.host = j.host ∧ i.repository = j.repository ∧ i.tag = j.tag := by
  rw [← String.toList_inj, i.toList_reference, j.toList_reference,
    Text.append_cons_inj i.forms.1.slash_not_mem j.forms.1.slash_not_mem,
    Text.append_cons_inj_last i.forms.2.2.colon_not_mem j.forms.2.2.colon_not_mem,
    String.toList_inj, String.toList_inj, String.toList_inj]

end Image

/-! ## ASCII -/

/-- A text of ASCII characters. -/
def IsAscii (s : List Char) : Prop := ∀ c ∈ s, c.toNat < 128

theorem isAscii_append {s t : List Char} : IsAscii (s ++ t) ↔ IsAscii s ∧ IsAscii t := by
  simp only [IsAscii, List.mem_append, or_imp, forall_and]

theorem isAscii_cons {c : Char} {s : List Char} : IsAscii (c :: s) ↔ c.toNat < 128 ∧ IsAscii s := by
  simp [IsAscii]

theorem isAlphanum_eq (c : Char) : c.isAlphanum = (c.isUpper || c.isLower || c.isDigit) := rfl

theorem isAlphanum_iff {c : Char} : c.isAlphanum = true ↔ (0x41 ≤ c.toNat ∧ c.toNat ≤ 0x5A) ∨
    (0x61 ≤ c.toNat ∧ c.toNat ≤ 0x7A) ∨ (0x30 ≤ c.toNat ∧ c.toNat ≤ 0x39) := by
  have hupper : c.isUpper = decide ('A'.val ≤ c.val ∧ c.val ≤ 'Z'.val) := rfl
  have hlower : c.isLower = (decide ('a'.val ≤ c.val) && decide (c.val ≤ 'z'.val)) := rfl
  have hdigit : c.isDigit = (decide ('0'.val ≤ c.val) && decide (c.val ≤ '9'.val)) := rfl
  rw [isAlphanum_eq, hupper, hlower, hdigit]
  simp only [Bool.or_eq_true, Bool.and_eq_true, decide_eq_true_eq, UInt32.le_iff_toNat_le, or_assoc]
  exact Iff.rfl

theorem lt_of_isAlphanum {c : Char} (h : c.isAlphanum = true) : c.toNat < 128 := by
  rw [isAlphanum_iff] at h
  omega

theorem HostForm.isAscii {s : List Char} (h : HostForm s) : IsAscii s := by
  obtain ⟨name, port, rfl, hname, hport⟩ := h
  refine isAscii_append.2 ⟨fun c hc => ?_, ?_⟩
  · rcases hname.chars c hc with hc | rfl | rfl
    · exact lt_of_isAlphanum hc
    · decide
    · decide
  · rcases hport with rfl | ⟨digits, -, hdigits, rfl⟩
    · simp [IsAscii]
    · exact isAscii_cons.2 ⟨by decide, fun d hd =>
        lt_of_isAlphanum (by simp [isAlphanum_eq, hdigits d hd])⟩

theorem Separator.isAscii {s : List Char} (h : Separator s) : IsAscii s := by
  cases h with
  | dashes n =>
    intro c hc
    rw [List.eq_of_mem_replicate hc]
    decide
  | _ => simp [IsAscii]

theorem IsRun.isAscii {s : List Char} (h : IsRun s) : IsAscii s := fun c hc =>
  lt_of_isAlphanum (by rcases h.2 c hc with hc | hc <;> simp [isAlphanum_eq, hc])

theorem Component.isAscii {s : List Char} (h : Component s) : IsAscii s := by
  induction h with
  | run h => exact h.isAscii
  | join _ hs hr ih => exact isAscii_append.2 ⟨isAscii_append.2 ⟨ih, hs.isAscii⟩, hr.isAscii⟩

theorem RepositoryForm.isAscii {s : List Char} (h : RepositoryForm s) : IsAscii s :=
  Text.Joined.forall h (by decide) fun _ hc => hc.isAscii

/-! ## What engines take -/

/-- A tag as engines take it. -/
def EngineTag (s : List Char) : Prop :=
  ∃ c r, s = c :: r ∧ (c.isAlphanum = true ∨ c = '_') ∧ r.length ≤ 127 ∧
    ∀ x ∈ r, x.isAlphanum = true ∨ x = '_' ∨ x = '.' ∨ x = '-'

/-- A reference as engines take it: ASCII only, with such a tag behind its last colon. -/
def EngineReference (s : List Char) : Prop :=
  IsAscii s ∧ ∃ place tag, s = place ++ ':' :: tag ∧ ':' ∉ tag ∧ EngineTag tag

/-- The runs of word characters behind the fourth are beyond ASCII. -/
theorem wordRanges_drop : ∀ r ∈ Text.wordRanges.drop 4, 128 ≤ r.1 := by decide +kernel

/-- The ASCII word characters are letters, digits and the underscore. -/
theorem isWord_ascii {c : Char} (hc : c.toNat < 128) (h : Text.isWord c = true) :
    c.isAlphanum = true ∨ c = '_' := by
  obtain ⟨r, hr, hin⟩ := List.any_eq_true.1 h
  have hsplit : Text.wordRanges = [(0x30, 0x39), (0x41, 0x5A), (0x5F, 0x5F), (0x61, 0x7A)] ++
      Text.wordRanges.drop 4 := rfl
  simp only [Bool.and_eq_true, decide_eq_true_eq] at hin
  rw [hsplit, List.mem_append] at hr
  rcases hr with hr | hr
  · simp only [List.mem_cons, List.not_mem_nil, or_false] at hr
    rw [isAlphanum_iff, ← Char.toNat_inj]
    have hunderscore : '_'.toNat = 0x5F := rfl
    rcases hr with rfl | rfl | rfl | rfl <;> simp only at hin <;> omega
  · have hlow := wordRanges_drop r hr
    omega

/-- A tag that is ASCII is one that engines take. -/
theorem TagForm.engineTag {s : List Char} (h : TagForm s) (ha : IsAscii s) : EngineTag s := by
  obtain ⟨c, r, rfl, hc, hlen, hr⟩ := h
  refine ⟨c, r, rfl, isWord_ascii (ha c List.mem_cons_self) hc, hlen, fun x hx => ?_⟩
  rcases hr x hx with hw | hpunct
  · rcases isWord_ascii (ha x (List.mem_cons_of_mem _ hx)) hw with h | h
    · exact .inl h
    · exact .inr (.inl h)
  · exact .inr (.inr hpunct)

theorem EngineTag.colon_not_mem {s : List Char} (h : EngineTag s) : ':' ∉ s := by
  obtain ⟨c, r, rfl, hc, -, hr⟩ := h
  rw [List.mem_cons, not_or]
  refine ⟨?_, fun hx => absurd (hr _ hx) (by decide)⟩
  rintro rfl
  exact absurd hc (by decide)

namespace Image

/-- **References that engines take**: host and repository of an image are ASCII, and its reference
is one that engines take exactly if its tag is ASCII too. -/
theorem engineReference_iff (i : Image) :
    IsAscii i.host.toList ∧ IsAscii i.repository.toList ∧
    (EngineReference i.reference.toList ↔ IsAscii i.tag.toList) := by
  obtain ⟨hhost, hrepository, htag⟩ := i.forms
  refine ⟨hhost.isAscii, hrepository.isAscii, fun h => ?_, fun h => ?_⟩
  · have hall := h.1
    rw [toList_reference, isAscii_append, isAscii_cons, isAscii_append, isAscii_cons] at hall
    exact hall.2.2.2.2
  · have hengine := htag.engineTag h
    refine ⟨?_, i.host.toList ++ '/' :: i.repository.toList, i.tag.toList, ?_,
      hengine.colon_not_mem, hengine⟩
    · rw [toList_reference, isAscii_append, isAscii_cons, isAscii_append, isAscii_cons]
      exact ⟨hhost.isAscii, by decide, hrepository.isAscii, by decide, h⟩
    · simp [toList_reference]

/-- An image with an accent in its tag. -/
theorem accented_tag_accepted : ∃ i : Image,
    make "conformance" "k8s.gcr.io" "conformance" "v1.18.0-é" = .ok i ∧
    ¬EngineReference i.reference.toList := by
  have hvalid : ReferenceFault.find? "k8s.gcr.io" "conformance" "v1.18.0-é" = none := by
    decide +kernel
  refine ⟨⟨"conformance", "k8s.gcr.io", "conformance", "v1.18.0-é", hvalid⟩,
    make_eq_ok_iff.2 ⟨rfl, rfl, rfl, rfl⟩, fun h => ?_⟩
  have haccent : 'é' ∈ "k8s.gcr.io/conformance:v1.18.0-é".toList := by decide
  exact absurd (h.1 'é' haccent) (by decide)

end Image

end ImageRelay
