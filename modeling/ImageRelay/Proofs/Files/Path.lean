import ImageRelay.Files.Path

/-!
# Parts and parents of paths

The parts of a path by its characters, and what its parent is: the text before its last name, cut
short of slashes and of parts that stand for the directory before them (`parent?_of_name`).

* `Walkable`: a path that can be walked at all.
* `OnWay`: the paths of the directories that a path leads through, by its text.
-/

set_option autoImplicit false

namespace ImageRelay.Path

/-- A path that can be walked at all. -/
structure Walkable (path : String) : Prop where
  noNul : '\x00' ∉ path.toList
  ne_empty : path ≠ ""
  short : path.utf8ByteSize < 4096

/-- A path that begins another one can be walked if that one can. -/
theorem Walkable.of_prefix {path : String} (h : Walkable path) {short : List Char}
    (hs : short <+: path.toList) (hne : short ≠ []) : Walkable (String.ofList short) where
  noNul := by
    rw [String.toList_ofList]
    exact fun hmem => h.noNul (hs.subset hmem)
  ne_empty := by simpa using hne
  short := by
    obtain ⟨rest, hrest⟩ := hs
    have hcut : path = String.ofList short ++ String.ofList rest := by
      rw [← String.ofList_append, hrest, String.ofList_toList]
    have hlen := h.short
    rw [hcut, String.utf8ByteSize_append] at hlen
    omega

/-! ## Parts -/

/-- The parts of a path by its characters. -/
def partsOf (cs : List Char) : List String :=
  ((cs.splitOn '/').filter (!·.isEmpty)).map String.ofList

theorem parts_eq (path : String) : parts path = partsOf path.toList := by
  rw [parts, Text.splitAll_eq_splitOn, partsOf]

theorem partsOf_append (a b : List Char) : partsOf (a ++ '/' :: b) = partsOf a ++ partsOf b := by
  rw [partsOf, List.splitOn_append_cons_self, List.filter_append, List.map_append, partsOf, partsOf]

theorem partsOf_name {name : List Char} (hs : '/' ∉ name) (hn : name ≠ []) :
    partsOf name = [String.ofList name] := by
  rw [partsOf, List.splitOn_eq_singleton hs]
  simp [hn]

/-! ## Parents -/

/-- The paths on the way to a path: the path, its parent, the parent of that, and so on. -/
inductive OnWay (path : String) : String → Prop
  | self : OnWay path path
  | parent {a b : String} (h : OnWay path a) (hp : parent? a = some b) : OnWay path b

theorem OnWay.of_parent {path parent a : String} (hp : parent? path = some parent)
    (h : OnWay parent a) : OnWay path a := by
  induction h with
  | self => exact .parent .self hp
  | parent _ hp' ih => exact .parent ih hp'

/-- A name at the end of a path is not trimmed, unless it stands for the directory before it. -/
theorem trimReversed_append {name : List Char} (hs : '/' ∉ name) (hn : name ≠ [])
    (hdot : name ≠ ['.']) (rest : List Char) :
    trimReversed (name.reverse ++ rest) = name.reverse ++ rest := by
  obtain ⟨c, r, hcr⟩ := List.exists_cons_of_ne_nil (mt List.reverse_eq_nil_iff.1 hn)
  have hmem {x : Char} (hx : x ∈ c :: r) : x ≠ '/' := by
    rintro rfl
    exact hs (List.mem_reverse.1 (hcr ▸ hx))
  rw [hcr, List.cons_append]
  unfold trimReversed
  split
  · rename_i h
    exact absurd (List.cons.inj h).1 (hmem List.mem_cons_self)
  · rename_i h
    exact absurd (List.cons.inj h).1 (hmem List.mem_cons_self)
  · rename_i h
    obtain ⟨rfl, hr⟩ := List.cons.inj h
    cases r with
    | nil => exact absurd (List.reverse_eq_iff.1 hcr) hdot
    | cons x r => exact absurd (List.cons.inj hr).1 (hmem (by simp))
  · rfl

theorem exists_last_slash {cs : List Char} (h : '/' ∈ cs) :
    ∃ pre name, cs = pre ++ '/' :: name ∧ '/' ∉ name := by
  obtain ⟨rev, pre, hrev, hname⟩ := List.eq_append_cons_of_mem (List.mem_reverse.2 h)
  refine ⟨pre.reverse, rev.reverse, ?_, by simpa using hname⟩
  rw [← List.reverse_reverse cs, hrev]
  simp

/-- The parent of a path is what stands before its last name, cut short. -/
theorem parent?_of_name {path : String} {name rest : List Char} (hs : '/' ∉ name) (hn : name ≠ [])
    (hdot : name ≠ ['.']) (hcut : path.toList = rest.reverse ++ name)
    (hrest : ∀ c ∈ rest.head?, c = '/') :
    parent? path = some (String.ofList (trimReversed rest).reverse) := by
  have hrev : path.toList.reverse = name.reverse ++ rest := by rw [hcut]; simp
  have hdrop : (name.reverse ++ rest).dropWhile (· != '/') = rest := by
    refine (Text.span_eq_iff.2 ⟨rfl, fun x hx => ?_, fun x hx => ?_⟩).2
    · have hne : x ≠ '/' := by
        rintro rfl
        exact hs (List.mem_reverse.1 hx)
      simpa using hne
    · simp [hrest x hx]
  unfold parent?
  rw [hrev, trimReversed_append hs hn hdot]
  split
  · rename_i h
    simp [hn] at h
  · rename_i h
    have hmem : '/' ∈ name.reverse := by
      obtain ⟨c, r, hcr⟩ := List.exists_cons_of_ne_nil (mt List.reverse_eq_nil_iff.1 hn)
      rw [hcr] at h ⊢
      rw [(List.cons.inj h).1]
      exact List.mem_cons_self
    exact absurd (List.mem_reverse.1 hmem) hs
  · rw [hdrop]

end ImageRelay.Path
