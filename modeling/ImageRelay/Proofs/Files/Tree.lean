import ImageRelay.Files.Tree

/-!
# Reading back what was stored

An entry that is put where a path leads to is found there afterwards, since no directory on the way
is changed (`walk_put`). So a destination that was created as a file holds what is stored in it
(`read_store`), and it is empty before that (`read_create`).
-/

set_option autoImplicit false

namespace ImageRelay.Files.Tree

/-! ## Entries -/

theorem lookup_filter_ne {place p : Place} (h : p ≠ place) (entries : List (Place × Entry)) :
    (entries.filter (·.1 != place)).lookup p = entries.lookup p := by
  induction entries with
  | nil => rfl
  | cons f entries ih =>
    obtain ⟨q, e⟩ := f
    by_cases hq : q = place
    · have hp : (p == q) = false := beq_false_of_ne (hq ▸ h)
      rw [List.filter_cons_of_neg (by simp [hq]), List.lookup_cons, hp, ih]
    · rw [List.filter_cons_of_pos (by simp [hq]), List.lookup_cons, List.lookup_cons, ih]

theorem entry?_put {place : Place} (h : place ≠ []) (t : Tree) (e : Entry) (p : Place) :
    entry? (t.put place e) p = if p = place then some e else t.entry? p := by
  by_cases hp : p = place
  · simp [put, entry?, hp, h]
  · have hne : (p == place) = false := beq_false_of_ne hp
    simp [put, entry?, hp, hne, List.lookup_cons, lookup_filter_ne]

theorem put_put (t : Tree) (place : Place) (e e' : Entry) :
    (t.put place e).put place e' = t.put place e' := by
  simp [put, List.filter_filter]

/-! ## Walking -/

/-- The place that a target is at. -/
def Target.place : Target → Place
  | found place _ | free place => place

/-- What is at a target. -/
def Target.held? : Target → Option Entry
  | found _ e => some e
  | free _ => none

theorem entry?_of_walkFrom {t : Tree} {start : Place} {parts : List String} {target : Target}
    (h : t.walkFrom start parts = .ok target) : t.entry? target.place = target.held? := by
  fun_induction t.walkFrom start parts with
  | case1 place e he =>
    cases h
    exact he
  | case7 place part rest hd _ _ _ next hfree =>
    cases h
    simp only [Bool.and_eq_true, Option.isNone_iff_eq_none] at hfree
    exact hfree.2
  | case5 _ _ _ _ ih | case6 _ _ _ _ _ ih | case8 _ _ _ _ _ _ _ _ _ ih => exact ih h
  | case2 | case3 | case4 | case9 => cases h

/-- A target other than a directory is not the root. -/
theorem place_ne_nil {t : Tree} {target : Target} (h : t.entry? target.place = target.held?)
    (hd : target.held? ≠ some .directory) : target.place ≠ [] := fun hp =>
  hd (by rw [← h, hp]; rfl)

/-- Directories stay where they are when something is put at another target. -/
theorem entry?_put_directory {t : Tree} {target : Target} (e : Entry)
    (h : t.entry? target.place = target.held?) (hd : target.held? ≠ some .directory) {p : Place}
    (hp : t.entry? p = some .directory) : entry? (t.put target.place e) p = some .directory := by
  rw [entry?_put (place_ne_nil h hd), if_neg, hp]
  rintro rfl
  exact hd (h ▸ hp)

theorem walkFrom_put {t : Tree} {start : Place} {parts : List String} {target : Target}
    (e : Entry) (h : t.walkFrom start parts = .ok target)
    (hd : target.held? ≠ some .directory) :
    (t.put target.place e).walkFrom start parts = .ok (.found target.place e) := by
  have hat := entry?_of_walkFrom h
  have hput := entry?_put (place_ne_nil hat hd) t e
  fun_induction t.walkFrom start parts with
  | case1 place e' he =>
    cases h
    have hhere : entry? (t.put place e) place = some e := (hput place).trans (if_pos rfl)
    simp only [walkFrom, Target.place, hhere]
  | case5 place rest hdir hlen ih =>
    rw [walkFrom, entry?_put_directory e hat hd hdir]
    simp only [hlen]
    exact ih h
  | case6 place rest hdir hlen hdot ih =>
    rw [walkFrom, entry?_put_directory e hat hd hdir]
    simp only [hlen, hdot]
    exact ih h
  | case7 place part rest hdir hlen hdot hup next hfree =>
    cases h
    obtain ⟨rfl, -⟩ : rest = [] ∧ t.entry? next = none := by simpa using hfree
    have hstay := entry?_put_directory e hat hd hdir
    have hhere : entry? (t.put next e) next = some e := (hput next).trans (if_pos rfl)
    have hnext : place ++ [part] = next := rfl
    simp only [Target.place] at hstay ⊢
    simp [walkFrom, hstay, hlen, hdot, hup, hnext, hhere]
  | case8 place part rest hdir hlen hdot hup next hfree ih =>
    -- the next place is not free afterwards either, whether or not the target is there
    rw [walkFrom, entry?_put_directory e hat hd hdir]
    have hstay : (rest.isEmpty &&
        (if next = target.place then some e else t.entry? next).isNone) = false := by
      split
      · exact Bool.and_false _
      · exact Bool.eq_false_iff.2 hfree
    have hnext : place ++ [part] = next := rfl
    simp only [hlen, hdot, hup, if_false, hnext, hput next, hstay]
    exact ih h
  | case2 | case3 | case4 | case9 => cases h

/-- Whether a path without a slash at its end can be walked is decided by its parts. -/
theorem walk_eq_walkFrom {t : Tree} {path : String} {target : Target}
    (h : t.walk path = .ok target) (hs : Path.endsInSlash path = false) (t' : Tree) :
    t'.walk path =
      t'.walkFrom (if Path.isAbsolute path then [] else t'.workdir) (Path.parts path) := by
  unfold walk at h ⊢
  split at h
  · cases h
  split at h
  · cases h
  split at h
  · cases h
  rename_i hnul hempty hlong
  rw [if_neg hnul, if_neg hempty, if_neg hlong]
  split
  · rename_i hw
    rw [if_neg (by simp [hs])]
    exact hw.symm
  · rfl

/-- Only a directory is found under a path that ends in a slash. -/
theorem endsInSlash_of_walk {t : Tree} {path : String} {place : Place} {e : Entry}
    (h : t.walk path = .ok (.found place e)) (he : e ≠ .directory) :
    Path.endsInSlash path = false := by
  unfold walk at h
  split at h
  · cases h
  split at h
  · cases h
  split at h
  · cases h
  split at h
  · split at h
    · cases h
    · rename_i hslash
      cases h
      simpa [he] using hslash
  · rename_i hnot
    exact absurd h (hnot place e)

theorem walk_put {t : Tree} {path : String} {target : Target} (e : Entry)
    (h : t.walk path = .ok target) (hd : target.held? ≠ some .directory)
    (hs : Path.endsInSlash path = false) :
    (t.put target.place e).walk path = .ok (.found target.place e) := by
  have hfrom := (walk_eq_walkFrom h hs t).symm.trans h
  exact (walk_eq_walkFrom h hs _).trans (walkFrom_put e hfrom hd)

/-! ## Files -/

/-- A file is created where a file or nothing is, and is empty then. -/
theorem create_file {t files : Tree} {path : String} {place : Place} {x : Bool}
    (h : t.create path = .ok (.file place x, files)) : ∃ target, t.walk path = .ok target ∧
      target.place = place ∧ target.held? ≠ some .directory ∧ Path.endsInSlash path = false ∧
      files = t.put place (.file [] x) := by
  unfold create at h
  split at h
  · rename_i old x' hw
    cases h
    exact ⟨_, hw, rfl, by simp [Target.held?], endsInSlash_of_walk hw (by simp), rfl⟩
  · cases h
  · cases h
  · rename_i hw
    split at h
    · cases h
    · rename_i hs
      cases h
      exact ⟨_, hw, rfl, by simp [Target.held?], by simpa using hs, rfl⟩
  · cases h

/-- What is stored in a file that was created is read back. -/
theorem read_store {t files : Tree} {path : String} {place : Place} {x : Bool}
    (h : t.create path = .ok (.file place x, files)) (content : List UInt8) :
    (files.store (.file place x) content).read path = .ok content := by
  obtain ⟨target, hw, rfl, hd, hs, rfl⟩ := create_file h
  rw [store, put_put, read, walk_put _ hw hd hs]

/-- A file that was created is empty. -/
theorem read_create {t files : Tree} {path : String} {place : Place} {x : Bool}
    (h : t.create path = .ok (.file place x, files)) : files.read path = .ok [] := by
  obtain ⟨target, hw, rfl, hd, hs, rfl⟩ := create_file h
  rw [read, walk_put _ hw hd hs]

end ImageRelay.Files.Tree
