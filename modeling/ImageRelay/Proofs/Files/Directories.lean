import ImageRelay.Proofs.Files.Path
import ImageRelay.Proofs.Files.Tree

/-!
# Trees that gain directories

While files are written and removed, no directory goes away, so a path keeps leading where it led as
long as the entry there stays (`Keeps.walk`). Making the directories on the way to a path adds the
missing ones and changes nothing else (`paves_createDirectories`).

* `Keeps`: a tree in which all directories of another one are still there.
* `Path.OnWay`: the paths of the directories that a path leads through, by its text.
* `Paves`: a tree with some directories more, each at the end of one of some paths.
-/

set_option autoImplicit false

namespace ImageRelay.Files.Tree

/-! ## Walking -/

/-- Where a path begins. -/
def start (t : Tree) (path : String) : Place := if Path.isAbsolute path then [] else t.workdir

/-- A path leads where its parts lead, and what is found under a slash at its end is a directory. -/
theorem walk_eq_ok_iff {t : Tree} {path : String} {target : Target} :
    t.walk path = .ok target ↔ Path.Walkable path ∧
      t.walkFrom (t.start path) (Path.parts path) = .ok target ∧
      ∀ e, target.held? = some e → Path.endsInSlash path = true → e = .directory := by
  constructor
  · intro h
    unfold walk at h
    split at h
    · cases h
    split at h
    · cases h
    split at h
    · cases h
    rename_i hnul hempty hlong
    refine ⟨⟨by simpa using hnul, by simpa using hempty, by omega⟩, ?_⟩
    split at h
    · rename_i place e hw
      split at h
      · cases h
      · rename_i hslash
        cases h
        refine ⟨hw, ?_⟩
        rintro e' ⟨⟩ hends
        simpa [hends] using hslash
    · rename_i hnot
      refine ⟨h, fun e he => ?_⟩
      cases target with
      | found place e' => exact absurd h (hnot place e')
      | free => cases he
  · rintro ⟨hpath, hfrom, hslash⟩
    unfold walk
    rw [start] at hfrom
    rw [if_neg (by simp [hpath.noNul]), if_neg (by simp [hpath.ne_empty]),
      if_neg (Nat.not_le.2 hpath.short), hfrom]
    cases target with
    | free => rfl
    | found place e =>
      have hdir := hslash e rfl
      exact if_neg (by simpa using hdir)

/-! ## Directories of files -/

/-- What is found at the end of some parts is in a directory at the end of the parts before. -/
theorem walkFrom_concat {t : Tree} {place : Place} {parts : List String} {part : String} {p : Place}
    {e : Entry} (h : t.walkFrom place (parts ++ [part]) = .ok (.found p e)) :
    ∃ d, t.walkFrom place parts = .ok (.found d .directory) ∧
      t.walkFrom d [part] = .ok (.found p e) := by
  fun_induction t.walkFrom place parts with
  | case1 place e' he =>
    rw [List.nil_append] at h
    have hd : e' = .directory := by
      rw [walkFrom, he] at h
      cases e' with
      | directory => rfl
      | file | device => cases h
    exact ⟨place, by rw [hd], h⟩
  | case2 place hnone =>
    rw [List.nil_append, walkFrom, hnone] at h
    cases h
  | case3 place x rest hnone =>
    rw [List.cons_append, walkFrom, hnone] at h
    cases h
  | case4 place x rest hdir hlen =>
    rw [List.cons_append, walkFrom, hdir] at h
    simp [hlen] at h
  | case5 place rest hdir hlen ih =>
    rw [List.cons_append, walkFrom, hdir] at h
    simp only [hlen] at h
    exact ih h
  | case6 place rest hdir hlen hdot ih =>
    rw [List.cons_append, walkFrom, hdir] at h
    simp only [hlen, hdot] at h
    exact ih h
  | case7 place x rest hdir hlen hdot hup next hfree =>
    -- nothing is found behind a free place
    rw [List.cons_append, walkFrom, hdir] at h
    have hnext : place ++ [x] = next := rfl
    obtain ⟨rfl, hnone⟩ : rest = [] ∧ t.entry? next = none := by simpa using hfree
    simp [hlen, hdot, hup, hnext, walkFrom, hnone] at h
  | case8 place x rest hdir hlen hdot hup next hfree ih =>
    rw [List.cons_append, walkFrom, hdir] at h
    have hnext : place ++ [x] = next := rfl
    have hmore : (rest ++ [part]).isEmpty = false := by simp
    simp only [hlen, hdot, hup, hnext, hmore, Bool.false_and, Bool.false_eq_true, if_false] at h
    exact ih h
  | case9 place x rest e' hd he =>
    rw [List.cons_append, walkFrom, he] at h
    cases e' with
    | directory => exact absurd rfl hd
    | file | device => cases h

theorem walkFrom_dot {t : Tree} {place p : Place} {e : Entry}
    (h : t.walkFrom place ["."] = .ok (.found p e)) : p = place ∧ e = .directory := by
  rw [walkFrom] at h
  split at h
  · cases h
  · rename_i hd
    have hshort : ¬ ".".utf8ByteSize > 255 := by decide
    simp only [hshort, if_false, if_true, walkFrom, hd] at h
    cases h
    exact ⟨rfl, rfl⟩
  · cases h

theorem head?_append_of_ne_nil {α : Type} {s : List α} (h : s ≠ []) (r : List α) :
    (s ++ r).head? = s.head? := by
  obtain ⟨x, s, rfl⟩ := List.exists_cons_of_ne_nil h
  rfl

/-- A path that is cut short and leads to the same directories. -/
structure Shortens (short cs : List Char) : Prop where
  isPrefix : short <+: cs
  head?_eq : short.head? = cs.head?
  walk {t : Tree} {place d : Place}
    (h : t.walkFrom place (Path.partsOf cs) = .ok (.found d .directory)) :
    t.walkFrom place (Path.partsOf short) = .ok (.found d .directory)

theorem shortens_trimReversed (r : List Char) :
    Shortens (Path.trimReversed r).reverse r.reverse := by
  fun_induction Path.trimReversed r with
  | case1 => exact ⟨List.prefix_rfl, rfl, id⟩
  | case2 r hr ih =>
    have hparts : Path.partsOf (r.reverse ++ ['/']) = Path.partsOf r.reverse := by
      rw [Path.partsOf_append]
      exact List.append_nil _
    have hne : r.reverse ≠ [] := mt List.reverse_eq_nil_iff.1 hr
    rw [List.reverse_cons]
    exact ⟨ih.isPrefix.trans (List.prefix_append _ _),
      ih.head?_eq.trans (head?_append_of_ne_nil hne _).symm, fun h => ih.walk (hparts ▸ h)⟩
  | case3 r hr =>
    obtain rfl := List.isEmpty_iff.1 hr
    refine ⟨⟨['.'], rfl⟩, rfl, fun {t place d} h => ?_⟩
    have hdots : t.walkFrom place ([] ++ ["."]) = .ok (.found d .directory) := h
    obtain ⟨d', hd', hdot⟩ := walkFrom_concat hdots
    obtain ⟨rfl, -⟩ := walkFrom_dot hdot
    exact hd'
  | case4 r hr ih =>
    have hne : r.reverse ≠ [] := by simpa using hr
    have hcut : ('.' :: '/' :: r).reverse = r.reverse ++ ['/', '.'] := by simp
    have hparts : Path.partsOf (r.reverse ++ ['/', '.']) = Path.partsOf r.reverse ++ ["."] :=
      Path.partsOf_append _ _
    rw [hcut]
    refine ⟨ih.isPrefix.trans (List.prefix_append _ _),
      ih.head?_eq.trans (head?_append_of_ne_nil hne _).symm, fun h => ih.walk ?_⟩
    obtain ⟨d, hd, hdot⟩ := walkFrom_concat (hparts ▸ h)
    obtain ⟨rfl, -⟩ := walkFrom_dot hdot
    exact hd
  | case5 => exact ⟨List.prefix_rfl, rfl, id⟩

/-- The directory of a file is there: the parent of a path that leads to something else than a
directory is empty, or leads to a directory. -/
theorem walk_parent {t : Tree} {path : String} {place : Place} {e : Entry}
    (h : t.walk path = .ok (.found place e)) (he : e ≠ .directory) :
    Path.parent? path = some "" ∨ ∃ parent d, Path.parent? path = some parent ∧ parent ≠ "" ∧
      t.walk parent = .ok (.found d .directory) := by
  obtain ⟨hpath, hfrom, hslash⟩ := walk_eq_ok_iff.1 h
  have hends : path.toList.getLast? ≠ some '/' := fun hlast =>
    he (hslash e rfl (by simp [Path.endsInSlash, hlast]))
  have hne : path.toList ≠ [] := by simpa using hpath.ne_empty
  rw [Path.parts_eq] at hfrom
  by_cases hmem : '/' ∈ path.toList
  · obtain ⟨pre, name, hcut, hname⟩ := Path.exists_last_slash hmem
    have hn : name ≠ [] := by
      rintro rfl
      simp [hcut] at hends
    rw [hcut, Path.partsOf_append, Path.partsOf_name hname hn] at hfrom
    obtain ⟨d, hd, hlast⟩ := walkFrom_concat hfrom
    have hdot : name ≠ ['.'] := by
      rintro rfl
      exact he (walkFrom_dot hlast).2
    have hparent : Path.parent? path =
        some (String.ofList (Path.trimReversed ('/' :: pre.reverse)).reverse) :=
      Path.parent?_of_name hname hn hdot (by simp [hcut]) (by simp)
    have hshort := shortens_trimReversed ('/' :: pre.reverse)
    generalize (Path.trimReversed ('/' :: pre.reverse)).reverse = short at hparent hshort
    rw [List.reverse_cons, List.reverse_reverse] at hshort
    have hhead : short.head? = path.toList.head? := by
      rw [hshort.head?_eq, hcut]
      cases pre <;> rfl
    have hne' : short ≠ [] := by
      rintro rfl
      exact hne (List.head?_eq_none_iff.1 hhead.symm)
    have hprefix : short <+: path.toList :=
      hshort.isPrefix.trans ⟨name, by simp [hcut]⟩
    refine .inr ⟨_, d, hparent, by simpa using hne',
      walk_eq_ok_iff.2 ⟨hpath.of_prefix hprefix hne', ?_⟩⟩
    have hstart : t.start (String.ofList short) = t.start path := by
      simp [start, Path.isAbsolute, hhead]
    have hparts : Path.partsOf (pre ++ ['/']) = Path.partsOf pre := by
      rw [Path.partsOf_append]
      exact List.append_nil _
    refine ⟨?_, ?_⟩
    · rw [hstart, Path.parts_eq, String.toList_ofList]
      exact hshort.walk (hparts ▸ hd)
    · rintro e' ⟨⟩ -
      rfl
  · have hdot : path.toList ≠ ['.'] := fun hd => by
      rw [hd] at hfrom
      exact he (walkFrom_dot hfrom).2
    have hparent : Path.parent? path = some (String.ofList (Path.trimReversed []).reverse) :=
      Path.parent?_of_name hmem hne hdot rfl (by simp)
    exact .inl hparent

/-- So there are no directories to be made on the way to a file. -/
theorem createDirectories_of_walk {t : Tree} {path : String} {d : Place} (hne : path ≠ "")
    (h : t.walk path = .ok (.found d .directory)) : t.createDirectories path = (.ok (), t) := by
  have hempty : path.isEmpty = false := by simpa using hne
  have hcreate : t.createDirectory path = .error .exists := by simp [createDirectory, h]
  have hdir : t.isDirectory path = true := by simp [isDirectory, h]
  simp [createDirectories, createDirectoriesFrom, hempty, hcreate, hdir]

/-! ## Directories that stay -/

/-- A tree in which all directories of another one are still there. -/
structure Keeps (t t' : Tree) : Prop where
  workdir : t'.workdir = t.workdir
  directory {p : Place} (h : t.entry? p = some .directory) : t'.entry? p = some .directory

namespace Keeps

variable {t t' t'' : Tree}

theorem refl (t : Tree) : Keeps t t := ⟨rfl, id⟩

theorem trans (h : Keeps t t') (h' : Keeps t' t'') : Keeps t t'' :=
  ⟨h'.workdir.trans h.workdir, fun hp => h'.directory (h.directory hp)⟩

theorem start_eq (h : Keeps t t') (path : String) : t'.start path = t.start path := by
  rw [start, start, h.workdir]

theorem walkFrom (h : Keeps t t') {place : Place} {parts : List String} {p : Place} {e e' : Entry}
    (hw : t.walkFrom place parts = .ok (.found p e)) (hp : t'.entry? p = some e') :
    t'.walkFrom place parts = .ok (.found p e') := by
  fun_induction t.walkFrom place parts with
  | case1 place e he =>
    cases hw
    simp only [Tree.walkFrom, hp]
  | case5 place rest hdir hlen ih =>
    rw [Tree.walkFrom, h.directory hdir]
    simp only [hlen]
    exact ih hw
  | case6 place rest hdir hlen hdot ih =>
    rw [Tree.walkFrom, h.directory hdir]
    simp only [hlen, hdot]
    exact ih hw
  | case8 place part rest hdir hlen hdot hup next hfree ih =>
    have hstay : (rest.isEmpty && (t'.entry? next).isNone) = false := by
      cases rest with
      | nil =>
        -- the walk ends at the next place, where there is something still
        have hnext := ih hw
        simp only [Tree.walkFrom] at hnext
        cases hn : t'.entry? next with
        | none => simp [hn] at hnext
        | some e => rfl
      | cons => rfl
    have hnext : place ++ [part] = next := rfl
    rw [Tree.walkFrom, h.directory hdir]
    simp only [hlen, hdot, hup, if_false, hnext, hstay]
    exact ih hw
  | case2 | case3 | case4 | case7 | case9 => cases hw

/-- A path leads where it led if there is something still, and no file where a directory was. -/
theorem walk_of_imp (h : Keeps t t') {path : String} {p : Place} {e e' : Entry}
    (hw : t.walk path = .ok (.found p e)) (hp : t'.entry? p = some e')
    (hd : e = .directory → e' = .directory) : t'.walk path = .ok (.found p e') := by
  obtain ⟨hpath, hfrom, hslash⟩ := walk_eq_ok_iff.1 hw
  refine walk_eq_ok_iff.2 ⟨hpath, ?_, ?_⟩
  · rw [h.start_eq]
    exact h.walkFrom hfrom hp
  · rintro _ ⟨⟩ hends
    exact hd (hslash e rfl hends)

theorem walk (h : Keeps t t') {path : String} {p : Place} {e : Entry}
    (hw : t.walk path = .ok (.found p e)) (hp : t'.entry? p = some e) :
    t'.walk path = .ok (.found p e) := h.walk_of_imp hw hp id

end Keeps

theorem entry?_of_walk {t : Tree} {path : String} {target : Target}
    (h : t.walk path = .ok target) : t.entry? target.place = target.held? :=
  entry?_of_walkFrom (walk_eq_ok_iff.1 h).2.1

theorem place?_eq_some_iff {t : Tree} {path : String} {p : Place} :
    t.place? path = some p ↔ ∃ e, t.walk path = .ok (.found p e) := by
  unfold place?
  split <;> simp_all

/-- Something may be put wherever there is no directory. -/
theorem keeps_put {t : Tree} {path : String} {target : Target} (h : t.walk path = .ok target)
    (hd : target.held? ≠ some .directory) (e : Entry) : Keeps t (t.put target.place e) :=
  ⟨rfl, entry?_put_directory e (entry?_of_walk h) hd⟩

/-! ## Directories that are made -/

/-- A tree with some directories more, each at the end of one of some paths. -/
structure Paves (paths : String → Prop) (t t' : Tree) : Prop where
  workdir : t'.workdir = t.workdir
  entry (p : Place) : t'.entry? p = t.entry? p ∨
    t.entry? p = none ∧ ∃ path, paths path ∧ t'.walk path = .ok (.found p .directory)

namespace Paves

variable {paths : String → Prop} {t t' t'' : Tree}

theorem refl (paths : String → Prop) (t : Tree) : Paves paths t t := ⟨rfl, fun _ => .inl rfl⟩

/-- What is there stays. -/
theorem entry?_eq (h : Paves paths t t') {p : Place} {e : Entry} (hp : t.entry? p = some e) :
    t'.entry? p = some e := by
  rcases h.entry p with heq | ⟨hnone, -⟩
  · rw [heq, hp]
  · rw [hp] at hnone
    cases hnone

theorem keeps (h : Paves paths t t') : Keeps t t' := ⟨h.workdir, h.entry?_eq⟩

theorem trans (h : Paves paths t t') (h' : Paves paths t' t'') : Paves paths t t'' where
  workdir := h'.workdir.trans h.workdir
  entry p := by
    rcases h.entry p with heq | ⟨hnone, path, hpath, hw⟩
    · rw [← heq]
      exact h'.entry p
    · exact .inr ⟨hnone, path, hpath, h'.keeps.walk hw (h'.entry?_eq (entry?_of_walk hw))⟩

theorem mono {paths' : String → Prop} (h : Paves paths t t')
    (hp : ∀ path, paths path → paths' path) : Paves paths' t t' where
  workdir := h.workdir
  entry p := (h.entry p).imp_right fun ⟨hnone, path, hpath, hw⟩ => ⟨hnone, path, hp path hpath, hw⟩

end Paves

theorem paves_createDirectory {t t' : Tree} {path : String}
    (h : t.createDirectory path = .ok t') : Paves (· = path) t t' := by
  unfold createDirectory at h
  split at h
  · cases h
  · rename_i place hw
    cases h
    have hd : (Target.free place).held? ≠ some .directory := nofun
    have hput := entry?_put (place_ne_nil (entry?_of_walk hw) hd) t .directory
    obtain ⟨hpath, hfrom, -⟩ := walk_eq_ok_iff.1 hw
    refine ⟨rfl, fun p => ?_⟩
    by_cases hp : p = place
    · subst hp
      refine .inr ⟨entry?_of_walk hw, path, rfl, walk_eq_ok_iff.2 ⟨hpath, ?_, ?_⟩⟩
      · exact walkFrom_put .directory hfrom hd
      · rintro e ⟨⟩ -
        rfl
    · exact .inl ((hput p).trans (if_neg hp))
  · cases h

/-- The directories on the way to a path are made, and nothing else is changed, whether or not all
of them can be made. -/
theorem paves_createDirectoriesFrom (n : Nat) (t : Tree) (path : String) :
    Paves (Path.OnWay path) t (t.createDirectoriesFrom n path).2 := by
  have made {t t' : Tree} {path : String} (h : t.createDirectory path = .ok t') :
      Paves (Path.OnWay path) t t' := (paves_createDirectory h).mono fun _ ha => ha ▸ .self
  induction n generalizing t path with
  | zero => exact .refl _ t
  | succ n ih =>
    rw [createDirectoriesFrom]
    split
    · exact .refl _ t
    split
    · rename_i h
      exact made h
    · split
      · exact .refl _ t
      · rename_i parent hparent
        have hway := (ih t parent).mono fun _ => Path.OnWay.of_parent hparent
        split
        · rename_i h
          rw [h] at hway
          exact hway
        · rename_i h
          rw [h] at hway
          split
          · rename_i h'
            exact hway.trans (made h')
          · exact hway
    · exact .refl _ t

theorem paves_createDirectories (t : Tree) (path : String) :
    Paves (Path.OnWay path) t (t.createDirectories path).2 :=
  paves_createDirectoriesFrom _ t path

/-! ## Files that are written and removed -/

theorem create_device {t files : Tree} {path : String} {kind : Device}
    (h : t.create path = .ok (.device kind, files)) :
    (∃ place, t.walk path = .ok (.found place (.device kind))) ∧ files = t := by
  unfold create at h
  split at h
  · cases h
  · rename_i hw
    cases h
    exact ⟨⟨_, hw⟩, rfl⟩
  · cases h
  · split at h <;> cases h
  · cases h

/-- A file that is written is put where the path leads, and a device is left as it is. -/
theorem write_cases {t t' : Tree} {path : String} {content : List UInt8}
    (h : t.write path content = .ok t') :
    (∃ place kind, t.walk path = .ok (.found place (.device kind)) ∧ t' = t) ∨
      ∃ target x, t.walk path = .ok target ∧ target.held? ≠ some .directory ∧
        Path.endsInSlash path = false ∧ t' = t.put target.place (.file content x) := by
  unfold write at h
  split at h
  · cases h
  · rename_i hc
    obtain ⟨⟨place, hw⟩, rfl⟩ := create_device hc
    split at h
    · cases h
      exact .inl ⟨place, _, hw, rfl⟩
    · cases h
  · rename_i handle files _ hc
    cases h
    cases handle with
    | device kind =>
      obtain ⟨⟨place, hw⟩, rfl⟩ := create_device hc
      exact .inl ⟨place, kind, hw, rfl⟩
    | file place x =>
      obtain ⟨target, hw, rfl, hd, hs, rfl⟩ := create_file hc
      refine .inr ⟨target, x, hw, hd, hs, ?_⟩
      rw [store, put_put]

/-- Only what is no directory is removed. -/
theorem remove_cases {t t' : Tree} {path : String} (h : t.remove path = .ok t') :
    ∃ place e, t.walk path = .ok (.found place e) ∧ e ≠ .directory ∧ t' = t.drop place := by
  unfold remove at h
  split at h
  · cases h
  · rename_i place e hnot hw
    cases h
    exact ⟨place, e, hw, hnot, rfl⟩
  · cases h
  · cases h

theorem entry?_drop {place p : Place} (h : p ≠ place) (t : Tree) :
    entry? (t.drop place) p = t.entry? p := by
  simp only [drop, entry?, lookup_filter_ne h]

/-- What is at a place that a path does not lead to is not what is there at its end. -/
theorem ne_place_of_walk {t : Tree} {path : String} {target : Target} {p : Place} {e : Entry}
    (hw : t.walk path = .ok target) (hp : t.entry? p = some e) (hn : t.place? path ≠ some p) :
    p ≠ target.place := by
  rintro rfl
  rw [entry?_of_walk hw] at hp
  cases target with
  | found place e' => exact hn (by simp [place?, hw, Target.place])
  | free => cases hp

/-! ## Files that are replaced -/

/-- A tree with other bytes in one of its files. -/
structure Replaces (place : Place) (content : List UInt8) (t t' : Tree) : Prop where
  workdir : t'.workdir = t.workdir
  was : ∃ old x, t.entry? place = some (.file old x)
  held : ∃ x, t'.entry? place = some (.file content x)
  elsewhere (p : Place) (h : p ≠ place) : t'.entry? p = t.entry? p

/-- The bytes of a file that is there can be replaced. -/
theorem replaces_write {t : Tree} {path : String} {place : Place} {old : List UInt8} {x : Bool}
    (h : t.walk path = .ok (.found place (.file old x))) (content : List UInt8) :
    ∃ t', t.write path content = .ok t' ∧ Replaces place content t t' := by
  have hwas := entry?_of_walk h
  have hput := entry?_put (place_ne_nil hwas nofun) t (.file content x)
  refine ⟨t.put place (.file content x), ?_, rfl, ⟨old, x, hwas⟩, ⟨x, ?_⟩, fun p hp => ?_⟩
  · simp [write, create, h, store, put_put]
  · exact (hput place).trans (if_pos rfl)
  · exact (hput p).trans (if_neg hp)

namespace Replaces

variable {place : Place} {content : List UInt8} {t t' : Tree}

theorem keeps (h : Replaces place content t t') : Keeps t t' := by
  refine ⟨h.workdir, fun hp => (h.elsewhere _ ?_).trans hp⟩
  rintro rfl
  obtain ⟨old, x, hwas⟩ := h.was
  cases hwas.symm.trans hp

/-- A path that leads to the file leads to the new bytes. -/
theorem walk (h : Replaces place content t t') {path : String} {e : Entry}
    (hw : t.walk path = .ok (.found place e)) :
    ∃ x, t'.walk path = .ok (.found place (.file content x)) := by
  obtain ⟨old, x, hwas⟩ := h.was
  obtain ⟨y, hheld⟩ := h.held
  obtain rfl : e = .file old x := Option.some.inj ((entry?_of_walk hw).symm.trans hwas)
  exact ⟨y, h.keeps.walk_of_imp hw hheld nofun⟩

/-- The bytes that were there can be put back. -/
theorem symm (h : Replaces place content t t') : ∃ old, Replaces place old t' t := by
  obtain ⟨old, x, hwas⟩ := h.was
  obtain ⟨y, hheld⟩ := h.held
  exact ⟨old, h.workdir.symm, ⟨content, y, hheld⟩, ⟨x, hwas⟩, fun p hp => (h.elsewhere p hp).symm⟩

theorem exists?_of_exists? (h : Replaces place content t t') {path : String}
    (hx : t.exists? path = true) : t'.exists? path = true := by
  unfold exists? at hx
  split at hx
  · rename_i p e hw
    by_cases hp : p = place
    · subst hp
      obtain ⟨x, hw'⟩ := h.walk hw
      simp [exists?, hw']
    · have hstays := (h.elsewhere p hp).trans (entry?_of_walk hw)
      simp [exists?, h.keeps.walk hw hstays]
  · cases hx

/-- The same paths lead to something. -/
theorem exists?_eq (h : Replaces place content t t') : t'.exists? = t.exists? := by
  obtain ⟨old, hback⟩ := h.symm
  funext path
  exact Bool.eq_iff_iff.2 ⟨hback.exists?_of_exists?, h.exists?_of_exists?⟩

end Replaces

end ImageRelay.Files.Tree
