import ImageRelay.Cluster.Reading
import Mathlib.Data.List.Forall2
import Mathlib.Data.List.Induction

/-!
# Kubeconfigs of several files

The files of a list are read and merged one after another. What is kept along the list is that the
kubeconfig merged so far takes every name from the first file that defines it, and every setting
from the first file that has it (`Joins`, kept by `Joins.merge`). So whether a file is refused can
be seen from the files before it alone (`merge_eq_none_iff`).

* `Reads`, `Unopposed`: the files of a list that are read, none of them refused.
* `Stops`: how a list fails, with the first file that cannot be read or is refused.
* `readList_merges`: what comes of a list, for every list.
-/

set_option autoImplicit false

namespace ImageRelay.Kubeconfig

/-! ## Entries of a name -/

section
variable {α : Type}

/-- The entries of a name. -/
def named (name : String) (es : List (Named α)) : List (Named α) := es.filter (·.name == name)

/-- The entries of a name in the first list that has any. -/
def firstNamed (name : String) : List (List (Named α)) → List (Named α)
  | [] => []
  | es :: rest => if (named name es).isEmpty then firstNamed name rest else named name es

/-- Entries that are, for every name, those of the first list that has any. -/
def TakesFirst (lists : List (List (Named α))) (es : List (Named α)) : Prop :=
  ∀ name, named name es = firstNamed name lists

theorem find?_eq_none_iff {name : String} {es : List (Named α)} :
    find? name es = none ↔ named name es = [] := by
  rw [find?, List.find?_eq_none, named, List.filter_eq_nil_iff]

theorem named_append (name : String) (first next : List (Named α)) :
    named name (append first next) =
      if (named name first).isEmpty then named name next else named name first := by
  have hnew : named name (next.filter fun e => (find? e.name first).isNone) =
      if (named name first).isEmpty then named name next else [] := by
    rw [named, List.filter_filter]
    split
    · rename_i h
      refine List.filter_congr fun e _ => ?_
      by_cases he : e.name = name
      · have hnone := find?_eq_none_iff.2 (List.isEmpty_iff.1 h)
        simp [he, hnone]
      · simp [he]
    · rename_i h
      refine List.filter_eq_nil_iff.2 fun e _ he => h ?_
      simp only [Bool.and_eq_true, beq_iff_eq, Option.isNone_iff_eq_none] at he
      rw [List.isEmpty_iff, ← find?_eq_none_iff, ← he.1]
      exact he.2
  rw [append, named, List.filter_append]
  change named name first ++ named name _ = _
  rw [hnew]
  split
  · rename_i h
    rw [List.isEmpty_iff.1 h, List.nil_append]
  · exact List.append_nil _

theorem firstNamed_concat (name : String) (lists : List (List (Named α))) (es : List (Named α)) :
    firstNamed name (lists ++ [es]) =
      if (firstNamed name lists).isEmpty then named name es else firstNamed name lists := by
  induction lists with
  | nil => by_cases h : (named name es).isEmpty <;> simp_all [firstNamed]
  | cons l lists ih =>
    rw [List.cons_append, firstNamed, firstNamed, ih]
    by_cases h : (named name l).isEmpty = true <;> simp [h]

theorem TakesFirst.append {lists : List (List (Named α))} {es : List (Named α)}
    (h : TakesFirst lists es) (next : List (Named α)) :
    TakesFirst (lists ++ [next]) (append es next) := fun name => by
  rw [named_append, firstNamed_concat, h name]

theorem takesFirst_singleton (es : List (Named α)) : TakesFirst [es] es := fun name => by
  cases h : named name es <;> simp [firstNamed, h]

end

/-! ## Merging -/

/-- A kubeconfig that takes everything from the first of some others that has it. -/
structure Joins (ks : List Kubeconfig) (k : Kubeconfig) : Prop where
  clusters : TakesFirst (ks.map (·.clusters)) k.clusters
  users : TakesFirst (ks.map (·.users)) k.users
  contexts : TakesFirst (ks.map (·.contexts)) k.contexts
  currentContext : k.currentContext = ks.findSome? (·.currentContext)
  kind : k.kind = ks.findSome? (·.kind)
  apiVersion : k.apiVersion = ks.findSome? (·.apiVersion)

/-- A setting of a kubeconfig contradicts the first of some others that has it. -/
def Clashes (setting : Kubeconfig → Option String) (before : List Kubeconfig)
    (next : Kubeconfig) : Prop :=
  ∃ a b, before.findSome? setting = some a ∧ setting next = some b ∧ a ≠ b

/-- A kubeconfig of another kind or version than some others. -/
def Opposes (before : List Kubeconfig) (next : Kubeconfig) : Prop :=
  Clashes (·.kind) before next ∨ Clashes (·.apiVersion) before next

theorem agree_eq_false_iff {a b : Option String} :
    agree a b = false ↔ ∃ x y, a = some x ∧ b = some y ∧ x ≠ y := by
  cases a <;> cases b <;> simp [agree]

theorem joins_singleton (k : Kubeconfig) : Joins [k] k where
  clusters := takesFirst_singleton _
  users := takesFirst_singleton _
  contexts := takesFirst_singleton _
  currentContext := by simp
  kind := by simp
  apiVersion := by simp

section
variable {ks : List Kubeconfig} {k next : Kubeconfig}

/-- A merge is refused if the next kubeconfig is of another kind or version. -/
theorem Joins.merge_eq_none_iff (h : Joins ks k) : merge k next = none ↔ Opposes ks next := by
  have hkind : agree k.kind next.kind = false ↔ Clashes (·.kind) ks next := by
    rw [agree_eq_false_iff, h.kind, Clashes]
  have hversion : agree k.apiVersion next.apiVersion = false ↔ Clashes (·.apiVersion) ks next := by
    rw [agree_eq_false_iff, h.apiVersion, Clashes]
  rw [merge, ite_eq_right_iff, Opposes, ← hkind, ← hversion, ← Bool.and_eq_false_iff,
    ← Bool.not_eq_true]
  simp

theorem Joins.merge (h : Joins ks k) (ho : ¬Opposes ks next) :
    ∃ k', Kubeconfig.merge k next = some k' ∧ Joins (ks ++ [next]) k' := by
  obtain ⟨k', hk'⟩ := Option.ne_none_iff_exists'.1 (mt h.merge_eq_none_iff.1 ho)
  refine ⟨k', hk', ?_⟩
  unfold Kubeconfig.merge at hk'
  split at hk'
  · cases hk'
    refine ⟨?_, ?_, ?_, ?_, ?_, ?_⟩
    · simpa using h.clusters.append next.clusters
    · simpa using h.users.append next.users
    · simpa using h.contexts.append next.contexts
    · simp [h.currentContext, List.findSome?_append]
    · simp [h.kind, List.findSome?_append]
    · simp [h.apiVersion, List.findSome?_append]
  · cases hk'

end

/-! ## Lists of files -/

/-- The entries of a path list that are not empty, in order. -/
def entriesOf (list : String) : List String :=
  ((list.toList.splitOn ':').filter (!·.isEmpty)).map String.ofList

theorem pathsOf_eq (list : String) : pathsOf list = entriesOf list := by
  rw [pathsOf, Text.splitAll_eq_splitOn, entriesOf]

/-- The kubeconfigs of some files, all of which can be read. -/
def Reads (files : Files.Tree) (paths : List String) (ks : List Kubeconfig) : Prop :=
  List.Forall₂ (fun path k => readFile files path = .ok k) paths ks

/-- No kubeconfig is of another kind or version than those before it. -/
def Unopposed (ks : List Kubeconfig) : Prop :=
  ∀ before next after, ks = before ++ next :: after → ¬Opposes before next

/-- How a list of files fails: it has no file, or a first one that cannot be read or is of another
kind or version than those before it. -/
inductive Stops (files : Files.Tree) (list : String) : Chain → Prop
  | empty (h : entriesOf list = []) : Stops files list (.root s!"No kubeconfig file in {list}")
  | unread {before after : List String} {path reason : String} {ks : List Kubeconfig}
      (hcut : entriesOf list = before ++ path :: after) (hr : Reads files before ks)
      (hu : Unopposed ks) (h : readFile files path = .error reason) :
      Stops files list ((Chain.root reason).within s!"Failed to read kubeconfig {path}")
  | refused {before after : List String} {path : String} {ks : List Kubeconfig} {next : Kubeconfig}
      (hcut : entriesOf list = before ++ path :: after) (hr : Reads files before ks)
      (hu : Unopposed ks) (h : readFile files path = .ok next) (ho : Opposes ks next) :
      Stops files list
        ((Chain.root "kubeconfigs of different kinds").within "Failed to merge kubeconfig files")

theorem not_opposes_nil (next : Kubeconfig) : ¬Opposes [] next := by
  rintro (⟨a, b, h, -⟩ | ⟨a, b, h, -⟩) <;> cases h

theorem unopposed_concat {ks : List Kubeconfig} {next : Kubeconfig} (hu : Unopposed ks)
    (ho : ¬Opposes ks next) : Unopposed (ks ++ [next]) := by
  intro before k after hcut
  rcases List.eq_nil_or_concat after with rfl | ⟨after, last, rfl⟩
  · obtain ⟨rfl, hlast⟩ := List.append_inj' hcut rfl
    cases hlast
    exact ho
  · rw [List.concat_eq_append, ← List.cons_append, ← List.append_assoc] at hcut
    exact hu before k after (List.append_inj' hcut rfl).1

/-- All files of a list are read and none is refused, or there is a first one for which this is not
so. -/
theorem reads_or_stops (files : Files.Tree) (paths : List String) :
    (∃ ks, Reads files paths ks ∧ Unopposed ks) ∨
      ∃ before path after ks, paths = before ++ path :: after ∧ Reads files before ks ∧
        Unopposed ks ∧ ((∃ reason, readFile files path = .error reason) ∨
          ∃ next, readFile files path = .ok next ∧ Opposes ks next) := by
  induction paths using List.reverseRecOn with
  | nil => exact .inl ⟨[], .nil, by simp [Unopposed]⟩
  | append_singleton paths path ih =>
    rcases ih with ⟨ks, hr, hu⟩ | ⟨before, p, after, ks, rfl, hrest⟩
    · cases hp : readFile files path with
      | error reason => exact .inr ⟨paths, path, [], ks, rfl, hr, hu, .inl ⟨reason, hp⟩⟩
      | ok next =>
        by_cases ho : Opposes ks next
        · exact .inr ⟨paths, path, [], ks, rfl, hr, hu, .inr ⟨next, hp, ho⟩⟩
        · exact .inl ⟨ks ++ [next], List.rel_append hr (.cons hp .nil), unopposed_concat hu ho⟩
    · exact .inr ⟨before, p, after ++ [path], ks, by simp, hrest⟩

section
variable {files : Files.Tree}

/-- Files that are read and not refused are merged, whatever comes behind them. -/
theorem mergeFiles_append {before : List String} {done ks : List Kubeconfig} {k : Kubeconfig}
    (hj : Joins done k) (hr : Reads files before ks) (hu : Unopposed (done ++ ks))
    (rest : List String) : ∃ k', Joins (done ++ ks) k' ∧
      mergeFiles files (before ++ rest) k = mergeFiles files rest k' := by
  induction hr generalizing done k with
  | nil => exact ⟨k, by simpa using hj, rfl⟩
  | @cons path next before ks hp _ ih =>
    obtain ⟨k₁, hmerge, hj₁⟩ := hj.merge (hu done next ks rfl)
    rw [List.append_cons] at hu ⊢
    obtain ⟨k', hj', hrest⟩ := ih hj₁ hu
    refine ⟨k', hj', ?_⟩
    rw [← hrest, List.cons_append, mergeFiles, readNamed, hp]
    simp only [hmerge]

/-- The first files of a list, if they are read and not refused. -/
theorem readList_append {list : String} {before rest : List String} {ks : List Kubeconfig}
    (hcut : entriesOf list = before ++ rest) (hne : before ≠ []) (hr : Reads files before ks)
    (hu : Unopposed ks) :
    ∃ k, Joins ks k ∧ readList files list = mergeFiles files rest k := by
  cases hr with
  | nil => exact absurd rfl hne
  | @cons path first before ks hp hr =>
    obtain ⟨k, hj, hmerge⟩ := mergeFiles_append (joins_singleton first) hr hu rest
    refine ⟨k, hj, ?_⟩
    rw [readList, pathsOf_eq, hcut, List.cons_append]
    simp only [readNamed, hp, hmerge]

theorem readList_of_reads {list : String} {ks : List Kubeconfig} (hne : entriesOf list ≠ [])
    (hr : Reads files (entriesOf list) ks) (hu : Unopposed ks) :
    ∃ k, Joins ks k ∧ readList files list = .ok k :=
  readList_append (List.append_nil _).symm hne hr hu

theorem readList_of_stops {list : String} {fault : Chain} (h : Stops files list fault) :
    readList files list = .error fault := by
  cases h with
  | empty h =>
    rw [readList, pathsOf_eq, h]
  | @unread before after path reason ks hcut hr hu h =>
    have hnamed : readNamed files path =
        .error ((Chain.root reason).within s!"Failed to read kubeconfig {path}") := by
      rw [readNamed, h]
    by_cases hne : before = []
    · subst hne
      rw [readList, pathsOf_eq, hcut, List.nil_append]
      simp only [hnamed]
    · obtain ⟨k, -, hlist⟩ := readList_append hcut hne hr hu
      rw [hlist, mergeFiles]
      simp only [hnamed]
  | @refused before after path ks next hcut hr hu h ho =>
    have hne : before ≠ [] := by
      rintro rfl
      cases hr
      exact not_opposes_nil next ho
    obtain ⟨k, hj, hlist⟩ := readList_append hcut hne hr hu
    rw [hlist, mergeFiles, readNamed, h]
    simp only [hj.merge_eq_none_iff.2 ho]

/-- A list fails, or all its files are read and merged. -/
theorem readList_cases (files : Files.Tree) (list : String) :
    (∃ fault, Stops files list fault ∧ readList files list = .error fault) ∨
      entriesOf list ≠ [] ∧ ∃ ks k, Reads files (entriesOf list) ks ∧ Unopposed ks ∧ Joins ks k ∧
        readList files list = .ok k := by
  have stops {fault : Chain} (h : Stops files list fault) := And.intro h (readList_of_stops h)
  by_cases hne : entriesOf list = []
  · exact .inl ⟨_, stops (.empty hne)⟩
  · rcases reads_or_stops files (entriesOf list) with
      ⟨ks, hr, hu⟩ | ⟨before, path, after, ks, hcut, hr, hu, ⟨reason, h⟩ | ⟨next, h, ho⟩⟩
    · obtain ⟨k, hj, hk⟩ := readList_of_reads hne hr hu
      exact .inr ⟨hne, ks, k, hr, hu, hj, hk⟩
    · exact .inl ⟨_, stops (.unread hcut hr hu h)⟩
    · exact .inl ⟨_, stops (.refused hcut hr hu h ho)⟩

end

/-- The list without its empty entries has the same files. -/
theorem entriesOf_intercalate {list : String} (hne : entriesOf list ≠ []) :
    entriesOf (":".intercalate (entriesOf list)) = entriesOf list := by
  have hpieces : ∀ p ∈ (list.toList.splitOn ':').filter (!·.isEmpty), ':' ∉ p := fun p hp =>
    Text.not_mem_of_mem_splitOn (List.mem_filter.1 hp).1
  have htext : (":".intercalate (entriesOf list)).toList =
      [':'].intercalate ((list.toList.splitOn ':').filter (!·.isEmpty)) := by
    rw [String.toList_intercalate, entriesOf, List.map_map]
    simp [Function.comp_def]
  have hne' : (list.toList.splitOn ':').filter (!·.isEmpty) ≠ [] := by
    simpa [entriesOf] using hne
  rw [entriesOf, htext, List.splitOn_intercalate _ hpieces hne', List.filter_filter]
  simp [entriesOf]

/-- What comes of a list depends on its files only. -/
theorem readList_congr (files : Files.Tree) {list list' : String}
    (h : entriesOf list' = entriesOf list) (hne : entriesOf list ≠ []) :
    readList files list' = readList files list := by
  rw [readList, readList, pathsOf_eq, pathsOf_eq, h]
  cases hl : entriesOf list with
  | nil => exact absurd hl hne
  | cons path rest => rfl

/-- **Kubeconfigs of a path list**: empty entries of the list count for nothing. A list fails
exactly if it has no other entries, or if a file in it cannot be read or is of another kind or
version than those before it; the first such file in the order of the list is the reason, and a
file that cannot be read is named. Otherwise the result has, of every name, the clusters, users and
contexts of the first file that defines it, and no others, and the current context of the first file
that sets one. -/
theorem readList_merges (files : Files.Tree) (list : String) :
    (entriesOf list ≠ [] →
      readList files (":".intercalate (entriesOf list)) = readList files list) ∧
    (∀ fault, readList files list = .error fault ↔ Stops files list fault) ∧
    ((∃ k, readList files list = .ok k) ↔
      entriesOf list ≠ [] ∧ ∃ ks, Reads files (entriesOf list) ks ∧ Unopposed ks) ∧
    ∀ k, readList files list = .ok k → ∃ ks, Reads files (entriesOf list) ks ∧ Joins ks k := by
  refine ⟨fun hne => readList_congr files (entriesOf_intercalate hne) hne,
    fun fault => ⟨fun h => ?_, readList_of_stops⟩, ⟨fun ⟨k, h⟩ => ?_, fun ⟨hne, ks, hr, hu⟩ => ?_⟩,
    fun k h => ?_⟩
  · rcases readList_cases files list with ⟨fault', hs, hf⟩ | ⟨-, ks, k, -, -, -, hk⟩
    · cases hf.symm.trans h
      exact hs
    · cases hk.symm.trans h
  · rcases readList_cases files list with ⟨fault, -, hf⟩ | ⟨hne, ks, k', hr, hu, -, -⟩
    · cases hf.symm.trans h
    · exact ⟨hne, ks, hr, hu⟩
  · obtain ⟨k, -, hk⟩ := readList_of_reads hne hr hu
    exact ⟨k, hk⟩
  · rcases readList_cases files list with ⟨fault, -, hf⟩ | ⟨-, ks, k', hr, -, hj, hk⟩
    · cases hf.symm.trans h
    · cases hk.symm.trans h
      exact ⟨ks, hr, hj⟩

end ImageRelay.Kubeconfig
