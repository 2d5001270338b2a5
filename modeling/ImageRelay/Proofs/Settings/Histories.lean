import ImageRelay.Proofs.Files.Directories
import ImageRelay.Proofs.Session
import ImageRelay.Proofs.Settings

/-!
# Settings files over their history

Settings files are initialized, written, removed and loaded in any order. One initialization fails
and at most makes directories, or puts the example file where its path leads (`init_cases`). Every
step leaves the directories, and all entries that it does not touch (`Action.keeps`,
`Action.entry?_run`), so what was initialized is loaded as the defaults until it is touched.

* `Initialized`: what a successful initialization makes of the files.
* `Action`, `Action.Touches`: a step, and the entry that it may change.
* `histories_keep`: what holds behind every history.
-/

set_option autoImplicit false

namespace ImageRelay

/-- A path of a directory above a path, by its text. -/
def Path.Above (path a : String) : Prop := ∃ parent, parent? path = some parent ∧ OnWay parent a

namespace Settings

open Files (Place Tree)

/-! ## Loading -/

/-- The example file sets the defaults. -/
theorem parse?_exampleText : parse? exampleText = some {} := by
  have hbody := Toml.Table.lines_document ({} : Settings).tables
  rw [← text_eq] at hbody
  have hhead : Toml.onlyComments false ("# conformance-images configuration file\n" ++
      "# Place this file at ~/.config/conformance-images/config.toml or " ++
      ".conformance-images.toml in your project\n\n").toList = true := by decide +kernel
  have hlines : Toml.Lines exampleText.toList (({} : Settings).tables.flatMap (·.statements)) :=
    Toml.lines_append hhead hbody
  rw [parse?, Toml.parse?_lines _ (nodup_tables {}) hlines]
  exact ofEntries?_tables {}

theorem parse?_empty : parse? "" = some {} := rfl

/-- What is loaded depends on what is found only. -/
theorem loadFile_of_keeps {t t' : Tree} (h : t.Keeps t') {path : String} {place : Place}
    {entry : Files.Entry} (hw : t.walk path = .ok (.found place entry))
    (hp : t'.entry? place = some entry) : loadFile t' path = loadFile t path := by
  have hread : t'.readText path = t.readText path := by
    rw [Tree.readText, Tree.readText, Tree.read, Tree.read, h.walk hw hp, hw]
  rw [loadFile, loadFile, hread]

/-! ## One initialization -/

/-- Where an initialization goes. -/
def destination? (e : Environment) (path : Option String) : Option String := path.or (userPath? e)

theorem paves_makeParents (path : String) (t : Tree) :
    t.Paves (Path.Above path) (makeParents path t).2 := by
  unfold makeParents
  split
  · exact .refl _ t
  · rename_i parent hparent
    obtain ⟨hp, -⟩ := Option.filter_eq_some_iff.1 hparent
    have hpaves := (Tree.paves_createDirectories t parent).mono fun a ha =>
      (⟨parent, hp, ha⟩ : Path.Above path a)
    split <;> rename_i h <;> rw [h] at hpaves <;> exact hpaves

/-- What a successful initialization makes of the files: its path leads to the example file or to a
device, and elsewhere there is nothing new but directories that were missing on the way. -/
structure Initialized (dest : String) (place : Place) (t t' : Tree) : Prop where
  leads : t'.place? dest = some place
  held : (∃ x, t'.entry? place = some (.file (Text.Utf8.encode exampleText) x)) ∨
    ∃ kind, t.entry? place = some (.device kind) ∧ t'.entry? place = some (.device kind)
  elsewhere (p : Place) (hp : p ≠ place) : t'.entry? p = t.entry? p ∨
    t.entry? p = none ∧ ∃ a, Path.Above dest a ∧ t'.walk a = .ok (.found p .directory)
  keeps : t.Keeps t'
  loads : loadFile t' dest = .ok {}

theorem initialized_of_write {dest : String} {t t₁ t' : Tree} (h : t.Paves (Path.Above dest) t₁)
    (hw : t₁.write dest (Text.Utf8.encode exampleText) = .ok t') :
    ∃ place, Initialized dest place t t' := by
  rcases Tree.write_cases hw with ⟨place, kind, hdest, rfl⟩ | ⟨target, x, hdest, hd, hs, rfl⟩
  · have hthere := Tree.entry?_of_walk hdest
    refine ⟨place, ?_, .inr ⟨kind, ?_, hthere⟩, fun p _ => h.entry p, h.keeps, ?_⟩
    · simp [Tree.place?, hdest]
    · -- a device is none of the new directories
      rcases h.entry place with heq | ⟨-, a, -, hdir⟩
      · rw [← heq]
        exact hthere
      · cases (Tree.entry?_of_walk hdir).symm.trans hthere
    · refine loadFile_of_parse? ?_ parse?_empty
      simp only [Tree.read, hdest]
      rfl
  · have hne := Tree.place_ne_nil (Tree.entry?_of_walk hdest) hd
    have hput := Tree.entry?_put hne t₁ (.file (Text.Utf8.encode exampleText) x)
    have hkeeps := Tree.keeps_put hdest hd (.file (Text.Utf8.encode exampleText) x)
    have hwalk := Tree.walk_put (.file (Text.Utf8.encode exampleText) x) hdest hd hs
    refine ⟨target.place, ?_, .inl ⟨x, ?_⟩, fun p hp => ?_, h.keeps.trans hkeeps, ?_⟩
    · simp [Tree.place?, hwalk]
    · rw [hput, if_pos rfl]
    · rw [hput, if_neg hp]
      rcases h.entry p with heq | ⟨hnone, a, ha, hdir⟩
      · exact .inl heq
      · have hstays := (hput p).trans ((if_neg hp).trans (Tree.entry?_of_walk hdir))
        exact .inr ⟨hnone, a, ha, hkeeps.walk hdir hstays⟩
    · refine loadFile_of_parse? ?_ parse?_exampleText
      simp only [Tree.read, hwalk]

theorem writeExample_cases (path : String) (t : Tree) :
    (∃ f t', writeExample path t = (.error f, t') ∧ t.Paves (Path.Above path) t') ∨
      ∃ place t', writeExample path t = (.ok (), t') ∧ Initialized path place t t' := by
  have hpaves := paves_makeParents path t
  unfold writeExample
  cases hmake : makeParents path t with
  | mk r t₁ =>
    rw [hmake] at hpaves
    cases r with
    | error f => exact .inl ⟨f, t₁, rfl, hpaves⟩
    | ok _ =>
      cases hw : t₁.write path (Text.Utf8.encode exampleText) with
      | error trouble =>
        exact .inl ⟨((Chain.root trouble.message).within
          s!"Failed to write config file: {path}" : Chain), t₁, by simp only [hw], hpaves⟩
      | ok t' =>
        obtain ⟨place, hinit⟩ := initialized_of_write hpaves hw
        exact .inr ⟨place, t', by simp only [hw], hinit⟩

/-- One initialization: it fails and changes nothing, or it makes directories on the way and fails,
or it succeeds. A path that leads to something already is passed only with `force`. -/
theorem init_cases (e : Environment) (path : Option String) (force : Bool) (s : Session) :
    (∃ f, init e path force s = (.error f, s)) ∨
    ∃ dest files, destination? e path = some dest ∧ (s.files.exists? dest = true → force = true) ∧
      ((∃ f, init e path force s = (.error f, { s with files }) ∧
          s.files.Paves (Path.Above dest) files) ∨
        ∃ place es, init e path force s = (.ok (), ({ s with files } : Session).tellAll es) ∧
          Initialized dest place s.files files) := by
  unfold init destination?
  cases path.or (userPath? e) with
  | none => exact .inl ⟨_, rfl⟩
  | some dest =>
    dsimp only
    by_cases hguard : (s.files.exists? dest && !force) = true
    · rw [if_pos hguard]
      exact .inl ⟨_, rfl⟩
    · rw [if_neg hguard]
      have hforce : s.files.exists? dest = true → force = true := by simpa using hguard
      rcases writeExample_cases dest s.files with ⟨f, files, h, hpaves⟩ | ⟨place, files, h, hinit⟩
      · rw [h]
        exact .inr ⟨dest, files, rfl, hforce, .inl ⟨f, rfl, hpaves⟩⟩
      · rw [h]
        exact .inr ⟨dest, files, rfl, hforce, .inr ⟨place,
          [.info s!"Wrote {dest}"] ++ [.line s!"Created {dest}"],
          congrArg _ (Session.tellAll_tellAll _ _ _), hinit⟩⟩

/-! ## Steps -/

/-- A step on settings files: an initialization, a change of a file from outside, or a look. -/
inductive Action
  | init (path : Option String) (force : Bool)
  | write (path : String) (content : List UInt8)
  | createDirectories (path : String)
  | remove (path : String)
  | load (path : Option String)
  | find

/-- What a step makes of the session; a look changes nothing. -/
def Action.run (e : Environment) (s : Session) : Action → Session
  | .init path force => (Settings.init e path force s).2
  | .write path content =>
    match s.files.write path content with
    | .ok files => { s with files }
    | .error _ => s
  | .createDirectories path => { s with files := (s.files.createDirectories path).2 }
  | .remove path =>
    match s.files.remove path with
    | .ok files => { s with files }
    | .error _ => s
  | .load _ | .find => s

/-- What a history of steps makes of the session. -/
def runAll (e : Environment) (s : Session) (actions : List Action) : Session :=
  actions.foldl (Action.run e) s

/-- A step acts on an entry that is there: it writes or removes it, or a successful initialization
leads to it in the end. -/
def Action.Touches (e : Environment) (s : Session) (p : Place) : Action → Prop
  | .init path force => ∃ dest, destination? e path = some dest ∧
      (Settings.init e path force s).1 = .ok () ∧
      (Settings.init e path force s).2.files.place? dest = some p
  | .write path _ | .remove path => s.files.place? path = some p
  | .createDirectories _ | .load _ | .find => False

theorem Action.keeps (e : Environment) (s : Session) (a : Action) :
    s.files.Keeps (a.run e s).files := by
  cases a with
  | init path force =>
    rcases init_cases e path force s with
      ⟨f, h⟩ | ⟨dest, files, -, -, ⟨f, h, hpaves⟩ | ⟨place, es, h, hinit⟩⟩
    · rw [run, h]
      exact .refl _
    · rw [run, h]
      exact hpaves.keeps
    · rw [run, h]
      exact hinit.keeps
  | write path content =>
    rw [run]
    split
    · rename_i files h
      rcases Tree.write_cases h with ⟨place, kind, -, rfl⟩ | ⟨target, x, hw, hd, -, rfl⟩
      · exact .refl _
      · exact Tree.keeps_put hw hd _
    · exact .refl _
  | createDirectories path => exact (Tree.paves_createDirectories s.files path).keeps
  | remove path =>
    rw [run]
    split
    · rename_i files h
      obtain ⟨place, entry, hw, hd, rfl⟩ := Tree.remove_cases h
      refine ⟨rfl, fun hp => ?_⟩
      rw [Tree.entry?_drop, hp]
      rintro rfl
      exact hd (Option.some.inj ((Tree.entry?_of_walk hw).symm.trans hp))
    · exact .refl _
  | load path => exact .refl _
  | find => exact .refl _

/-- What a step does not touch stays. -/
theorem Action.entry?_run {e : Environment} {s : Session} {a : Action} {p : Place}
    {entry : Files.Entry} (hp : s.files.entry? p = some entry) (hn : ¬a.Touches e s p) :
    (a.run e s).files.entry? p = some entry := by
  cases a with
  | init path force =>
    rcases init_cases e path force s with
      ⟨f, h⟩ | ⟨dest, files, hdest, -, ⟨f, h, hpaves⟩ | ⟨place, es, h, hinit⟩⟩
    · rw [run, h]
      exact hp
    · rw [run, h]
      exact hpaves.entry?_eq hp
    · rw [run, h]
      have hne : p ≠ place := by
        rintro rfl
        exact hn ⟨dest, hdest, by rw [h], by rw [h]; exact hinit.leads⟩
      rcases hinit.elsewhere p hne with heq | ⟨hnone, -⟩
      · exact heq.trans hp
      · rw [hp] at hnone
        cases hnone
  | write path content =>
    rw [run]
    split
    · rename_i files h
      rcases Tree.write_cases h with ⟨place, kind, -, rfl⟩ | ⟨target, x, hw, hd, -, rfl⟩
      · exact hp
      · have hput := Tree.entry?_put (Tree.place_ne_nil (Tree.entry?_of_walk hw) hd) s.files
        rw [hput, if_neg (Tree.ne_place_of_walk hw hp hn), hp]
    · exact hp
  | createDirectories path => exact (Tree.paves_createDirectories s.files path).entry?_eq hp
  | remove path =>
    rw [run]
    split
    · rename_i files h
      obtain ⟨place, entry', hw, -, rfl⟩ := Tree.remove_cases h
      exact (Tree.entry?_drop (Tree.ne_place_of_walk hw hp hn) s.files).trans hp
    · exact hp
  | load path => exact hp
  | find => exact hp

/-! ## Histories -/

/-- No step of a history touches an entry. -/
def Untouched (e : Environment) (s : Session) (p : Place) (actions : List Action) : Prop :=
  ∀ before a after, actions = before ++ a :: after → ¬a.Touches e (runAll e s before) p

theorem Untouched.tail {e : Environment} {s : Session} {p : Place} {a : Action}
    {rest : List Action} (h : Untouched e s p (a :: rest)) : Untouched e (a.run e s) p rest :=
  fun before b after hcut => h (a :: before) b after (by rw [hcut]; rfl)

theorem keeps_runAll (e : Environment) (s : Session) (actions : List Action) :
    s.files.Keeps (runAll e s actions).files := by
  induction actions generalizing s with
  | nil => exact .refl _
  | cons a rest ih => exact (a.keeps e s).trans (ih (a.run e s))

/-- What no step of a history touches is there at its end. -/
theorem Untouched.entry?_runAll {e : Environment} {s : Session} {p : Place} {actions : List Action}
    (h : Untouched e s p actions) {entry : Files.Entry} (hp : s.files.entry? p = some entry) :
    (runAll e s actions).files.entry? p = some entry := by
  induction actions generalizing s with
  | nil => exact hp
  | cons a rest ih => exact ih h.tail (a.entry?_run hp (h [] a rest rfl))

/-- What was initialized is loaded as the defaults until it is touched. -/
theorem Initialized.loads_runAll {e : Environment} {s : Session} {dest : String} {place : Place}
    {t : Tree} (h : Initialized dest place t s.files) {later : List Action}
    (hn : Untouched e s place later) : loadFile (runAll e s later).files dest = .ok {} := by
  obtain ⟨entry, hw⟩ := Tree.place?_eq_some_iff.1 h.leads
  have hthere := hn.entry?_runAll (Tree.entry?_of_walk hw)
  rw [loadFile_of_keeps (keeps_runAll e s later) hw hthere, h.loads]

/-- The settings file that counts: the one in the working directory if there is something, else that
of the user if there is something. -/
inductive Counts (e : Environment) (t : Tree) : Option String → Prop
  | workdir (h : t.exists? localPath = true) : Counts e t (some localPath)
  | user {path : String} (h : t.exists? localPath = false) (hu : userPath? e = some path)
      (hx : t.exists? path = true) : Counts e t (some path)
  | none (h : t.exists? localPath = false)
      (hn : ∀ path, userPath? e = some path → t.exists? path = false) : Counts e t none

theorem counts_find? (e : Environment) (t : Tree) : Counts e t (find? e t) := by
  unfold find?
  cases h : t.exists? localPath with
  | true => exact .workdir h
  | false =>
    cases hu : (userPath? e).filter t.exists? with
    | none =>
      refine .none h fun path hpath => ?_
      simpa [hpath] using hu
    | some path =>
      obtain ⟨hpath, hx⟩ := Option.filter_eq_some_iff.1 hu
      exact .user h hpath hx

/-- **Settings files behind any history** of initializations, changes from outside and looks. An
initialization without `force` of a path that leads to something fails and changes nothing. One
that fails tells nothing and leaves everything as it is, but for missing directories that it may
have made. One that succeeds changes what its path leads to in the end, which was no directory,
makes missing directories above it, and changes nothing else; its path is then loaded as the
defaults, and so it is until a later step touches what is there. Settings are loaded from the file
that counts, and are the defaults if there is none. What no step of the history touches is as it
was. -/
theorem histories_keep (e : Environment) (start : Session) (actions : List Action) :
    let s := runAll e start actions
    (∀ path dest, destination? e path = some dest → s.files.exists? dest = true →
      ∃ f, init e path false s = (.error f, s)) ∧
    (∀ path force f s', init e path force s = (.error f, s') →
      s' = { s with files := s'.files } ∧
      ∀ p entry, s.files.entry? p = some entry → s'.files.entry? p = some entry) ∧
    (∀ path force s', init e path force s = (.ok (), s') →
      ∃ dest place, destination? e path = some dest ∧ Initialized dest place s.files s'.files ∧
        ∀ later, Untouched e s' place later →
          loadFile (runAll e s' later).files dest = .ok {}) ∧
    (Counts e s.files (find? e s.files) ∧
      (∀ path, find? e s.files = some path → load e s.files = loadFile s.files path) ∧
      (find? e s.files = none → load e s.files = .ok {})) ∧
    ∀ p entry, start.files.entry? p = some entry → Untouched e start p actions →
      s.files.entry? p = some entry := by
  intro s
  refine ⟨fun path dest hdest hx => ?_, fun path force f s' h => ?_, fun path force s' h => ?_,
    ⟨counts_find? e s.files, fun path hpath => ?_, fun hnone => ?_⟩,
    fun p entry hp hn => hn.entry?_runAll hp⟩
  · unfold destination? at hdest
    rw [init, hdest]
    exact ⟨_, if_pos (by simpa using hx)⟩
  · rcases init_cases e path force s with
      ⟨g, hi⟩ | ⟨dest, files, -, -, ⟨g, hi, hpaves⟩ | ⟨place, es, hi, -⟩⟩ <;>
      rw [hi] at h <;> cases h
    · exact ⟨rfl, fun p entry hp => hp⟩
    · exact ⟨rfl, fun p entry hp => hpaves.entry?_eq hp⟩
  · rcases init_cases e path force s with
      ⟨g, hi⟩ | ⟨dest, files, hdest, -, ⟨g, hi, -⟩ | ⟨place, es, hi, hinit⟩⟩ <;>
      rw [hi] at h <;> cases h
    exact ⟨dest, place, hdest, hinit, fun later hn =>
      Initialized.loads_runAll (s := ({ s with files } : Session).tellAll es) hinit hn⟩
  · rw [load, hpath]
  · rw [load, hnone]

end Settings

end ImageRelay
