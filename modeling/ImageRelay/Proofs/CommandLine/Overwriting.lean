import ImageRelay.CommandLine.Run
import ImageRelay.Proofs.Settings.Histories

/-!
# Overwriting a settings file

A forced initialization replaces any file (`Settings.init_forced`), but the program loads settings
before all else, so it gets to the initialization only if the file that counts can be loaded.

* `Overwrites`: a command line overwrites the settings file that counts.
* `overwrites_iff_loads`: it does exactly if the file was well-formed before.
-/

set_option autoImplicit false

namespace ImageRelay

open Files (Place Tree)

namespace Settings

/-! ## Forced initializations -/

theorem makeParents_of_walk {t : Tree} {path : String} {place : Place} {e : Files.Entry}
    (h : t.walk path = .ok (.found place e)) (he : e ≠ .directory) :
    makeParents path t = (.ok (), t) := by
  rcases Tree.walk_parent h he with hempty | ⟨parent, d, hparent, hne, hd⟩
  · have hfilter : (Path.parent? path).filter (!·.isEmpty) = none := by
      rw [hempty]
      rfl
    simp only [makeParents, hfilter]
  · have hmake := Tree.createDirectories_of_walk hne hd
    have hfilter : (Path.parent? path).filter (!·.isEmpty) = some parent := by
      simp [hparent, hne]
    simp only [makeParents, hfilter, hmake]

/-- Any file can be initialized by force. -/
theorem init_forced {e : Environment} {path : Option String} {dest : String} {s : Session}
    {place : Place} {old : List UInt8} {x : Bool} (hdest : destination? e path = some dest)
    (hw : s.files.walk dest = .ok (.found place (.file old x))) :
    ∃ files es, init e path true s = (.ok (), ({ s with files } : Session).tellAll es) ∧
      Tree.Replaces place (Text.Utf8.encode exampleText) s.files files := by
  obtain ⟨files, hwrite, hnew⟩ := Tree.replaces_write hw (Text.Utf8.encode exampleText)
  have hexample : writeExample dest s.files = (.ok (), files) := by
    simp only [writeExample, makeParents_of_walk hw nofun, hwrite]
  refine ⟨files, [.info s!"Wrote {dest}"] ++ [.line s!"Created {dest}"], ?_, hnew⟩
  rw [destination?] at hdest
  simp only [init, hdest, hexample, Bool.not_true, Bool.and_false, Bool.false_eq_true, if_false]
  exact congrArg _ (Session.tellAll_tellAll _ _ _)

/-! ## What is found and loaded -/

theorem find?_of_replaces {place : Place} {content : List UInt8} {t t' : Tree}
    (h : t.Replaces place content t') (e : Environment) : find? e t' = find? e t := by
  rw [find?, find?, h.exists?_eq]

/-- A file is loaded if its bytes are a text that is well-formed. -/
theorem loadFile_eq_ok_iff {t : Tree} {path : String} {place : Place} {content : List UInt8}
    {x : Bool} (hw : t.walk path = .ok (.found place (.file content x))) {settings : Settings} :
    loadFile t path = .ok settings ↔
      ∃ text, Text.Utf8.decode? content = some text ∧ parse? text = some settings := by
  have hread : t.read path = .ok content := by simp [Tree.read, hw]
  cases hd : Text.Utf8.decode? content with
  | none => simp [loadFile, Tree.readText, hread, hd]
  | some text =>
    have htext : t.readText path = .ok text := by simp only [Tree.readText, hread, hd]
    cases hp : parse? text <;> simp [loadFile, htext, hp]

theorem exists_loadFile_error {t : Tree} {path : String} {place : Place} {content : List UInt8}
    {x : Bool} (hw : t.walk path = .ok (.found place (.file content x)))
    (h : ∀ text, Text.Utf8.decode? content = some text → parse? text = none) :
    ∃ f, loadFile t path = .error f := by
  cases hload : loadFile t path with
  | error f => exact ⟨f, rfl⟩
  | ok settings =>
    obtain ⟨text, hd, hp⟩ := (loadFile_eq_ok_iff hw).1 hload
    cases (h text hd).symm.trans hp

theorem load_of_find? {e : Environment} {t : Tree} {path : String} (h : find? e t = some path) :
    load e t = loadFile t path := by
  rw [load, h]

/-- Behind a forced initialization the defaults are loaded. -/
theorem load_of_replaces {e : Environment} {t t' : Tree} {path : String} {place : Place}
    {entry : Files.Entry} (hfind : find? e t = some path)
    (hw : t.walk path = .ok (.found place entry))
    (h : t.Replaces place (Text.Utf8.encode exampleText) t') : load e t' = .ok {} := by
  obtain ⟨x, hw'⟩ := h.walk hw
  rw [load_of_find? ((find?_of_replaces h e).trans hfind)]
  exact (loadFile_eq_ok_iff hw').2 ⟨exampleText, Text.Utf8.decode?_encode _, parse?_exampleText⟩

end Settings

namespace CommandLine

open Settings (destination?)

/-! ## Runs -/

/-- A world with other files. -/
def World.over (w : World) (files : Tree) : World :=
  { w with machine := { w.machine with files } }

section
variable {w : World} {args : List String} {a : Arguments}

/-- Without settings nothing is done. -/
theorem run_of_load_error (hargs : Arguments.parse w.machine.environment args = .ok a) {f : Failure}
    (hload : Settings.load w.machine.environment w.machine.files = .error f) :
    (run w args).code = 1 ∧ (run w args).session.files = w.machine.files := by
  simp only [run, hargs, performAll, hload, Session.files_tellAll, and_self]

/-- A task that succeeds under the settings that are loaded, behind the notice of a dry run. -/
theorem run_of_perform {settings : Settings} {s' : Session}
    (hargs : Arguments.parse w.machine.environment args = .ok a)
    (hload : Settings.load w.machine.environment w.machine.files = .ok settings)
    (hdone : perform w settings a.dryRun a.task (({ files := w.machine.files } : Session).tellAll
      (if a.dryRun then [dryRunNotice] else [])) = (.ok (), s')) :
    (run w args).code = 0 ∧ (run w args).session = s' := by
  have hall : performAll w a { files := w.machine.files } = (.ok (), s') := by
    rw [← hdone]
    simp only [performAll, hload]
    cases a.dryRun
    · simp [Session.tellAll_nil]
    · rfl
  simp only [run, hargs, hall, and_self]

/-- Settings that are loaded from a file are shown as such. -/
theorem run_show {settings : Settings} {path : String}
    (hargs : Arguments.parse w.machine.environment args = .ok a) (htask : a.task = .showSettings)
    (hload : Settings.load w.machine.environment w.machine.files = .ok settings)
    (hfind : Settings.find? w.machine.environment w.machine.files = some path) :
    (run w args).code = 0 ∧
      (run w args).output = s!"# Loaded from {path}\n\n" ++ settings.text := by
  obtain ⟨hcode, hsession⟩ := run_of_perform hargs hload (by rw [htask, perform])
  refine ⟨hcode, ?_⟩
  rw [Outcome.output, hsession, Settings.display, Session.files_tellAll, hfind]
  cases a.dryRun <;>
    simp [Session.tell, Session.tellAll, Emission.output, dryRunNotice, Emission.info, String.join]

end

/-! ## Overwriting -/

/-- A command line overwrites the settings file that counts: it succeeds, and from then on the
settings that are shown are the defaults, from this file. -/
def Overwrites (w : World) (args : List String) (path : String) : Prop :=
  (run w args).code = 0 ∧ ∀ shows a, Arguments.parse w.machine.environment shows = .ok a →
    a.task = .showSettings →
    (run (w.over (run w args).session.files) shows).code = 0 ∧
      (run (w.over (run w args).session.files) shows).output =
        s!"# Loaded from {path}\n\n" ++ ({} : Settings).text

example (e : Environment) : Arguments.parse e ["config", "show"] = .ok { task := .showSettings } :=
  rfl

/-- **A forced initialization of the settings file that counts overwrites it exactly if it was
well-formed**, by whatever path the file is named. Otherwise the program fails, and the file stays
as it is. -/
theorem overwrites_iff_loads {w : World} {args : List String} {a : Arguments}
    {given : Option String} {path dest : String} {place : Place} {content : List UInt8} {x : Bool}
    (hargs : Arguments.parse w.machine.environment args = .ok a)
    (htask : a.task = .initSettings given true)
    (hfind : Settings.find? w.machine.environment w.machine.files = some path)
    (hfile : w.machine.files.walk path = .ok (.found place (.file content x)))
    (hdest : destination? w.machine.environment given = some dest)
    (hsame : w.machine.files.place? dest = some place) :
    (Overwrites w args path ↔ ∃ text settings, Text.Utf8.decode? content = some text ∧
      Settings.parse? text = some settings) ∧
    (¬Overwrites w args path →
      (run w args).code = 1 ∧ (run w args).session.files = w.machine.files) := by
  have hload := Settings.load_of_find? hfind
  cases h : Settings.loadFile w.machine.files path with
  | error f =>
    have hfails := run_of_load_error hargs (hload.trans h)
    have hnot : ¬Overwrites w args path := fun hover => by
      rw [Overwrites, hfails.1] at hover
      exact absurd hover.1 (by decide)
    refine ⟨⟨fun hover => absurd hover hnot, fun ⟨text, settings, hd, hp⟩ => ?_⟩, fun _ => hfails⟩
    cases h.symm.trans ((Settings.loadFile_eq_ok_iff hfile).2 ⟨text, hd, hp⟩)
  | ok settings =>
    obtain ⟨text, hd, hp⟩ := (Settings.loadFile_eq_ok_iff hfile).1 h
    -- the path of the initialization leads to the same file
    obtain ⟨entry, hw⟩ := Tree.place?_eq_some_iff.1 hsame
    obtain rfl : entry = .file content x :=
      Option.some.inj ((Tree.entry?_of_walk hw).symm.trans (Tree.entry?_of_walk hfile))
    obtain ⟨files, es, hinit, hnew⟩ := Settings.init_forced
      (s := ({ files := w.machine.files } : Session).tellAll
        (if a.dryRun then [dryRunNotice] else [])) hdest hw
    obtain ⟨hcode, hsession⟩ := run_of_perform hargs (hload.trans h) (by rw [htask, perform, hinit])
    have hfiles : (run w args).session.files = files := by rw [hsession]; rfl
    have hover : Overwrites w args path := by
      refine ⟨hcode, fun shows b hshows hshow => ?_⟩
      rw [hfiles]
      exact run_show (w := w.over files) hshows hshow (Settings.load_of_replaces hfind hfile hnew)
        ((Settings.find?_of_replaces hnew _).trans hfind)
    exact ⟨⟨fun _ => ⟨text, settings, hd, hp⟩, fun _ => hover⟩, fun hnot => absurd hover hnot⟩

/-- A world in which the only file is a settings file in the working directory. -/
def World.ofSettings (text : String) : World where
  machine :=
    { environment := ⟨[], none⟩
      files := ⟨[([Settings.localPath], .file (Text.Utf8.encode text) false)], []⟩ }

theorem array_section_overwritten :
    Overwrites (.ofSettings "push=[3]")
      ["config", "init", "--path", ".conformance-images.toml", "--force"]
      ".conformance-images.toml" := by
  have hparse : Settings.parse? "push=[3]" = some { push := { retries := 3 } } := by decide +kernel
  have htext := Text.Utf8.decode?_encode "push=[3]"
  exact (overwrites_iff_loads rfl rfl rfl rfl rfl rfl).1.2 ⟨_, _, htext, hparse⟩

/-- A malformed file is not overwritten, though the command line asks for it by force. -/
theorem malformed_file_stays :
    Arguments.parse ⟨[], none⟩ ["config", "init", "--path", ".conformance-images.toml", "--force"] =
      .ok { task := .initSettings (some ".conformance-images.toml") true } ∧
    ¬Overwrites (.ofSettings "x=")
      ["config", "init", "--path", ".conformance-images.toml", "--force"]
      ".conformance-images.toml" := by
  have hargs : Arguments.parse ⟨[], none⟩
      ["config", "init", "--path", ".conformance-images.toml", "--force"] =
      .ok { task := .initSettings (some ".conformance-images.toml") true } := rfl
  have hparse : Settings.parse? "x=" = none := by decide +kernel
  have hfile : (World.ofSettings "x=").machine.files.walk Settings.localPath =
      .ok (.found [Settings.localPath] (.file (Text.Utf8.encode "x=") false)) := rfl
  have htext : ∀ text, Text.Utf8.decode? (Text.Utf8.encode "x=") = some text →
      Settings.parse? text = none := by
    rintro text hd
    obtain rfl := Option.some.inj ((Text.Utf8.decode?_encode "x=").symm.trans hd)
    exact hparse
  obtain ⟨f, hload⟩ := Settings.exists_loadFile_error hfile htext
  refine ⟨hargs, fun hover => ?_⟩
  rw [Overwrites, (run_of_load_error (w := .ofSettings "x=") hargs hload).1] at hover
  exact absurd hover.1 (by decide)

end CommandLine

end ImageRelay
