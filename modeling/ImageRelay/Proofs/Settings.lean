import ImageRelay.Proofs.Toml.Tables
import ImageRelay.Settings.File

/-!
# Shown settings are settings

What is shown of settings is the text of a settings file that sets exactly these, whatever
characters their texts have (`Settings.shown_settings_load`).

* `Settings.tables`: the four sections as they are written, with what they are read as.
* `Settings.parse?_text`, `Settings.parse?_comment_text`: the text of settings, alone and behind a
  comment.
-/

set_option autoImplicit false

namespace ImageRelay

namespace Settings

open Toml (Entry Table IsBare)

/-! ## Sections as they are written -/

def stringEntry (key : String) (h : IsBare key) (s : String) : Entry :=
  ⟨key, Toml.stringText s, .string s, h, Toml.spells_stringText s⟩

def booleanEntry (key : String) (h : IsBare key) (b : Bool) : Entry :=
  ⟨key, booleanText b, .boolean b, h, Toml.spells_booleanWord b⟩

def naturalEntry (key : String) (h : IsBare key) (n : Nat) : Entry :=
  ⟨key, toString n, .integer n, h, by
    rw [Nat.toString_eq_repr, Nat.toList_repr]
    exact Toml.spells_toDigits n⟩

/-- An entry that is only written if it is set. -/
def optionalEntry (key : String) (h : IsBare key) (v : Option String) : List Entry :=
  (v.map (stringEntry key h)).toList

def Defaults.table (d : Defaults) : Table where
  name := "defaults"
  entries :=
    [stringEntry "kubernetes_version" (Toml.isBare_of_all rfl rfl) d.kubernetesVersion,
      stringEntry "plugin" (Toml.isBare_of_all rfl rfl) d.plugin] ++
    optionalEntry "override_file" (Toml.isBare_of_all rfl rfl) d.overrideFile
  bare := Toml.isBare_of_all rfl rfl
  distinct := by cases d.overrideFile <;> simp [stringEntry, optionalEntry]

def EngineChoice.table (d : EngineChoice) : Table where
  name := "engine"
  entries := optionalEntry "runtime" (Toml.isBare_of_all rfl rfl) d.runtime
  bare := Toml.isBare_of_all rfl rfl
  distinct := by cases d.runtime <;> simp [stringEntry, optionalEntry]

def Behavior.table (d : Behavior) : Table where
  name := "behavior"
  entries :=
    [booleanEntry "confirm_destructive" (Toml.isBare_of_all rfl rfl) d.confirmDestructive,
      booleanEntry "show_progress" (Toml.isBare_of_all rfl rfl) d.showProgress]
  bare := Toml.isBare_of_all rfl rfl
  distinct := by simp [booleanEntry]

def PushPolicy.table (d : PushPolicy) : Table where
  name := "push"
  entries :=
    [naturalEntry "retries" (Toml.isBare_of_all rfl rfl) d.retries.toNat,
      naturalEntry "retry_backoff_secs" (Toml.isBare_of_all rfl rfl) d.retryBackoffSecs.toNat]
  bare := Toml.isBare_of_all rfl rfl
  distinct := by simp [naturalEntry]

/-- The sections in the order in which they are written. -/
def tables (s : Settings) : List Table :=
  [s.defaults.table, s.engine.table, s.behavior.table, s.push.table]

theorem text_eq (s : Settings) : s.text = "\n".intercalate (s.tables.map (·.text)) := by
  obtain ⟨⟨version, plugin, overrideFile⟩, ⟨runtime⟩, behavior, push⟩ := s
  cases overrideFile <;> cases runtime <;> rfl

/-! ## Sections as they are read -/

theorem defaults_read (d : Defaults) :
    some d = section? {} ["kubernetes_version", "plugin", "override_file"] Defaults.read?
      (some d.table.field.2) := by
  obtain ⟨version, plugin, overrideFile⟩ := d
  cases overrideFile <;> rfl

theorem engine_read (d : EngineChoice) :
    some d = section? {} ["runtime"] EngineChoice.read? (some d.table.field.2) := by
  obtain ⟨runtime⟩ := d
  cases runtime <;> rfl

theorem behavior_read (d : Behavior) :
    some d = section? {} ["confirm_destructive", "show_progress"] Behavior.read?
      (some d.table.field.2) := rfl

theorem below?_integer {bound n : Nat} (h : n < bound) : below? bound (.integer n) = some n :=
  if_pos h

theorem push_read (d : PushPolicy) :
    some d = section? {} ["retries", "retry_backoff_secs"] PushPolicy.read?
      (some d.table.field.2) := by
  obtain ⟨retries, backoff⟩ := d
  have hretries := below?_integer retries.toNat_lt_size
  have hbackoff := below?_integer backoff.toNat_lt_size
  change _ = PushPolicy.read? [some (.integer retries.toNat), some (.integer backoff.toNat)]
  simp [PushPolicy.read?, field?, hretries, hbackoff]

theorem ofEntries?_tables (s : Settings) : ofEntries? (s.tables.map (·.field)) = some s := by
  have hfields : fields? ["defaults", "engine", "behavior", "push"]
      (.table .header (s.tables.map (·.field))) = some [some s.defaults.table.field.2,
        some s.engine.table.field.2, some s.behavior.table.field.2, some s.push.table.field.2] := rfl
  rw [ofEntries?, hfields]
  simp [← defaults_read, ← engine_read, ← behavior_read, ← push_read]

theorem nodup_tables (s : Settings) : (s.tables.map (·.name)).Nodup := by
  show ["defaults", "engine", "behavior", "push"].Nodup
  decide

/-- The text of settings sets exactly these. -/
theorem parse?_text (s : Settings) : parse? s.text = some s := by
  rw [parse?, text_eq, Toml.parse?_tables _ s.nodup_tables]
  exact ofEntries?_tables s

theorem uncontrolled {note : List Char} (h : note.any Toml.isControl = false) :
    ∀ c ∈ note, Toml.isControl c = false := by
  intro c hc
  have hnot := List.any_eq_false.1 h c hc
  simpa using hnot

/-- So it does behind a comment and an empty line. -/
theorem parse?_comment_text (s : Settings) {head : String} {note : List Char}
    (hh : head.toList = '#' :: (note ++ ['\n', '\n']))
    (hn : ∀ c ∈ note, Toml.isControl c = false) : parse? (head ++ s.text) = some s := by
  have hbody := Toml.Table.lines_document s.tables
  have hlines : Toml.Lines (head ++ s.text).toList (s.tables.flatMap (·.statements)) := by
    have hall := Toml.Lines.comment hn (.empty hbody)
    rw [← text_eq] at hall
    rw [String.toList_append, hh, List.cons_append, List.append_assoc]
    exact hall
  rw [parse?, Toml.parse?_lines _ s.nodup_tables hlines]
  exact ofEntries?_tables s

/-! ## Settings files -/

theorem loadFile_of_parse? {files : Files.Tree} {path text : String} {settings : Settings}
    (hr : files.read path = .ok (Text.Utf8.encode text)) (hp : parse? text = some settings) :
    loadFile files path = .ok settings := by
  have htext : files.readText path = .ok text := by
    rw [Files.Tree.readText, hr]
    simp only [Text.Utf8.decode?_encode]
  simp only [loadFile, htext, hp]

/-- **Shown settings are loaded as the same settings**: behind a comment on where they come from,
what is shown of settings is a body that sets exactly these, and so does every settings file with
this body. What is not set stays so, whatever characters the texts have and whatever was read to
get the settings. The comment may stay in the file, unless it names a path with a control
character. -/
theorem shown_settings_load (e : Environment) (settings : Settings) (s : Session) :
    ∃ head body, display e settings s = s.tell (.out (head ++ body)) ∧
      (head = "# No config file found, using defaults\n\n" ∨
        ∃ path : String, find? e s.files = some path ∧ head = s!"# Loaded from {path}\n\n") ∧
      parse? body = some settings ∧
      (∀ (files : Files.Tree) (path : String), files.read path = .ok (Text.Utf8.encode body) →
        loadFile files path = .ok settings) ∧
      ((∀ path, find? e s.files = some path → ∀ c ∈ path.toList, Toml.isControl c = false) →
        parse? (head ++ body) = some settings) := by
  have hbody := parse?_text settings
  have hfile (files : Files.Tree) (path : String)
      (hr : files.read path = .ok (Text.Utf8.encode settings.text)) :
      loadFile files path = .ok settings := loadFile_of_parse? hr hbody
  unfold display
  cases find? e s.files with
  | none =>
    refine ⟨_, settings.text, rfl, .inl rfl, hbody, hfile, fun _ => ?_⟩
    have hhead : "# No config file found, using defaults\n\n".toList =
        '#' :: (" No config file found, using defaults".toList ++ ['\n', '\n']) := rfl
    exact parse?_comment_text settings hhead (uncontrolled rfl)
  | some path =>
    refine ⟨_, settings.text, rfl, .inr ⟨path, rfl, rfl⟩, hbody, hfile, fun hpath => ?_⟩
    have hhead : s!"# Loaded from {path}\n\n".toList =
        '#' :: (" Loaded from ".toList ++ path.toList ++ ['\n', '\n']) := by simp [toString]
    have hprefix : ∀ c ∈ " Loaded from ".toList, Toml.isControl c = false := uncontrolled rfl
    refine parse?_comment_text settings hhead fun c hc => ?_
    rcases List.mem_append.1 hc with hc | hc
    · exact hprefix c hc
    · exact hpath path rfl c hc

end Settings

end ImageRelay
