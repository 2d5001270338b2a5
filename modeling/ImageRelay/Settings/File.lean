import ImageRelay.Engine.Basic
import ImageRelay.Environment
import ImageRelay.Settings.Basic

/-!
# Settings files

Where settings are looked for: in the working directory, then in the directory of the user's
configuration files. Without a file the settings are the defaults.

## Main definitions
* `Settings.find?`, `Settings.load`: the file that counts, and its settings.
* `Settings.display`, `Settings.init`: the two commands on settings files.
-/

set_option autoImplicit false

namespace ImageRelay.Settings

/-- The settings file in the working directory. -/
def localPath : String := ".conformance-images.toml"

/-- The settings file of the user. -/
def userPath? (e : Environment) : Option String :=
  e.configDirectory?.map fun d => Path.join (Path.join d "conformance-images") "config.toml"

/-- The settings file that counts. -/
def find? (e : Environment) (files : Files.Tree) : Option String :=
  if files.exists? localPath then some localPath else (userPath? e).filter files.exists?

/-- The settings of a file. -/
def loadFile (files : Files.Tree) (path : String) : Except Failure Settings :=
  match files.readText path with
  | .error trouble =>
    .error ((Chain.root trouble.message).within s!"Failed to read config file: {path}" : Chain)
  | .ok text =>
    match parse? text with
    | some s => .ok s
    | none =>
      .error
        ((Chain.root "TOML parse error: malformed settings").within
          s!"Failed to parse config file: {path}" : Chain)

/-- The settings of the file that counts, the defaults if there is none. -/
def load (e : Environment) (files : Files.Tree) : Except Failure Settings :=
  match find? e files with
  | some path => loadFile files path
  | none => .ok {}

/-- Shows the settings, and where they come from. -/
def display (e : Environment) (settings : Settings) (s : Session) : Session :=
  let head := match find? e s.files with
    | some path => s!"# Loaded from {path}\n\n"
    | none => "# No config file found, using defaults\n\n"
  s.tell (.out (head ++ settings.text))

/-- Makes the directories on the way to a path. -/
def makeParents (path : String) (files : Files.Tree) : Except Failure Unit × Files.Tree :=
  match (Path.parent? path).filter (!·.isEmpty) with
  | none => (.ok (), files)
  | some parent =>
    match files.createDirectories parent with
    | (.ok (), files) => (.ok (), files)
    | (.error trouble, files) =>
      (.error ((Chain.root trouble.message).within s!"Failed to create {parent}" : Chain), files)

/-- Writes the example file to a path, and makes the directories on the way. -/
def writeExample (path : String) (files : Files.Tree) : Except Failure Unit × Files.Tree :=
  match makeParents path files with
  | (.error f, files) => (.error f, files)
  | (.ok (), files) =>
    match files.write path (Text.Utf8.encode exampleText) with
    | .ok files => (.ok (), files)
    | .error trouble =>
      (.error ((Chain.root trouble.message).within s!"Failed to write config file: {path}" : Chain),
        files)

/-- Writes the example file to a path, or to the place of the user's file. A file that is there is
replaced only by `force`. -/
def init (e : Environment) (path : Option String) (force : Bool) (s : Session) :
    Except Failure Unit × Session :=
  match path.or (userPath? e) with
  | none => (.error (Chain.root "Could not determine config directory" : Chain), s)
  | some path =>
    if s.files.exists? path && !force then
      (.error
        (Chain.root s!"Config file already exists: {path} (use --force to overwrite)" : Chain), s)
    else
      match writeExample path s.files with
      | (.error f, files) => (.error f, { s with files })
      | (.ok (), files) =>
        (.ok (), (({ s with files } : Session).tell (.info s!"Wrote {path}")).tell
          (.line s!"Created {path}"))

end ImageRelay.Settings
