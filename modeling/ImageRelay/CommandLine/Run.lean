import ImageRelay.Cluster.Access
import ImageRelay.Command.Images
import ImageRelay.CommandLine.Texts
import ImageRelay.Logging
import ImageRelay.Prerequisites
import ImageRelay.Settings.File

/-!
# Running a command line

From arguments to an exit code, what is told, and what becomes of the files. Nothing is done for a
malformed command line. Settings are loaded before all else, and an engine is looked for before a
command that needs one asks for anything.

## Main definitions
* `World`: what the program runs in.
* `run`: the outcome of a command line.
-/

set_option autoImplicit false

namespace ImageRelay.CommandLine

/-- What the program runs in: the machine with its environment, files and programs, the servers
that can be reached, how questions are answered, what happens while a failed push waits, and what
the parser of command lines writes. -/
structure World where
  machine : Machine
  network : Network := .none
  prompts : Prompts := .unattended
  waiting : List Request → List Effect := fun _ => []
  texts : ParserTexts := {}

namespace World

/-- Whether a program is installed. -/
def isInstalled (w : World) (name : String) : Bool :=
  Program.isInstalled w.machine.environment w.machine.files name

/-- Where versions come from. -/
def versions (w : World) : VersionSource := fun files kubeconfig =>
  Cluster.serverVersion w.network w.machine.environment files kubeconfig

/-- The engine that is used, or why there is none. -/
def container (w : World) (settings : Settings) : Except Failure Container :=
  if (Prerequisites.survey w.isInstalled Prerequisites.engines).anyFound then
    (Container.detect w.isInstalled settings.engine.runtime).mapError .ofChain
  else .error (.ofAdvice .engineNotFound)

/-- What commands work with, once the engine is known. -/
def bench (w : World) (settings : Settings) (dryRun : Bool) (engine : Engine) : Bench where
  settings := settings
  engine := engine
  dryRun := dryRun
  versions := w.versions
  prompts := w.prompts
  waiting := w.waiting

/-- Finds the engine and goes on with it; a dry run needs none. -/
def withBench (w : World) (settings : Settings) (dryRun : Bool) (f : Bench → Step Unit) :
    Step Unit :=
  if dryRun then f (w.bench settings true DryRun.engine)
  else
    (Step.ofResult (w.container settings)).andThen fun c =>
    (Step.tell [c.detected]).andThen fun _ =>
    f (w.bench settings false (c.engine w.machine))

end World

/-! ## Tasks -/

/-- The selection that options make. -/
def ImageOptions.selection (o : ImageOptions) (settings : Settings) : Selection :=
  .make settings o.kubeconfig o.plugin o.version o.overrideFile

/-- Does a task. -/
def perform (w : World) (settings : Settings) (dryRun : Bool) : Task → Step Unit
  | .list o => Command.list (w.bench settings dryRun DryRun.engine) (o.selection settings)
  | .pull o => w.withBench settings dryRun fun b => Command.pull b (o.selection settings)
  | .download o output =>
    w.withBench settings dryRun fun b => Command.download b (o.selection settings) output
  | .push o username password =>
    w.withBench settings dryRun fun b => Command.push b (o.selection settings) username password
  | .delete o yes =>
    w.withBench settings dryRun fun b => Command.delete b (o.selection settings) yes
  | .check => fun s =>
    match Prerequisites.check w.isInstalled settings.engine.runtime with
    | (r, told) => (r, s.tellAll told)
  | .showSettings => fun s => (.ok (), Settings.display w.machine.environment settings s)
  | .initSettings path force => Settings.init w.machine.environment path force
  | .complete shell => .tell [.out (w.texts.completion shell)]
  | .version => .tell (versionLines.map .line)

/-- What is logged about a dry run. -/
def dryRunNotice : Emission := .info "🔍 DRY RUN MODE: No changes will be made"

/-- Does what a command line asks for, under the settings that are found. -/
def performAll (w : World) (a : Arguments) : Step Unit := fun s =>
  match Settings.load w.machine.environment s.files with
  | .error f => (.error f, s)
  | .ok settings =>
    perform w settings a.dryRun a.task (if a.dryRun then s.tell dryRunNotice else s)

/-! ## Outcomes -/

/-- The outcome of a command line: the exit code, what happened, and what is logged of it. -/
structure Outcome where
  code : UInt32
  session : Session
  filter : Logging.Filter

/-- The outcome of a command line that runs nothing. -/
def stopped (w : World) (s : Session) : Stop → Outcome
  | .usage => ⟨2, s.tell (.err w.texts.usage), []⟩
  | .help => ⟨0, s.tell (.out w.texts.help), []⟩
  | .version => ⟨0, s.tell (.line versionLine), []⟩

/-- The outcome of a command line. -/
def run (w : World) (args : List String) : Outcome :=
  let start : Session := { files := w.machine.files }
  match Arguments.parse w.machine.environment args with
  | .error reason => stopped w start reason
  | .ok a =>
    let filter := Logging.Filter.choose (w.machine.environment.get? "RUST_LOG") a.verbosity
    match performAll w a start with
    | (.ok (), s) => ⟨0, s, filter⟩
    | (.error f, s) => ⟨1, s.tellAll f.advice.emissions, filter⟩

/-! ## Channels -/

/-- A character of a log line; those that control a terminal are written out. -/
def logChar (c : Char) : List Char :=
  let n := c.toNat
  if n = 0x1B then "\\x1b".toList
  else if n = 0x07 then "\\x07".toList
  else if n = 0x08 then "\\x08".toList
  else if n = 0x0C then "\\x0c".toList
  else if n = 0x7F then "\\x7f".toList
  else if 0x80 ≤ n && n ≤ 0x9F then
    "\\u\x7b".toList ++ Nat.toDigits 16 n ++ ['\x7d']
  else [c]

/-- A log line. -/
def logLine (level : Level) (text : String) : String :=
  s!"{level.name} " ++ String.ofList (text.toList.flatMap logChar) ++ "\n"

/-- The source of the program's own log lines. -/
def logSource : String := "conformance_images::utils::logger"

/-- The source of the log lines of the client of clusters. -/
def clientLogSource : String := "kube_client::client::builder"

/-- What is written for errors, log lines among it. -/
def errorTextOf (f : Logging.Filter) : Emission → String
  | .err t => t
  | .log l t => if (f.threshold logSource).allows l then logLine l t else ""
  | .clientLog l t => if (f.threshold clientLogSource).allows l then logLine l t else ""
  | .out _ => ""

namespace Outcome

/-- What is written to the output. -/
def output (o : Outcome) : String := Emission.output o.session.output

/-- What is written for errors. -/
def errors (o : Outcome) : String :=
  String.join (o.session.output.map (errorTextOf o.filter))

end Outcome

end ImageRelay.CommandLine
