import ImageRelay.CommandLine.Grammar
import ImageRelay.Environment

/-!
# Arguments

The commands of the program with their options, and what a command line asks for. Some options may
also be set in the environment.

## Main definitions
* `Task`: what is to be done.
* `Arguments.parse`: what a command line asks for, or why it runs nothing.
-/

set_option autoImplicit false

namespace ImageRelay.CommandLine

/-! ## Tasks -/

/-- The options of every command on images. -/
structure ImageOptions where
  kubeconfig : Option String := none
  plugin : Option String := none
  version : Option String := none
  overrideFile : Option String := none
  deriving Repr, DecidableEq

/-- What is to be done. -/
inductive Task
  | list (images : ImageOptions)
  | pull (images : ImageOptions)
  | download (images : ImageOptions) (output : Option String)
  | push (images : ImageOptions) (username password : Option String)
  | delete (images : ImageOptions) (yes : Bool)
  | check
  | showSettings
  | initSettings (path : Option String) (force : Bool)
  | complete (shell : String)
  | version
  deriving Repr, DecidableEq

/-- What a command line asks for. -/
structure Arguments where
  verbosity : Nat := 0
  dryRun : Bool := false
  task : Task
  deriving Repr, DecidableEq

/-! ## Levels -/

/-- The options of every level. -/
def common : List Parameter :=
  [⟨"verbose", some 'v', .count⟩, ⟨"dry-run", none, .flag⟩, ⟨"help", some 'h', .stop .help⟩]

/-- The options of every command on images. -/
def imageParameters : List Parameter :=
  [⟨"kubeconfig", none, .path⟩, ⟨"plugin", some 'p', .text⟩,
    ⟨"kubernetes-version", none, .text⟩, ⟨"e2e-repo-config", none, .path⟩]

/-- The shells that completions can be written for. -/
def shells : List String := ["bash", "elvish", "fish", "powershell", "zsh"]

/-- The commands on settings. -/
def settingsCommands : List String := ["show", "init"]

/-- The commands of the program. -/
def commands : List String :=
  ["list", "pull", "download", "push", "delete", "check", "config", "completion", "version"]

/-- The first level. -/
def rootGrammar : Grammar where
  parameters := ⟨"version", some 'V', .stop .version⟩ :: common
  commands := commands ++ ["help"]

/-- The level of the commands on settings. -/
def settingsGrammar : Grammar where
  parameters := common
  commands := settingsCommands ++ ["help"]

/-- The level of a command that has none below it. -/
def leafGrammar (command : String) : Grammar :=
  match command with
  | "list" | "pull" => { parameters := imageParameters ++ common }
  | "download" =>
    { parameters := ⟨"output", some 'o', .path⟩ :: imageParameters ++ common }
  | "push" =>
    { parameters :=
        ⟨"username", some 'u', .text⟩ :: ⟨"password", none, .text⟩ :: imageParameters ++ common }
  | "delete" => { parameters := ⟨"yes", some 'y', .flag⟩ :: imageParameters ++ common }
  | "init" =>
    { parameters := ⟨"path", none, .path⟩ :: ⟨"force", none, .flag⟩ :: common }
  | "completion" => { parameters := common, words := shells }
  | _ => { parameters := common }

/-! ## From what is given to tasks -/

/-- The options on images; the kubeconfig may be set in the environment, where it may not be
empty. -/
def imageOptions (e : Environment) (g : Given) : Except Stop ImageOptions :=
  let options (kubeconfig : Option String) : ImageOptions :=
    ⟨kubeconfig, g.get? "plugin", g.get? "kubernetes-version", g.get? "e2e-repo-config"⟩
  match g.get? "kubeconfig" with
  | some path => .ok (options (some path))
  | none =>
    match e.get? "KUBECONFIG" with
    | some "" => .error .usage
    | path => .ok (options path)

/-- The task of a command that has none below it. -/
def taskOf (e : Environment) (command : String) (g : Given) : Except Stop Task :=
  match command with
  | "list" => (imageOptions e g).map .list
  | "pull" => (imageOptions e g).map .pull
  | "download" => (imageOptions e g).map (.download · (g.get? "output"))
  | "push" =>
    (imageOptions e g).map
      (.push · (g.get? "username") ((g.get? "password").or (e.get? "REGISTRY_PASSWORD")))
  | "delete" => (imageOptions e g).map (.delete · (g.has "yes"))
  | "check" => .ok .check
  | "show" => .ok .showSettings
  | "init" => .ok (.initSettings (g.get? "path") (g.has "force"))
  | "completion" =>
    match g.word with
    | some shell => .ok (.complete shell)
    | none => .error .usage
  | "version" => .ok .version
  | _ => .error .usage

/-- How much more output is asked for: the innermost level that asks for some counts. -/
def verbosityOf (levels : List Given) : Nat :=
  levels.foldl (fun v g => if g.has "verbose" then g.count "verbose" else v) 0

/-- A command that has none below it, with what was given on the levels above. -/
def leaf (e : Environment) (above : List Given) (command : String) (args : List String) :
    Except Stop Arguments :=
  match (leafGrammar command).scan none args {} with
  | .error reason => .error reason
  | .ok (g, _) =>
    (taskOf e command g).map fun task =>
      { verbosity := verbosityOf (above ++ [g])
        dryRun := (above ++ [g]).any (·.has "dry-run")
        task }

/-- Whether there is help on a command, known by the names that lead to it. -/
def hasHelp : List String → Bool
  | [] => true
  | [c] => rootGrammar.commands.contains c
  | ["config", c] => settingsGrammar.commands.contains c
  | _ => false

/-- Help on a command. -/
def helpOn (path : List String) : Stop := if hasHelp path then .help else .usage

/-- The level of the commands on settings. -/
def settingsArguments (e : Environment) (above : Given) (args : List String) :
    Except Stop Arguments :=
  match settingsGrammar.scan none args {} with
  | .error reason => .error reason
  | .ok (_, none) => .error .usage
  | .ok (_, some ("help", path)) => .error (helpOn ("config" :: path))
  | .ok (g, some (command, rest)) => leaf e [above, g] command rest

/-- What a command line asks for, or why it runs nothing. -/
def Arguments.parse (e : Environment) (args : List String) : Except Stop Arguments :=
  match rootGrammar.scan none args {} with
  | .error reason => .error reason
  | .ok (_, none) => .error .usage
  | .ok (_, some ("help", path)) => .error (helpOn path)
  | .ok (g, some ("config", rest)) => settingsArguments e g rest
  | .ok (g, some (command, rest)) => leaf e [g] command rest

end ImageRelay.CommandLine
