import ImageRelay.Engine.Authorization
import ImageRelay.Engine.Basic
import ImageRelay.Engine.Export
import ImageRelay.Engine.Transfer
import ImageRelay.Program.Search

/-!
# Container engines

The engines that run a program of the machine for each call: docker and podman. A call that cannot
be started is rejected; what goes wrong later is the last thing in the stream of the call.

## Main definitions
* `Container.invocation`: the program and the arguments of a call.
* `Container.begin`: what a call starts, or why it is rejected.
* `Container.engine`: the engine.
-/

set_option autoImplicit false

namespace ImageRelay

/-- A container engine. -/
inductive Container
  | docker
  | podman
  deriving Repr, DecidableEq

/-- The machine that an engine runs on: its environment and files, what programs do when they are
started behind earlier requests, the path of a throwaway directory, or why there can be none, and
why a piece cannot be put into one. -/
structure Machine where
  environment : Environment
  files : Files.Tree
  programs : (past : List Request) → Program.Invocation → Program.Run := fun _ _ => {}
  throwaway : Except Files.Trouble String := .ok "/tmp/conformance-images-auth"
  filing : Authorization.Piece → Option Files.Trouble := fun _ => none

/-- Why a throwaway directory cannot be filled, if so: the first piece that cannot be put there. -/
def Machine.fillingFault? (m : Machine) (d : Authorization.Directory) : Option Chain :=
  d.pieces.findSome? fun piece =>
    (m.filing piece).map fun trouble => (Chain.root trouble.message).within piece.context

namespace Container

/-- The name of the program of an engine. -/
def command : Container → String
  | docker => "docker"
  | podman => "podman"

/-! ## Calls -/

/-- A call in progress, as streams and errors name it. -/
def describe (c : Container) : Call → String
  | .pull r => s!"pull {r}"
  | .tag _ t => s!"tagging {t}"
  | .push r _ => s!"push {r}"
  | .remove r => s!"removing {r}"
  | .save _ => s!"{c.command} save"

/-- What failed when the program of a call cannot be started. -/
def startContext (c : Container) : Call → String
  | .tag .. => s!"Failed to run {c.command} tag"
  | .remove _ => s!"Failed to run {c.command} rmi"
  | call => s!"Failed to start {c.describe call}"

/-- The arguments of a push whose credentials lie in a directory. -/
def authorizedPush (c : Container) (directory reference : String) : List String :=
  match c with
  | docker => ["--config", directory, "push", reference]
  | podman => ["push", "--authfile", Path.join directory "config.json", reference]

/-- The arguments of a call; the credentials of a push may lie in a directory. -/
def arguments (c : Container) (directory : Option String) : Call → List String
  | .pull r => ["pull", r]
  | .tag s t => ["tag", s, t]
  | .push r _ =>
    match directory with
    | some d => c.authorizedPush d r
    | none => ["push", r]
  | .remove r => ["rmi", r]
  | .save rs => "save" :: rs

/-- What a call logs before its program is started; a tag or removal behind a raised token logs
nothing. -/
def notice (now : Request) : List Emission :=
  match now.call with
  | .pull r => [.info s!"Pulling image: {r}"]
  | .tag s t => if now.cancelled then [] else [.info s!"Tagging image: {s} to {t}"]
  | .push r _ => [.info s!"Pushing image: {r}"]
  | .remove r => if now.cancelled then [] else [.info s!"Removing image: {r}"]
  | .save rs => [.info s!"Exporting {rs.length} image(s)"]

/-! ## Starting -/

/-- The directory on the ground of which an engine makes a throwaway directory. -/
def baseDirectory (c : Container) (e : Environment) : Option String :=
  match c with
  | docker => Authorization.userDirectory? e
  | podman => none

/-- What comes of a part of a call, and what happened in it to the program and the throwaway
directory of the call. -/
abbrev Traced (α : Type) : Type := Except Chain α × List Milestone

/-- Makes the throwaway directory of a push; without a header, or with one of anonymous credentials,
there is none. One that cannot be filled is cleared. -/
def authorize (c : Container) (m : Machine) (reference header : String) :
    Traced (Option (String × Authorization.Directory)) :=
  if header.isEmpty then (.ok none, [])
  else
    match Credentials.ofHeader header with
    | .error e => (.error e, [])
    | .ok auth =>
      if auth.isAnonymous then (.ok none, [])
      else
        match m.throwaway with
        | .error trouble =>
          (.error ((Chain.root trouble.message).within "Failed to create registry auth directory"),
            [])
        | .ok path =>
          let directory := Authorization.directory m.files (c.baseDirectory m.environment) auth
            (Authorization.registryHost reference)
          match m.fillingFault? directory with
          | some fault => (.error fault, [.prepared, .cleared])
          | none => (.ok (some (path, directory)), [.prepared])

/-- Makes the throwaway directory of a call; only pushes have one. -/
def callDirectory (c : Container) (m : Machine) :
    Call → Traced (Option (String × Authorization.Directory))
  | .push reference header => c.authorize m reference header
  | _ => (.ok none, [])

/-- A program that was started for a call, and the throwaway directory it was given. -/
structure Started where
  invocation : Program.Invocation
  directory : Option Authorization.Directory := none

/-- Starts the program of a call whose throwaway directory is made. -/
def launch (c : Container) (m : Machine) (now : Request) : Except Chain Unit :=
  if now.cancelled then .error (.root s!"cancelled before {c.describe now.call}")
  else
    match Program.launch m.environment m.files c.command with
    | .ok () => .ok ()
    | .error trouble => .error ((Chain.root trouble.message).within (c.startContext now.call))

/-- Starts the program of a call behind its throwaway directory, which is cleared if that fails. -/
def opening (c : Container) (m : Machine) (now : Request) : Traced Started :=
  match c.callDirectory m now.call with
  | (.error fault, h) => (.error fault, h)
  | (.ok directory, h) =>
    match c.launch m now with
    | .error fault => (.error fault, h ++ Transfer.clearing directory.isSome)
    | .ok () =>
      (.ok ⟨⟨c.command, c.arguments (directory.map (·.1)) now.call⟩, directory.map (·.2)⟩,
        h ++ [.started])

/-- What a call starts, or why it is rejected. -/
def begin (c : Container) (m : Machine) (now : Request) : Except Chain Started :=
  (c.opening m now).1

/-- The transfer of a pull or push, or why the call is rejected. -/
def transfer (c : Container) (m : Machine) (now : Request) : Except Chain Transfer :=
  (c.begin m now).map fun s => .started (c.describe now.call) s.directory.isSome

/-! ## Answers -/

/-- How a program that was waited for has failed, if it has. -/
def outputFault? (c : Container) (name : String) (r : Program.Run) : Option Chain :=
  if r.ending.isSuccess then none
  else
    some (.root s!"{c.command} {name} failed: {Text.trimmed (Text.Utf8.decodeLossy r.stderr)}")

/-- The answer to a call whose program was started and runs like this. -/
def answer (c : Container) (s : Started) (r : Program.Run) : (call : Call) → call.Answer
  | .pull reference =>
    .ok (Transfer.stream (Transfer.happenings r)
      (.started (c.describe (.pull reference)) s.directory.isSome))
  | .push reference header =>
    .ok (Transfer.stream (Transfer.happenings r)
      (.started (c.describe (.push reference header)) s.directory.isSome))
  | .tag _ _ =>
    match c.outputFault? "tag" r with
    | some fault => .error fault
    | none => .ok ()
  | .remove _ =>
    match c.outputFault? "rmi" r with
    | some fault => .error fault
    | none => .ok (Removed.ofOutput (Text.Utf8.decodeLossy r.stdout))
  | .save references =>
    .ok (Export.stream (c.describe (.save references)) (Export.happenings r))

/-- Whether a call is answered only when its program has ended. -/
def isAwaited : Call → Bool
  | .tag .. | .remove _ => true
  | _ => false

/-- The engine of a machine. -/
def engine (c : Container) (m : Machine) : Engine := fun past now =>
  let told := (notice now).map .tell
  match c.begin m now with
  | .error fault => { answer := now.call.rejected fault, effects := told }
  | .ok s =>
    let r := m.programs past s.invocation
    { answer := c.answer s r now.call
      effects := told ++
        if isAwaited now.call && r.interrupted then [.interrupt .announced] else [] }

end Container

end ImageRelay
