import ImageRelay.Engine.Container

/-!
# Prerequisites

The programs that have to be installed, and the choice of a container engine among those that are.
One engine is enough.

## Main definitions
* `Prerequisites.survey`: which of some programs are installed.
* `Container.detect`: the engine that is used.
* `Prerequisites.check`: the command that shows both.
-/

set_option autoImplicit false

namespace ImageRelay

namespace Prerequisites

/-- A program that may be needed, and how to install it. -/
structure Prerequisite where
  name : String
  hint : String
  deriving Repr, DecidableEq

/-- The container engines. -/
def engines : List Prerequisite :=
  [⟨"docker", "Install from: https://docs.docker.com/get-docker/"⟩,
    ⟨"podman", "Install from: https://podman.io/getting-started/installation"⟩]

/-- Why a program that is not installed is a fault. -/
def Prerequisite.fault (p : Prerequisite) : String := s!"Tool '{p.name}' not found"

/-- Which programs are installed, and which are not. -/
structure Survey where
  found : List Prerequisite
  missing : List Prerequisite

/-- Divides programs by whether they are installed. -/
def survey (isInstalled : String → Bool) (ps : List Prerequisite) : Survey where
  found := ps.filter fun p => isInstalled p.name
  missing := ps.filter fun p => !isInstalled p.name

/-- Whether one of the programs is installed. -/
def Survey.anyFound (s : Survey) : Bool := !s.found.isEmpty

/-- The lines that show a survey. -/
def Survey.lines (s : Survey) : List String :=
  (s.found.map fun p => s!"✓ {p.name}") ++ s.missing.map fun p => s!"✗ {p.name} ({p.hint})"

end Prerequisites

/-! ## The engine that is used -/

/-- The engines in the order in which they are tried, or none for a preference that is unknown. -/
def Container.order? : Option String → Option (List Container)
  | some "podman" => some [.podman, .docker]
  | some "docker" | none => some [.docker, .podman]
  | some _ => none

/-- The text of the failure to find an engine. -/
def Container.noneFound : String :=
  "Neither docker nor podman found. Please install one of them:\n  " ++
    "- Docker: https://docs.docker.com/get-docker/\n  " ++
    "- Podman: https://podman.io/getting-started/installation"

/-- The first engine that is installed, the preferred one before the other. -/
def Container.detect (isInstalled : String → Bool) (preferred : Option String) :
    Except Chain Container :=
  match order? preferred with
  | none =>
    .error <| .root <|
      s!"Unknown container runtime '{preferred.getD default}', expected docker or podman"
  | some order =>
    match order.find? fun c => isInstalled c.command with
    | some c => .ok c
    | none => .error (.root noneFound)

/-- What is told of the engine that is used. -/
def Container.detected (c : Container) : Emission :=
  .info s!"Using container runtime: {c.command}"

namespace Prerequisites

/-- Shows which engines are installed and which one is used. -/
def check (isInstalled : String → Bool) (preferred : Option String) :
    Except Failure Unit × List Emission :=
  let s := survey isInstalled engines
  let shown := .info "Checking prerequisites..." :: s.lines.map .line
  if s.anyFound then
    match Container.detect isInstalled preferred with
    | .error fault => (.error (fault : Failure), shown)
    | .ok c => (.ok (), shown ++ [c.detected, .line s!"Container runtime: {c.command}"])
  else (.error (Advice.engineNotFound : Failure), shown)

end Prerequisites

end ImageRelay
