import ImageRelay.Registry.Load
import ImageRelay.Settings.Basic

/-!
# Selections

Which image set a command works on: the images of a plugin at a version, with or without the
overrides of a file. What the command line leaves open is filled from the settings.

## Main definitions
* `Selection.make`: a selection, filled from the settings.
* `Selection.version`: its version, asked of the cluster if need be.
* `Selection.publicImages`, `Selection.resolvedImages`: the image set without and with overrides.
-/

set_option autoImplicit false

namespace ImageRelay

/-- The only plugin whose images are known. -/
def knownPlugin : String := "e2e"

/-- Which image set a command works on. -/
structure Selection where
  kubeconfig : Option String := none
  plugin : String := knownPlugin
  version : String := auto
  overrideFile : Option String := none
  deriving Repr, DecidableEq

/-- What a cluster tells of its version, given a list of kubeconfig paths, and what is told on the
way. -/
abbrev VersionSource : Type :=
  Files.Tree → (kubeconfig : Option String) → Except Chain String × List Emission

/-- A step of a command: it fails, or goes on with a value. -/
abbrev Step (α : Type) : Type := Session → Except Failure α × Session

namespace Step

variable {α β : Type}

/-- Goes on behind a step that did not fail. -/
def andThen (x : Step α) (f : α → Step β) : Step β := fun s =>
  match x s with
  | (.ok a, s) => f a s
  | (.error e, s) => (.error e, s)

/-- A step that only gives a result. -/
def ofResult (r : Except Failure α) : Step α := fun s => (r, s)

/-- A step that only tells something. -/
def tell (es : List Emission) : Step Unit := fun s => (.ok (), s.tellAll es)

theorem andThen_of_error {x : Step α} {f : α → Step β} {s s' : Session} {e : Failure}
    (h : x s = (.error e, s')) : x.andThen f s = (.error e, s') := by simp [andThen, h]

theorem andThen_of_ok {x : Step α} {f : α → Step β} {s s' : Session} {a : α}
    (h : x s = (.ok a, s')) : x.andThen f s = f a s' := by simp [andThen, h]

end Step

namespace Selection

/-- A selection; what is not given is filled from the settings. -/
def make (settings : Settings) (kubeconfig plugin version overrideFile : Option String) :
    Selection where
  kubeconfig := kubeconfig
  plugin := plugin.getD settings.defaults.plugin
  version := version.getD settings.defaults.kubernetesVersion
  overrideFile := overrideFile.or settings.defaults.overrideFile

/-- Whether an override file is named. -/
def hasOverride (sel : Selection) : Bool := sel.overrideFile.any (!·.isEmpty)

/-- Asks the cluster for the version. -/
def askVersion (source : VersionSource) (sel : Selection) : Step KubeVersion := fun s =>
  let s := s.tell (.info "Querying the cluster for its version")
  match source s.files sel.kubeconfig with
  | (answer, told) =>
    let s := (s.tellAll told).tellAll ((Resolution.asks.notices answer).map .info)
    ((Resolution.asks.result answer).mapError Failure.ofResolution, s)

/-- The version of a selection; only the known plugin has one. -/
def resolveVersion (source : VersionSource) (sel : Selection) : Step KubeVersion :=
  if sel.plugin = knownPlugin then
    match Resolution.ofText sel.version with
    | .settled r => .ofResult (r.mapError Failure.ofResolution)
    | .asks => sel.askVersion source
  else .ofResult (.error (ResolutionError.unsupportedPlugin sel.plugin : Failure))

/-- The image set with the overrides of a file, if one is named. -/
def images (path : Option String) (v : KubeVersion) : Step ImageSet := fun s =>
  match Catalog.load path v s with
  | (r, s) => (r.mapError Failure.ofResolution, s)

/-- The image set without overrides. -/
def publicImages (_ : Selection) (v : KubeVersion) : Step ImageSet := images none v

/-- The image set with the overrides of the selection. -/
def resolvedImages (sel : Selection) (v : KubeVersion) : Step ImageSet := images sel.overrideFile v

end Selection

end ImageRelay
