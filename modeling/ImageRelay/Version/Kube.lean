import ImageRelay.Failure
import ImageRelay.Text.Blank
import ImageRelay.Version.Semantic

/-!
# Kubernetes versions

A Kubernetes version is a semantic version that may begin with a `v`. Its text is kept as it was
given, because it is the tag of every image. The text `auto` is no version: it asks for the one of
the connected cluster.

## Main definitions
* `KubeVersion.parse`: accepts or refuses an explicit version.
* `Resolution`: what a version text comes to, at once or after asking the cluster.
-/

set_option autoImplicit false

namespace ImageRelay

/-- The text that asks for the version of the cluster. -/
def auto : String := "auto"

/-- The text without one leading `v`. -/
def withoutV : List Char → List Char
  | 'v' :: r => r
  | s => s

/-- A version text that is accepted. -/
structure KubeVersion where
  text : String
  accepted : (Semantic.parse (withoutV text.toList)).toBool = true

namespace KubeVersion

/-- Accepts an explicit version, without the blanks around it. -/
def parse (raw : String) : Except ResolutionError KubeVersion :=
  let text := Text.trimmed raw
  if text = "" then .error (.invalidVersion raw "version is empty")
  else if text = auto then
    .error (.invalidVersion raw "'auto' must be resolved against a cluster")
  else
    match h : Semantic.parse (withoutV text.toList) with
    | .error fault => .error (.invalidVersion raw fault.message)
    | .ok _ => .ok ⟨text, by rw [h]; rfl⟩

/-- The name of the archive that an export of the version goes to. -/
def archiveName (v : KubeVersion) : String := s!"kubernetes_e2e_images_{v.text}.tar"

end KubeVersion

/-! ## Asking the cluster -/

/-- A version text without build metadata, which image tags cannot carry; other texts are left as
they are, without the blanks around them. -/
def withoutBuild (raw : String) : String :=
  let text := Text.trim raw.toList
  match Semantic.parse (withoutV text) with
  | .error _ => String.ofList text
  | .ok v =>
    if v.build.isEmpty then String.ofList text
    else
      let v' := Semantic.text { v with build := [] }
      String.ofList (if text.head? = some 'v' then 'v' :: v' else v')

/-- What a version text comes to. -/
inductive Resolution
  | settled (result : Except ResolutionError KubeVersion)
  | asks

namespace Resolution

/-- The meaning of a version text; only `auto` asks the cluster. -/
def ofText (raw : String) : Resolution :=
  if Text.trimmed raw = auto then .asks else .settled (KubeVersion.parse raw)

/-- How often the cluster is asked. -/
def questions : Resolution → Nat
  | settled _ => 0
  | asks => 1

/-- The result, given what the cluster answers when it is asked. -/
def result (cluster : Except Chain String) : Resolution → Except ResolutionError KubeVersion
  | settled r => r
  | asks =>
    match cluster with
    | .error source => .error (.clusterVersion source)
    | .ok answer => KubeVersion.parse (withoutBuild answer)

/-- What is told about the answer of the cluster. -/
def notices (cluster : Except Chain String) : Resolution → List String
  | settled _ => []
  | asks =>
    match cluster with
    | .error _ => []
    | .ok answer =>
      s!"Detected cluster version: {answer}" ::
        if withoutBuild answer = Text.trimmed answer then []
        else [s!"Ignoring build metadata of cluster version {Text.trimmed answer}"]

end Resolution

end ImageRelay
