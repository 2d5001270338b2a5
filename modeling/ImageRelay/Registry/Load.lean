import ImageRelay.Engine.Basic
import ImageRelay.Registry.Catalog

/-!
# Loading image sets

The image set of a version with the overrides of a file, if one is named; an empty path names none.
-/

set_option autoImplicit false

namespace ImageRelay.Catalog

/-- The overrides of a file. -/
def readOverrides (files : Files.Tree) (path : String) : Except ResolutionError Overrides :=
  match files.readText path with
  | .ok content => Overrides.parse content path
  | .error trouble => .error (.overrideFileNotFound path trouble.message)

/-- The image set of a version with the overrides of a file. -/
def load (path : Option String) (v : KubeVersion) (s : Session) :
    Except ResolutionError ImageSet × Session :=
  match path.filter (!·.isEmpty) with
  | none => (build .empty v, s)
  | some path =>
    let s := s.tell (.info s!"Loading registry overrides from {path}")
    match readOverrides s.files path with
    | .error e => (.error e, s)
    | .ok o => (build o v, s.tellAll ((notices o).map .warn))

theorem load_none (v : KubeVersion) (s : Session) : load none v s = (build .empty v, s) := rfl

end ImageRelay.Catalog
