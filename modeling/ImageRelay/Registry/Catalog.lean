import ImageRelay.Registry.ImageSet
import ImageRelay.Registry.Location
import ImageRelay.Registry.Overrides
import ImageRelay.Version.Kube

/-!
# The built-in images and their overrides

Every image of the table is served from the one built-in registry, which is known by a key and by
its host. An override of an image replaces the place of that image; an override of the registry
replaces the place of all images without one of their own. Image overrides win over registry
overrides, and the tag of every image is the version.

## Main definitions
* `Catalog.table`: the built-in images.
* `Catalog.Routing`: where images are served from, once the overrides are applied.
* `Catalog.build`: the image set of a version under overrides.
-/

set_option autoImplicit false

namespace ImageRelay.Catalog

/-! ## The table -/

/-- A built-in image: its logical name, and its repository on the registry. -/
structure Entry where
  name : String
  repository : String
  deriving Repr, DecidableEq

/-- The key of the built-in registry. -/
def registryKey : String := "gcRegistry"

/-- The host of the built-in registry. -/
def registryHost : String := "k8s.gcr.io"

/-- The built-in images. -/
def table : List Entry :=
  [⟨"conformance", "conformance"⟩,
    ⟨"hyperkube", "hyperkube"⟩,
    ⟨"kube-apiserver", "kube-apiserver"⟩,
    ⟨"kube-controller-manager", "kube-controller-manager"⟩,
    ⟨"kube-proxy", "kube-proxy"⟩,
    ⟨"kube-scheduler", "kube-scheduler"⟩]

/-- Whether a key names a built-in image. -/
def isImage (key : String) : Bool := table.any (·.name == key)

/-- Whether a key names the built-in registry. -/
def isRegistry (key : String) : Bool := key == registryKey || key == registryHost

/-! ## Routing -/

/-- Where images are served from: the registry, and the images with a location of their own. -/
structure Routing where
  registry : Location
  images : List (String × Location)

namespace Routing

/-- The built-in places. -/
def builtIn : Routing := ⟨⟨registryHost.toList, []⟩, []⟩

/-- Applies one override; keys that name neither an image nor the registry change nothing. -/
def override (r : Routing) (entry : String × String) : Except ResolutionError Routing :=
  match Location.parse entry.2 with
  | none => .error (.invalidOverride entry.1 entry.2)
  | some l =>
    if isImage entry.1 then .ok { r with images := Keyed.insert entry.1 l r.images }
    else if isRegistry entry.1 then .ok { r with registry := l }
    else .ok r

/-- Applies the overrides in key order. -/
def ofOverrides (o : Overrides) : Except ResolutionError Routing :=
  o.entries.foldlM override builtIn

/-- The host and repository of an image. -/
def place (r : Routing) (e : Entry) : String × String :=
  match r.images.lookup e.name with
  | some l =>
    (String.ofList l.host, if l.path.isEmpty then e.repository else String.ofList l.path)
  | none => (String.ofList r.registry.host, r.registry.join e.repository)

/-- The image of an entry, tagged with a version. -/
def image (r : Routing) (tag : String) (e : Entry) : Except ResolutionError Image :=
  Image.make e.name (r.place e).1 (r.place e).2 tag

end Routing

/-! ## Image sets -/

/-- The image set of a version under overrides. -/
def build (o : Overrides) (v : KubeVersion) : Except ResolutionError ImageSet := do
  let routing ← Routing.ofOverrides o
  return ImageSet.ofList (← table.mapM (routing.image v.text))

/-- The keys that are ignored because they name neither an image nor the registry; none is looked
at behind an invalid location. -/
def ignoredKeys (o : Overrides) : List String :=
  ((o.entries.takeWhile fun e => (Location.parse e.2).isSome).map (·.1)).filter fun key =>
    !isImage key && !isRegistry key

/-- What is told about ignored keys. -/
def notices (o : Overrides) : List String :=
  (ignoredKeys o).map fun key => s!"Ignoring unknown override '{key}'"

end ImageRelay.Catalog
