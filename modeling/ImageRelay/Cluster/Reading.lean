import ImageRelay.Cluster.Kubeconfig
import ImageRelay.Failure
import ImageRelay.Files.Tree
import ImageRelay.Text.Utf16

/-!
# Reading kubeconfigs

A kubeconfig file holds any number of documents, which are merged. Paths in it are relative to the
directory of the file. Several files are named by a list of paths, and are merged in its order.

## Main definitions
* `Kubeconfig.readFile`: the kubeconfig of a file.
* `Kubeconfig.readList`: the kubeconfig of a list of paths.
-/

set_option autoImplicit false

namespace ImageRelay.Kubeconfig

/-! ## Files -/

/-- A user whose paths begin in a directory. -/
def User.within (directory : String) (u : User) : User :=
  { u with
    tokenFile := u.tokenFile.map (Path.join directory)
    certificate := u.certificate.map (Path.join directory)
    key := u.key.map (Path.join directory) }

/-- A cluster whose paths begin in a directory. -/
def Cluster.within (directory : String) (c : Cluster) : Cluster :=
  { c with authority := c.authority.map (Path.join directory) }

/-- An entry with its content changed. -/
def Named.map {α : Type} (f : α → α) (e : Named α) : Named α :=
  { e with content := e.content.map f }

/-- A kubeconfig whose paths begin in a directory. -/
def within (directory : String) (k : Kubeconfig) : Kubeconfig :=
  { k with
    clusters := k.clusters.map (Named.map (Cluster.within directory))
    users := k.users.map (Named.map (User.within directory)) }

/-- The kubeconfigs of the documents of a text. -/
def documents (text : String) : Except String (List Kubeconfig) :=
  match Yaml.valuesOf text with
  | .error fault => .error fault.message
  | .ok values =>
    match values.mapM ofValue? with
    | some ks => .ok ks
    | none => .error "malformed kubeconfig"

/-- Merges kubeconfigs in order; none if there are none. -/
def mergeAll : List Kubeconfig → Option (Option Kubeconfig)
  | [] => some none
  | k :: rest => (rest.foldlM merge k).map some

/-- The kubeconfig of a text; one without documents is empty. -/
def ofText (text directory : String) : Except String Kubeconfig :=
  match documents text with
  | .error reason => .error reason
  | .ok ks =>
    match mergeAll (ks.map (within directory)) with
    | some k => .ok (k.getD {})
    | none => .error "kubeconfigs of different kinds"

/-- The kubeconfig of a file. -/
def readFile (files : Files.Tree) (path : String) : Except String Kubeconfig :=
  match files.read path with
  | .error trouble => .error trouble.message
  | .ok bytes =>
    match Text.decodeMarked? bytes with
    | none => .error Files.Trouble.notText.message
    | some text => ofText text ((Path.parent? path).getD "")

/-! ## Lists of files -/

/-- The paths of a list. -/
def pathsOf (list : String) : List String :=
  ((Text.splitAll ':' list.toList).filter (!·.isEmpty)).map String.ofList

/-- Reads a file, with its path for the case that this fails. -/
def readNamed (files : Files.Tree) (path : String) : Except Chain Kubeconfig :=
  match readFile files path with
  | .ok k => .ok k
  | .error reason => .error ((Chain.root reason).within s!"Failed to read kubeconfig {path}")

/-- Adds the files at some paths to a kubeconfig, each read when it is merged. -/
def mergeFiles (files : Files.Tree) : List String → Kubeconfig → Except Chain Kubeconfig
  | [], k => .ok k
  | path :: rest, k =>
    match readNamed files path with
    | .error fault => .error fault
    | .ok next =>
      match merge k next with
      | none =>
        .error <|
          (Chain.root "kubeconfigs of different kinds").within "Failed to merge kubeconfig files"
      | some k => mergeFiles files rest k

/-- The kubeconfig of a list of paths. -/
def readList (files : Files.Tree) (list : String) : Except Chain Kubeconfig :=
  match pathsOf list with
  | [] => .error (.root s!"No kubeconfig file in {list}")
  | path :: rest =>
    match readNamed files path with
    | .error fault => .error fault
    | .ok k => mergeFiles files rest k

end ImageRelay.Kubeconfig
