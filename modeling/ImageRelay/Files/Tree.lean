import ImageRelay.Files.Path
import ImageRelay.Text.Utf8

/-!
# File trees

The part of a file system that the program reads and writes: directories, regular files and the two
devices that an archive may go to. A path is walked from the root or from the working directory,
part by part, as the system does it, so that each trouble arises where the system finds it.

## Main definitions
* `Tree`, `Tree.walk`: the tree, and what a path leads to.
* `Tree.read`, `Tree.create`, `Tree.write`, `Tree.createDirectories`, `Tree.remove`: access.
* `Trouble`: why an access fails.
-/

set_option autoImplicit false

namespace ImageRelay.Files

/-! ## Trees -/

/-- A place: the names on the way from the root. -/
abbrev Place : Type := List String

/-- A device: one that takes and gives nothing, and one that is always full. -/
inductive Device
  | null
  | full
  deriving Repr, DecidableEq

/-- What is at a place. -/
inductive Entry
  | directory
  | file (content : List UInt8) (executable : Bool)
  | device (kind : Device)
  deriving DecidableEq

/-- A file tree, without its root, which is always a directory. -/
structure Tree where
  entries : List (Place × Entry)
  workdir : Place

/-- Why an access fails. -/
inductive Trouble
  | denied
  | notFound
  | exists
  | notDirectory
  | isDirectory
  | noSpace
  | nameTooLong
  | nulInPath
  | notText
  deriving Repr, DecidableEq

/-- The text of a trouble. -/
def Trouble.message : Trouble → String
  | denied => "Permission denied (os error 13)"
  | notFound => "No such file or directory (os error 2)"
  | .exists => "File exists (os error 17)"
  | notDirectory => "Not a directory (os error 20)"
  | isDirectory => "Is a directory (os error 21)"
  | noSpace => "No space left on device (os error 28)"
  | nameTooLong => "File name too long (os error 36)"
  | nulInPath => "file name contained an unexpected NUL byte"
  | notText => "stream did not contain valid UTF-8"

namespace Tree

/-- What is at a place. -/
def entry? (t : Tree) (place : Place) : Option Entry :=
  if place.isEmpty then some .directory else t.entries.lookup place

/-- Puts an entry at a place, instead of the one that is there. -/
def put (t : Tree) (place : Place) (e : Entry) : Tree :=
  { t with entries := (place, e) :: t.entries.filter (·.1 != place) }

/-- Takes the entry at a place away. -/
def drop (t : Tree) (place : Place) : Tree :=
  { t with entries := t.entries.filter (·.1 != place) }

/-- The names in a directory, sorted. -/
def names (t : Tree) (place : Place) : List String :=
  (t.entries.filterMap fun (p, _) =>
    if p.length = place.length + 1 && p.dropLast = place then p.getLast? else none).mergeSort

/-! ## Walking -/

/-- What a path leads to: an entry, or a free place in a directory. -/
inductive Target
  | found (place : Place) (entry : Entry)
  | free (place : Place)

/-- Walks the parts of a path from a directory. -/
def walkFrom (t : Tree) : Place → List String → Except Trouble Target
  | place, [] =>
    match t.entry? place with
    | some e => .ok (.found place e)
    | none => .error .notFound
  | place, part :: rest =>
    match t.entry? place with
    | none => .error .notFound
    | some .directory =>
      if part.utf8ByteSize > 255 then .error .nameTooLong
      else if part = "." then walkFrom t place rest
      else if part = ".." then walkFrom t place.dropLast rest
      else
        let next := place ++ [part]
        if rest.isEmpty && (t.entry? next).isNone then .ok (.free next) else walkFrom t next rest
    | some _ => .error .notDirectory

/-- What a path leads to. A path that ends in a slash leads to a directory or to a free place. -/
def walk (t : Tree) (path : String) : Except Trouble Target :=
  if path.toList.contains '\x00' then .error .nulInPath
  else if path.isEmpty then .error .notFound
  else if path.utf8ByteSize ≥ 4096 then .error .nameTooLong
  else
    match t.walkFrom (if Path.isAbsolute path then [] else t.workdir) (Path.parts path) with
    | .ok (.found place e) =>
      if Path.endsInSlash path && e != .directory then .error .notDirectory
      else .ok (.found place e)
    | r => r

/-- Whether a path leads to something. -/
def exists? (t : Tree) (path : String) : Bool :=
  match t.walk path with
  | .ok (.found ..) => true
  | _ => false

/-- Whether a path leads to a directory. -/
def isDirectory (t : Tree) (path : String) : Bool :=
  match t.walk path with
  | .ok (.found _ .directory) => true
  | _ => false

/-- The place that a path leads to, if there is something. -/
def place? (t : Tree) (path : String) : Option Place :=
  match t.walk path with
  | .ok (.found place _) => some place
  | _ => none

/-! ## Access -/

/-- The bytes of a file. -/
def read (t : Tree) (path : String) : Except Trouble (List UInt8) :=
  match t.walk path with
  | .ok (.found _ (.file content _)) => .ok content
  | .ok (.found _ (.device _)) => .ok []
  | .ok (.found _ .directory) => .error .isDirectory
  | .ok (.free _) => .error .notFound
  | .error e => .error e

/-- The text of a file. -/
def readText (t : Tree) (path : String) : Except Trouble String :=
  match t.read path with
  | .ok bytes =>
    match Text.Utf8.decode? bytes with
    | some s => .ok s
    | none => .error .notText
  | .error e => .error e

/-- Where written bytes go. -/
inductive Handle
  | file (place : Place) (executable : Bool)
  | device (kind : Device)

/-- Creates a file or empties the one that is there. -/
def create (t : Tree) (path : String) : Except Trouble (Handle × Tree) :=
  match t.walk path with
  | .ok (.found place (.file _ x)) => .ok (.file place x, t.put place (.file [] x))
  | .ok (.found _ (.device kind)) => .ok (.device kind, t)
  | .ok (.found _ .directory) => .error .isDirectory
  | .ok (.free place) =>
    if Path.endsInSlash path then .error .isDirectory
    else .ok (.file place false, t.put place (.file [] false))
  | .error e => .error e

/-- Sets the bytes of a file that was created. -/
def store (t : Tree) (h : Handle) (content : List UInt8) : Tree :=
  match h with
  | .file place x => t.put place (.file content x)
  | .device _ => t

/-- Writes a whole file. -/
def write (t : Tree) (path : String) (content : List UInt8) : Except Trouble Tree :=
  match t.create path with
  | .error e => .error e
  | .ok (.device .full, t) => if content.isEmpty then .ok t else .error .noSpace
  | .ok (h, t) => .ok (t.store h content)

/-- Creates one directory. -/
def createDirectory (t : Tree) (path : String) : Except Trouble Tree :=
  match t.walk path with
  | .ok (.found ..) => .error .exists
  | .ok (.free place) => .ok (t.put place .directory)
  | .error e => .error e

/-- Creates a directory and the missing ones on the way to it; what was created stays when a later
one fails. The number bounds the parts. -/
def createDirectoriesFrom : Nat → Tree → String → Except Trouble Unit × Tree
  | 0, t, _ => (.error .notFound, t)
  | n + 1, t, path =>
    if path.isEmpty then (.ok (), t)
    else
      match t.createDirectory path with
      | .ok t => (.ok (), t)
      | .error .notFound =>
        match Path.parent? path with
        | none => (.error .notFound, t)
        | some parent =>
          match createDirectoriesFrom n t parent with
          | (.error e, t) => (.error e, t)
          | (.ok (), t) =>
            match t.createDirectory path with
            | .ok t => (.ok (), t)
            | .error e => (if t.isDirectory path then .ok () else .error e, t)
      | .error e => (if t.isDirectory path then .ok () else .error e, t)

/-- Creates a directory and the missing ones on the way to it. -/
def createDirectories (t : Tree) (path : String) : Except Trouble Unit × Tree :=
  createDirectoriesFrom (path.length + 1) t path

/-- Removes a file. -/
def remove (t : Tree) (path : String) : Except Trouble Tree :=
  match t.walk path with
  | .ok (.found _ .directory) => .error .isDirectory
  | .ok (.found place _) => .ok (t.drop place)
  | .ok (.free _) => .error .notFound
  | .error e => .error e

/-- Whether a path leads to a file that can be run as a program. -/
def isProgram (t : Tree) (path : String) : Bool :=
  match t.walk path with
  | .ok (.found _ (.file _ true)) => true
  | _ => false

end Tree

end ImageRelay.Files
