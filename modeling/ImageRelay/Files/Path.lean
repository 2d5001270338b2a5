import ImageRelay.Text.Split

/-!
# Paths

A path is a text whose parts are separated by slashes. Repeated slashes count as one, and a part
`.` behind another part counts as nothing.

## Main definitions
* `Path.parent?`: the path of the directory that a path lies in.
* `Path.join`: a path below another.
-/

set_option autoImplicit false

namespace ImageRelay.Path

/-- Whether a path begins at the root. -/
def isAbsolute (path : String) : Bool := path.toList.head? == some '/'

/-- The parts of a path, the empty ones left out. -/
def parts (path : String) : List String :=
  ((Text.splitAll '/' path.toList).filter (!·.isEmpty)).map String.ofList

/-- Whether a path ends in a slash. -/
def endsInSlash (path : String) : Bool := path.toList.getLast? == some '/'

/-- The path of something in a directory. An absolute path is left as it is. -/
def join (directory name : String) : String :=
  if isAbsolute name || directory.isEmpty then name
  else if endsInSlash directory then directory ++ name
  else directory ++ "/" ++ name

/-- Drops slashes and parts `.` from the end of a reversed path; the root and a first part `.` are
kept. -/
def trimReversed : List Char → List Char
  | '/' :: [] => ['/']
  | '/' :: r => trimReversed r
  | '.' :: '/' :: r => if r.isEmpty then ['/'] else trimReversed r
  | s => s

/-- The directory that a path lies in, empty for a path of one part; the root and the empty path
lie in none. -/
def parent? (path : String) : Option String :=
  match trimReversed path.toList.reverse with
  | [] => none
  | ['/'] => none
  | s => some (String.ofList (trimReversed (s.dropWhile (· != '/'))).reverse)

end ImageRelay.Path
