import ImageRelay.Environment
import ImageRelay.Files.Tree

/-!
# Where programs are found

A program is named by a path, or looked for in the directories of the search path, of which an
empty one is the working directory.

## Main definitions
* `isInstalled`: whether a program can be found.
* `launch`: why a program cannot be started.
-/

set_option autoImplicit false

namespace ImageRelay.Program

/-- The directories of the search path. -/
def searchPath (e : Environment) : List String :=
  match e.get? "PATH" with
  | some list => (Text.splitAll ':' list.toList).map String.ofList
  | none => ["/bin", "/usr/bin"]

/-- The paths at which a program may be. -/
def candidates (e : Environment) (name : String) : List String :=
  if name.toList.contains '/' then [name] else (searchPath e).map (Path.join · name)

/-- Whether a program can be found. -/
def isInstalled (e : Environment) (files : Files.Tree) (name : String) : Bool :=
  (candidates e name).any files.isProgram

/-- Starts a program; what is found and is no program is denied. -/
def launch (e : Environment) (files : Files.Tree) (name : String) : Except Files.Trouble Unit :=
  if isInstalled e files name then .ok ()
  else if (candidates e name).any files.exists? then .error .denied
  else .error .notFound

end ImageRelay.Program
