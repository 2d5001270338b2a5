import ImageRelay.Files.Path

/-!
# The environment of the program

Environment variables, and the directories that they name.
-/

set_option autoImplicit false

namespace ImageRelay

/-- The environment variables, and the home directory of the user's account. -/
structure Environment where
  values : List (String × String)
  accountHome : Option String := none

namespace Environment

/-- The value of a variable. -/
def get? (e : Environment) (name : String) : Option String := e.values.lookup name

/-- The home directory: the one that is set, else the one of the account. -/
def home? (e : Environment) : Option String :=
  match e.get? "HOME" with
  | some "" | none => e.accountHome
  | some home => some home

/-- The directory of configuration files: an absolute one that is set, else one in the home
directory. -/
def configDirectory? (e : Environment) : Option String :=
  match (e.get? "XDG_CONFIG_HOME").filter Path.isAbsolute with
  | some directory => some directory
  | none => e.home?.map (Path.join · ".config")

end Environment

end ImageRelay
