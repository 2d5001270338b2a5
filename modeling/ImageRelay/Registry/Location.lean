import ImageRelay.Text.Blank
import ImageRelay.Text.Split

/-!
# Registry locations

Where images are served from: a host and a path on it, written `host` or `host/path`.
-/

set_option autoImplicit false

namespace ImageRelay

/-- A host and a path on it; the path is empty if there is none. -/
structure Location where
  host : List Char
  path : List Char
  deriving Repr, DecidableEq

namespace Location

/-- Reads a location. Blanks around it and slashes at its end are ignored; what is left must have
no blank in it and begin with a host. -/
def parse (value : String) : Option Location :=
  let s := Text.dropTrailing '/' (Text.trim value.toList)
  if s.isEmpty || s.head? == some '/' || s.any Text.isBlank then none
  else some <|
    match Text.splitOnce '/' s with
    | some (host, path) => ⟨host, path⟩
    | none => ⟨s, []⟩

/-- The repository below the path of a location. -/
def join (l : Location) (repository : String) : String :=
  if l.path.isEmpty then repository else String.ofList l.path ++ "/" ++ repository

end Location

end ImageRelay
