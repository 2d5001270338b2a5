import ImageRelay.Credentials
import ImageRelay.Environment
import ImageRelay.Files.Tree
import ImageRelay.Json.Value

/-!
# Authorization of pushes

An engine reads credentials from a configuration file. For a push the file is made anew in a
throwaway directory: the configuration that the user has, with the credentials as the entry of the
registry, and without anything that would be used in its place.

## Main definitions
* `registryHost`: the registry that a reference belongs to.
* `configuration`: the configuration with credentials for a registry.
-/

set_option autoImplicit false

namespace ImageRelay.Authorization

open Json (Value)

/-! ## Registries -/

/-- The registry that a reference without one belongs to. -/
def implicitHost : String := "docker.io"

/-- Whether the first part of a reference names a registry. -/
def isHost (part : List Char) : Bool :=
  part.contains '.' || part.contains ':' || part == "localhost".toList

/-- The registry that a reference belongs to. -/
def registryHost (reference : String) : String :=
  match Text.splitOnce '/' reference.toList with
  | some (first, _) => if isHost first then String.ofList first else implicitHost
  | none => implicitHost

/-! ## Configurations -/

/-- The fields of a configuration. -/
abbrev Fields : Type := List (String × Value)

/-- The fields of a configuration text; one that is no object has none. -/
def fieldsOf (content : List UInt8) : Fields :=
  match Value.parse content with
  | some (.object fields) => fields
  | _ => []

/-- The text `name:password` in base64. -/
def token (c : Credentials) : String :=
  String.ofList <|
    Base64.encode Base64.standard (Text.Utf8.encode s!"{c.username}:{c.password}")

/-- The entry of a registry. -/
def entry (c : Credentials) : Value := .object [("auth", .string (token c))]

/-- Removes the helper of a registry. -/
def withoutHelper (host : String) (fields : Fields) : Fields :=
  match fields.lookup "credHelpers" with
  | some (.object helpers) =>
    Keyed.insert "credHelpers" (.object (Keyed.erase host helpers)) fields
  | _ => fields

/-- Sets the entry of a registry; entries that are no object are replaced. -/
def withEntry (host : String) (c : Credentials) (fields : Fields) : Fields :=
  let entries := match fields.lookup "auths" with
    | some (.object entries) => entries
    | _ => []
  Keyed.insert "auths" (.object (Keyed.insert host (entry c) entries)) fields

/-- A configuration with credentials for a registry: without the store of all credentials, without
the helper of the registry, and with its entry. -/
def configuration (c : Credentials) (host : String) (fields : Fields) : Fields :=
  withEntry host c (withoutHelper host (Keyed.erase "credsStore" fields))

/-! ## Throwaway directories -/

/-- What is in a throwaway directory: the configuration, and where a link to the contexts of the
user leads, if there are any. -/
structure Directory where
  configuration : Fields
  contexts : Option String := none

/-- What is put into a throwaway directory. -/
inductive Piece
  | configuration
  | contexts
  deriving Repr, DecidableEq

/-- What failed when a piece cannot be put there. -/
def Piece.context : Piece → String
  | configuration => "Failed to write registry auth file"
  | contexts => "Failed to link docker contexts"

/-- The pieces of a directory, in the order in which they are put there. -/
def Directory.pieces (d : Directory) : List Piece :=
  if d.contexts.isSome then [.configuration, .contexts] else [.configuration]

/-- The text of the configuration. -/
def Directory.text (d : Directory) : String := (Value.object d.configuration).text

/-- The directory of the user's own configuration: one that is set, else one in the home
directory. -/
def userDirectory? (e : Environment) : Option String :=
  match (e.get? "DOCKER_CONFIG").filter (!·.isEmpty) with
  | some directory => some directory
  | none => e.home?.map (Path.join · ".docker")

/-- The fields of the configuration in a directory; a file that cannot be read has none. -/
def fieldsIn (files : Files.Tree) (directory : String) : Fields :=
  match files.read (Path.join directory "config.json") with
  | .ok content => fieldsOf content
  | .error _ => []

/-- The throwaway directory for a registry, on the ground of a directory of the user if there is
one. -/
def directory (files : Files.Tree) (base : Option String) (c : Credentials) (host : String) :
    Directory where
  configuration := configuration c host ((base.map (fieldsIn files)).getD [])
  contexts := (base.map (Path.join · "contexts")).filter files.isDirectory

end ImageRelay.Authorization
