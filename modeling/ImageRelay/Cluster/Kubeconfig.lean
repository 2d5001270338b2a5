import ImageRelay.Yaml.Value

/-!
# Kubeconfigs

A kubeconfig names clusters, users and contexts, and the context that is current. Configurations
are merged entry by entry: what an earlier one says stays, and a later one adds what is missing.

## Main definitions
* `Kubeconfig.ofValue?`: the kubeconfig of a document.
* `Kubeconfig.merge`: two kubeconfigs as one, unless they are of different kinds.
-/

set_option autoImplicit false

namespace ImageRelay

namespace Kubeconfig

/-- How a cluster is reached. -/
structure Cluster where
  server : Option String := none
  authority : Option String := none
  authorityData : Option String := none
  proxy : Option String := none
  deriving Repr, DecidableEq

/-- How a user is known; of credentials from elsewhere only whether there are any. -/
structure User where
  username : Option String := none
  password : Option String := none
  token : Option String := none
  tokenFile : Option String := none
  certificate : Option String := none
  certificateData : Option String := none
  key : Option String := none
  keyData : Option String := none
  hasProvider : Bool := false
  hasCommand : Bool := false
  deriving Repr, DecidableEq

/-- A cluster and a user that belong together. -/
structure Context where
  cluster : String
  user : Option String := none
  deriving Repr, DecidableEq

/-- An entry with a name; it may have no content. -/
structure Named (α : Type) where
  name : String
  content : Option α
  deriving Repr, DecidableEq

end Kubeconfig

/-- A kubeconfig. -/
structure Kubeconfig where
  clusters : List (Kubeconfig.Named Kubeconfig.Cluster) := []
  users : List (Kubeconfig.Named Kubeconfig.User) := []
  contexts : List (Kubeconfig.Named Kubeconfig.Context) := []
  currentContext : Option String := none
  kind : Option String := none
  apiVersion : Option String := none
  deriving Repr, DecidableEq

namespace Kubeconfig

open Yaml (Value)

/-! ## Fields -/

/-- The fields of a mapping whose keys are texts; nothing is a mapping without fields. -/
def fields? : Value → Option (List (String × Value))
  | .null => some []
  | .mapping entries =>
    entries.mapM fun
      | (.string k, v) => some (k, v)
      | _ => none
  | _ => none

/-- A text. -/
def text? : Value → Option String
  | .string s => some s
  | _ => none

/-- A truth value. -/
def bool? : Value → Option Bool
  | .bool b => some b
  | _ => none

/-- A list; nothing is an empty one. -/
def list? {α : Type} (read : Value → Option α) : Value → Option (List α)
  | .null => some []
  | .sequence items => items.mapM read
  | _ => none

/-- A mapping of texts to texts. -/
def texts? (v : Value) : Option (List (String × String)) := do
  (← fields? v).mapM fun (k, v) => (text? v).map (k, ·)

/-- A field that may be missing or nothing. -/
def optional? {α : Type} (fields : List (String × Value)) (name : String)
    (read : Value → Option α) : Option (Option α) :=
  match fields.lookup name with
  | none | some .null => some none
  | some v => (read v).map some

/-- A field that has to be there. -/
def required? {α : Type} (fields : List (String × Value)) (name : String)
    (read : Value → Option α) : Option α :=
  (fields.lookup name).bind read

/-! ## Extensions -/

/-- Whether all keys in a value nested at most `depth` deep are texts. -/
def hasTextKeys : Nat → Value → Bool
  | 0, _ => true
  | depth + 1, .sequence items => items.all (hasTextKeys depth)
  | depth + 1, .mapping entries =>
    entries.all fun (k, v) => (text? k).isSome && hasTextKeys depth v
  | _, _ => true

/-- Whether a value is an extension: a name, and any value whose keys are texts. -/
def extension? (v : Value) : Option Unit := do
  let fields ← fields? v
  let _ ← required? fields "name" text?
  let content ← fields.lookup "extension"
  if hasTextKeys Yaml.maxNesting content then some () else none

/-- Whether the extensions of some fields are well formed. -/
def extensions? (fields : List (String × Value)) : Option Unit :=
  (optional? fields "extensions" (list? extension?)).map fun _ => ()

/-! ## Entries -/

/-- A cluster. -/
def Cluster.ofValue? (v : Value) : Option Cluster := do
  let f ← fields? v
  let _ ← optional? f "insecure-skip-tls-verify" bool?
  let _ ← optional? f "disable-compression" bool?
  let _ ← optional? f "tls-server-name" text?
  extensions? f
  return {
    server := ← optional? f "server" text?
    authority := ← optional? f "certificate-authority" text?
    authorityData := ← optional? f "certificate-authority-data" text?
    proxy := ← optional? f "proxy-url" text? }

/-- Whether a value is a provider of credentials: a name and settings. -/
def provider? (v : Value) : Option Unit := do
  let f ← fields? v
  let _ ← required? f "name" text?
  let _ ← match f.lookup "config" with
    | none => some []
    | some c => texts? c
  return ()

/-- Whether a value is a command that gives credentials. -/
def command? (v : Value) : Option Unit := do
  let f ← fields? v
  let _ ← optional? f "apiVersion" text?
  let _ ← optional? f "command" text?
  let _ ← optional? f "args" (list? text?)
  let _ ← optional? f "env" (list? texts?)
  let mode ← optional? f "interactiveMode" text?
  let known := mode.all fun m => ["Never", "IfAvailable", "Always"].contains m
  let _ ← match f.lookup "provideClusterInfo" with
    | none => some false
    | some b => bool? b
  if known then some () else none

/-- A user. -/
def User.ofValue? (v : Value) : Option User := do
  let f ← fields? v
  let _ ← optional? f "as" text?
  let _ ← optional? f "as-groups" (list? text?)
  return {
    username := ← optional? f "username" text?
    password := ← optional? f "password" text?
    token := ← optional? f "token" text?
    tokenFile := ← optional? f "tokenFile" text?
    certificate := ← optional? f "client-certificate" text?
    certificateData := ← optional? f "client-certificate-data" text?
    key := ← optional? f "client-key" text?
    keyData := ← optional? f "client-key-data" text?
    hasProvider := (← optional? f "auth-provider" provider?).isSome
    hasCommand := (← optional? f "exec" command?).isSome }

/-- A context. -/
def Context.ofValue? (v : Value) : Option Context := do
  let f ← fields? v
  let _ ← optional? f "namespace" text?
  extensions? f
  return { cluster := ← required? f "cluster" text?, user := ← optional? f "user" text? }

/-- An entry with a name, whose content is the field `name`. -/
def Named.ofValue? {α : Type} (name : String) (read : Value → Option α) (v : Value) :
    Option (Named α) := do
  let f ← fields? v
  return { name := ← required? f "name" text?, content := ← optional? f name read }

/-- The entries of a field; a missing field has none. -/
def entries? {α : Type} (fields : List (String × Value)) (field name : String)
    (read : Value → Option α) : Option (List (Named α)) :=
  (optional? fields field (list? (Named.ofValue? name read))).map (·.getD [])

/-- Whether preferences are well formed. -/
def preferences? (v : Value) : Option Unit := do
  let f ← fields? v
  let _ ← optional? f "colors" bool?
  extensions? f

/-- The kubeconfig of a document. -/
def ofValue? (v : Value) : Option Kubeconfig := do
  let f ← fields? v
  let _ ← optional? f "preferences" preferences?
  extensions? f
  return {
    clusters := ← entries? f "clusters" "cluster" Cluster.ofValue?
    users := ← entries? f "users" "user" User.ofValue?
    contexts := ← entries? f "contexts" "context" Context.ofValue?
    currentContext := ← optional? f "current-context" text?
    kind := ← optional? f "kind" text?
    apiVersion := ← optional? f "apiVersion" text? }

/-! ## Merging -/

/-- The entry with a name; of several the first counts. -/
def find? {α : Type} (name : String) (entries : List (Named α)) : Option (Named α) :=
  entries.find? (·.name == name)

/-- The entries of one list and those of another whose names are new. -/
def append {α : Type} (first next : List (Named α)) : List (Named α) :=
  first ++ next.filter fun e => (find? e.name first).isNone

/-- Whether two settings do not contradict each other. -/
def agree (a b : Option String) : Bool := a.isNone || b.isNone || a == b

/-- Two kubeconfigs as one; what the first says stays. They have to agree in their kind and
version. -/
def merge (first next : Kubeconfig) : Option Kubeconfig :=
  if agree first.kind next.kind && agree first.apiVersion next.apiVersion then
    some {
      clusters := append first.clusters next.clusters
      users := append first.users next.users
      contexts := append first.contexts next.contexts
      currentContext := first.currentContext.or next.currentContext
      kind := first.kind.or next.kind
      apiVersion := first.apiVersion.or next.apiVersion }
  else none

end Kubeconfig

end ImageRelay
