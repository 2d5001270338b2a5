import ImageRelay.Duration
import ImageRelay.Toml.Document
import ImageRelay.Toml.Writer

/-!
# Settings

What a settings file can set. A file sets what it names; the rest keeps its default, whichever way
it is missing. A section is a table, or an array of its fields in order.

Defaults stand in two places: a section that is missing is the section `{}`, and a field that is
missing in a section has the default that is read for it.

## Main definitions
* `Settings`: the settings with their defaults.
* `Settings.parse?`: the settings of a text.
* `Settings.text`: a text that sets all of them.
-/

set_option autoImplicit false

namespace ImageRelay

namespace Settings

/-! ## Sections -/

def defaultKubernetesVersion : String := "auto"

def defaultPlugin : String := "e2e"

def defaultTrue : Bool := true

def defaultRetryBackoffSecs : UInt64 := 2

/-- Values for command-line options that are not given. The version may be `auto`. -/
structure Defaults where
  kubernetesVersion : String := defaultKubernetesVersion
  plugin : String := defaultPlugin
  overrideFile : Option String := none
  deriving Repr, DecidableEq

/-- The container engine; it is detected when none is set. -/
structure EngineChoice where
  runtime : Option String := none
  deriving Repr, DecidableEq

/-- How the program behaves. -/
structure Behavior where
  confirmDestructive : Bool := defaultTrue
  showProgress : Bool := defaultTrue
  deriving Repr, DecidableEq

/-- How failed pushes are repeated. -/
structure PushPolicy where
  retries : UInt32 := 0
  retryBackoffSecs : UInt64 := defaultRetryBackoffSecs
  deriving Repr, DecidableEq

/-- The wait before the first repetition. -/
def PushPolicy.backoff (p : PushPolicy) : Duration := .ofSeconds p.retryBackoffSecs.toNat

end Settings

/-- The settings. -/
structure Settings where
  defaults : Settings.Defaults := {}
  engine : Settings.EngineChoice := {}
  behavior : Settings.Behavior := {}
  push : Settings.PushPolicy := {}
  deriving Repr, DecidableEq

namespace Settings

open Toml (Value Entries)

/-! ## Reading -/

/-- The values of named fields: of a table by their names, where the other entries only have to be
within the limits, and of an array in order. A point in time counts as an empty table. -/
def fields? (names : List String) : Value → Option (List (Option Value))
  | .table _ entries =>
    if Value.entriesFit (entries.filter fun e => !names.contains e.1) then
      some (names.map fun n => entries.lookup n)
    else none
  | .array items _ => some ((List.range names.length).map (items[·]?))
  | .datetime => some (names.map fun _ => none)
  | _ => none

/-- A text. -/
def text? : Value → Option String
  | .string s => some s
  | _ => none

/-- A truth value. -/
def boolean? : Value → Option Bool
  | .boolean b => some b
  | _ => none

/-- A natural number below a bound. -/
def below? (bound : Nat) : Value → Option Nat
  | .integer (.ofNat n) => if n < bound then some n else none
  | _ => none

/-- A field that is read with `read`, or its default if it is missing. -/
def field? {α : Type} (fallback : α) (read : Value → Option α) : Option Value → Option α
  | none => some fallback
  | some v => read v

/-- A section that is read with `read`, or its default if it is missing. -/
def section? {α : Type} (fallback : α) (names : List String)
    (read : List (Option Value) → Option α) : Option Value → Option α
  | none => some fallback
  | some v => (fields? names v).bind read

/-- The section of defaults. -/
def Defaults.read? : List (Option Value) → Option Defaults
  | [v, p, o] => do
    return {
      kubernetesVersion := ← field? defaultKubernetesVersion text? v
      plugin := ← field? defaultPlugin text? p
      overrideFile := ← field? default (fun x => (text? x).map some) o }
  | _ => none

/-- The section of the engine. -/
def EngineChoice.read? : List (Option Value) → Option EngineChoice
  | [r] => do
    return { runtime := ← field? default (fun x => (text? x).map some) r }
  | _ => none

/-- The section of the behavior. -/
def Behavior.read? : List (Option Value) → Option Behavior
  | [c, s] => do
    return {
      confirmDestructive := ← field? defaultTrue boolean? c
      showProgress := ← field? defaultTrue boolean? s }
  | _ => none

/-- The section of pushes. -/
def PushPolicy.read? : List (Option Value) → Option PushPolicy
  | [r, b] => do
    return {
      retries := ← field? default (fun x => (below? UInt32.size x).map UInt32.ofNat) r
      retryBackoffSecs :=
        ← field? defaultRetryBackoffSecs (fun x => (below? UInt64.size x).map UInt64.ofNat) b }
  | _ => none

/-- The settings of a table. -/
def ofEntries? (root : Entries) : Option Settings := do
  let values ← fields? ["defaults", "engine", "behavior", "push"] (.table .header root)
  match values with
  | [defaults, engine, behavior, push] =>
    return {
      defaults := ← section? {} ["kubernetes_version", "plugin", "override_file"]
        Defaults.read? defaults
      engine := ← section? {} ["runtime"] EngineChoice.read? engine
      behavior := ← section? {} ["confirm_destructive", "show_progress"] Behavior.read? behavior
      push := ← section? {} ["retries", "retry_backoff_secs"] PushPolicy.read? push }
  | _ => none

/-- The settings of a text. -/
def parse? (text : String) : Option Settings := (Toml.parse? text).bind ofEntries?

/-! ## Writing -/

/-- A truth value as it is written. -/
def booleanText (b : Bool) : String := if b then "true" else "false"

/-- A text that sets everything that is set. -/
def text (s : Settings) : String :=
  let optional (name : String) (v : Option String) : List (String × String) :=
    match v with
    | some v => [(name, Toml.stringText v)]
    | none => []
  "\n".intercalate
    [Toml.tableText "defaults" <|
        [("kubernetes_version", Toml.stringText s.defaults.kubernetesVersion),
          ("plugin", Toml.stringText s.defaults.plugin)] ++
        optional "override_file" s.defaults.overrideFile,
      Toml.tableText "engine" (optional "runtime" s.engine.runtime),
      Toml.tableText "behavior"
        [("confirm_destructive", booleanText s.behavior.confirmDestructive),
          ("show_progress", booleanText s.behavior.showProgress)],
      Toml.tableText "push"
        [("retries", toString s.push.retries.toNat),
          ("retry_backoff_secs", toString s.push.retryBackoffSecs.toNat)]]

/-- The text of an example file: a comment and the default settings. -/
def exampleText : String :=
  "# conformance-images configuration file\n" ++
    "# Place this file at ~/.config/conformance-images/config.toml or " ++
    ".conformance-images.toml in your project\n\n" ++ ({} : Settings).text

end Settings

end ImageRelay
