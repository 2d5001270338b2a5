import ImageRelay.Console
import ImageRelay.Text.Split

/-!
# What is logged

A filter keeps the log lines up to a level. It comes from a text of directives, in which a level may
be bound to a source of lines, or else from how often more output was asked for.

## Main definitions
* `Threshold.ofVerbosity`: the level of a number of requests for more output.
* `Filter.parse?`, `Filter.threshold`: the directives of a text, and the level of a source.
-/

set_option autoImplicit false

namespace ImageRelay.Logging

/-! ## Levels -/

/-- The most that is logged. -/
inductive Threshold
  | off
  | error
  | warn
  | info
  | debug
  | trace
  deriving Repr, DecidableEq

namespace Threshold

/-- The names of the levels, each with its number. -/
def names : List (String × Threshold) :=
  [("off", off), ("error", error), ("warn", warn), ("info", info), ("debug", debug),
    ("trace", trace)]

/-- The name of a level. -/
def name : Threshold → String
  | off => "off"
  | error => "error"
  | warn => "warn"
  | info => "info"
  | debug => "debug"
  | trace => "trace"

/-- The level of a number of requests for more output. -/
def ofVerbosity : Nat → Threshold
  | 0 => warn
  | 1 => info
  | 2 => debug
  | _ => trace

/-- Whether lines of a level are logged. -/
def allows (t : Threshold) : Level → Bool
  | .error => t != off
  | .warn => t != off && t != error
  | .info => t == info || t == debug || t == trace

/-- The level that a word or number names; the empty word names errors. -/
def parse? (s : List Char) : Option Threshold :=
  let digits := match s with
    | '+' :: r => r
    | _ => s
  if !digits.isEmpty && digits.all Char.isDigit then
    (names[digits.foldl (fun v c => 10 * v + (c.toNat - '0'.toNat)) 0]?).map (·.2)
  else if s.isEmpty then some error
  else names.lookup (String.ofList (s.map Char.toLower))

end Threshold

/-! ## Directives -/

/-- A directive: the sources it is for, by how their names begin, and their level. -/
structure Directive where
  source : List Char
  level : Threshold
  deriving Repr, DecidableEq

/-- The directive of a text: a level for all sources, a source, or both. A directive that is bound
to a span counts for nothing here. -/
def Directive.parse? (s : List Char) : Option (Option Directive) :=
  match s with
  | [] => none
  | c :: _ =>
    if c == '[' || s.contains '[' then some none
    else if !(c.isAlphanum || c == '-' || c == ':' || c == '_') then none
    else
      match Text.splitOnce '=' s with
      | none =>
        match Threshold.parse? s with
        | some level => some (some ⟨[], level⟩)
        | none => some (some ⟨s, .trace⟩)
      | some (source, []) => some (some ⟨source, .trace⟩)
      | some (source, level) => (Threshold.parse? level).map fun l => some ⟨source, l⟩

/-- A filter: its directives. -/
abbrev Filter : Type := List Directive

namespace Filter

/-- The filter of a text; without a directive only errors are logged. -/
def parse? (s : String) : Option Filter := do
  let parts := (Text.splitAll ',' s.toList).filter (!·.isEmpty)
  let directives ← parts.mapM Directive.parse?
  let directives := directives.filterMap id
  return if directives.isEmpty then [⟨[], .error⟩] else directives

/-- The more special of two directives; of two for the same sources the later. -/
def better (a : Option Directive) (b : Directive) : Option Directive :=
  match a with
  | some d => if d.source.length ≤ b.source.length then some b else some d
  | none => some b

/-- The level of a source: that of the most special directive for it. -/
def threshold (f : Filter) (source : String) : Threshold :=
  match (f.filter fun d => d.source.isPrefixOf source.toList).foldl better none with
  | some d => d.level
  | none => .off

/-- The filter of the environment's text, or of the number of requests for more output if there is
no text or it is malformed. -/
def choose (text : Option String) (verbosity : Nat) : Filter :=
  (text.bind parse?).getD [⟨[], .ofVerbosity verbosity⟩]

end Filter

end ImageRelay.Logging
