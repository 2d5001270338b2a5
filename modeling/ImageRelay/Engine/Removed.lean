import ImageRelay.Text.Blank
import ImageRelay.Text.Split

/-!
# Removed images

What the removal of a reference did to the images of an engine. While other references still point
to the content it is only untagged; with the last reference it is deleted.

## Main definitions
* `Removed.ofOutput`: the removals that an engine tells of.
-/

set_option autoImplicit false

namespace ImageRelay

/-- One effect of a removal. -/
structure Removed where
  untagged : Option String := none
  deleted : Option String := none
  deriving Repr, DecidableEq

namespace Removed

/-- The effect that a line tells of, `Untagged: <reference>` or `Deleted: <id>`. -/
def ofLine? (line : List Char) : Option Removed :=
  match Text.splitOnce ':' (Text.trim line) with
  | none => none
  | some (kind, value) =>
    let kind := Text.trim kind
    let value := String.ofList (Text.trim value)
    if kind = "Untagged".toList then some { untagged := some value }
    else if kind = "Deleted".toList then some { deleted := some value }
    else none

/-- The effects that the output of an engine tells of; other lines are ignored. -/
def ofOutput (output : String) : List Removed :=
  (Text.lines '\n' '\r' output.toList).filterMap ofLine?

end Removed

end ImageRelay
