import ImageRelay.Engine.Basic

/-!
# The dry-run engine

An engine that tells what it would do, and does nothing. Every call succeeds unless the token is
raised.

## Main definitions
* `DryRun.action`: a call in words.
* `DryRun.engine`: the engine.
-/

set_option autoImplicit false

namespace ImageRelay.DryRun

/-- The line that tells of an action. -/
def told (action : String) : Emission := .line s!"  [DRY RUN] {action}"

/-- A call in words; of the credentials of a push only whether there are any. -/
def action : Call → String
  | .pull r => s!"pull {r}"
  | .tag s t => s!"tag {s} {t}"
  | .push r header => s!"push {r} " ++ if header.isEmpty then "anonymously" else "with credentials"
  | .remove r => s!"remove {r}"
  | .save rs => "save " ++ " ".intercalate rs

/-- The answer to a call. -/
def answer : (c : Call) → c.Answer
  | .pull _ => .ok (.ofList [.ok (.ofStatus "skipped (dry run)")])
  | .push _ _ => .ok .done
  | .tag _ _ => .ok ()
  | .remove _ => .ok []
  | .save _ => .ok .eof

/-- The engine. -/
def engine : Engine := fun _ now =>
  if now.cancelled then
    { answer := now.call.rejected (.root s!"cancelled before: {action now.call}") }
  else { answer := answer now.call, effects := [.tell (told (action now.call))] }

/-- The actions of some requests, in order. -/
def actions (requests : List Request) : List String :=
  (requests.filter (!·.cancelled)).map fun r => action r.call

end ImageRelay.DryRun
