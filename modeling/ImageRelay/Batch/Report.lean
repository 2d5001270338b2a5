import ImageRelay.Console
import ImageRelay.Engine.Removed
import ImageRelay.Failure

/-!
# Batch reports

What became of every image of a batch, in the order in which the images were processed.

## Main definitions
* `Report.check`: whether the batch as a whole succeeded.
* `Report.summary`: the lines that show a report.
-/

set_option autoImplicit false

namespace ImageRelay

/-- What became of one image. -/
inductive Outcome
  | done
  | removed (items : List Removed)
  | failed (error : TransferError)
  deriving Repr, DecidableEq

/-- The entry of one image. The operation is the step that the outcome belongs to: an image whose
tag failed is reported with the tag. -/
structure ImageResult where
  name : String
  reference : String
  operation : Operation
  outcome : Outcome
  deriving Repr, DecidableEq

namespace ImageResult

/-- The error of a failed image. -/
def error? (r : ImageResult) : Option TransferError :=
  match r.outcome with
  | .failed e => some e
  | _ => none

/-- Whether the image did not fail. -/
def isSuccess (r : ImageResult) : Bool := r.error?.isNone

end ImageResult

/-- The report of a batch; `cancelled` tells that it stopped early. -/
structure Report where
  operation : Operation
  results : List ImageResult
  cancelled : Bool
  deriving Repr, DecidableEq

namespace Report

/-- The number of failed images. -/
def failures (r : Report) : Nat := r.results.countP (!·.isSuccess)

/-- The number of images that did not fail. -/
def successes (r : Report) : Nat := r.results.length - r.failures

/-- Whether the batch succeeded: it did not stop early, and no image failed. -/
def check (r : Report) : Except TransferError Unit :=
  if r.cancelled then .error .cancelled
  else if r.failures = 0 then .ok ()
  else .error (.batchFailed r.operation r.failures r.results.length)

/-- The report in one line. -/
def text (r : Report) : String :=
  s!"{r.operation.name} completed with {r.failures} failure(s): {r.successes} of " ++
    s!"{r.results.length} image(s) succeeded" ++ if r.cancelled then " (cancelled)" else ""

/-- The lines of one image: a mark and its reference, then what was removed. -/
def entryLines (r : ImageResult) : List String :=
  match r.outcome with
  | .failed e => [s!"✗ {r.reference}: {e.message}"]
  | .done => [s!"✓ {r.reference}"]
  | .removed items =>
    s!"✓ {r.reference}" :: items.flatMap fun i =>
      (i.untagged.toList.map fun u => s!"    Untagged: {u}") ++
        i.deleted.toList.map fun d => s!"    Deleted: {d}"

/-- The lines that show a report. -/
def summary (r : Report) : List String :=
  r.results.flatMap entryLines ++ if r.cancelled then ["Interrupted"] else []

/-- What is told at the end of a batch. -/
def closing (r : Report) : Emission :=
  if r.cancelled then
    .warn s!"{r.operation.name} cancelled after {r.results.length} image(s)"
  else .info r.text

end Report

end ImageRelay
