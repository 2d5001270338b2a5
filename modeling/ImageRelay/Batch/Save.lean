import ImageRelay.Archive.Copy
import ImageRelay.Engine.Basic

/-!
# Saving images

All references are exported into one archive. The archive is created before the engine is called,
and an error behind which the token is raised is reported as a cancellation.

## Main definitions
* `save`: the export of references into a file.
-/

set_option autoImplicit false

namespace ImageRelay.Batch

open Archive

/-- What comes of saving images: the size of the archive or an error, and whether the export was
read to its end, if the engine gave one. -/
structure Saved where
  result : Except TransferError Nat
  drained : Option Bool := none

/-- A session with what a copy keeps for it. -/
def absorb {τ : Type} (s : Session) (c : Copy τ) : Session :=
  { s with
    cancelled := c.cancelled
    output := s.output ++ c.output
    history := s.history ++ c.history }

/-- Copies an export into a file that was just created. -/
def saveStream (references : List String) (destination : String) (handle : Files.Tree.Handle)
    (stream : ExportStream) (s : Session) : Saved × Session :=
  let start : Copy FileSink := { sink := .ofHandle handle, cancelled := s.cancelled }
  let (result, c) := (copy FileSink.sink destination stream start).1
  let s : Session := { absorb s c with files := s.files.store handle c.sink.content }
  match result with
  | .ok bytes =>
    (⟨.ok bytes, some c.reachedEnd⟩,
      s.tell (.info s!"Saved {references.length} image(s) ({bytes} bytes) to {destination}"))
  | .error e => (⟨.error (if s.cancelled then .cancelled else e), some c.reachedEnd⟩, s)

/-- Exports references into one archive. -/
def save (w : Surroundings) (references : List String) (destination : String) (s : Session) :
    Saved × Session :=
  if s.cancelled then (⟨.error .cancelled, none⟩, s)
  else
    match s.files.create destination with
    | .error trouble => (⟨.error (.archiveWrite destination trouble.message), none⟩, s)
    | .ok (handle, files) =>
      let s := { s with files }
      match s.request w (.save references) with
      | (.error source, s) =>
        (⟨.error (.engineCall .save (", ".intercalate references) source), none⟩, s)
      | (.ok stream, s) => saveStream references destination handle stream s

end ImageRelay.Batch
