import ImageRelay.Archive.Sink
import ImageRelay.Engine.Basic

/-!
# Copying an export

An export is copied into a sink and is always read to its end: when writing fails, the rest is read
and dropped, so that the engine can tell of a failure of its own. A failed read is a failure of the
export, a failed write one of the archive; if both fail, the write counts, because it came first.

## Main definitions
* `Copy`: what is known while an export is copied.
* `copy`: the copy, with what is left of the stream.
-/

set_option autoImplicit false

namespace ImageRelay.Archive

/-- A copy in progress: the sink, the number of bytes written, the first failed write, the number
of reads, whether one of them gave nothing, the token, what was told, and what of all this a session
keeps. -/
structure Copy (τ : Type) where
  sink : τ
  written : Nat := 0
  failure : Option String := none
  reads : Nat := 0
  reachedEnd : Bool := false
  cancelled : Bool := false
  output : List Emission := []
  history : List Moment := []

namespace Copy

variable {τ : Type}

/-- Tells several things in order. -/
def tellAll (c : Copy τ) (es : List Emission) : Copy τ :=
  { c with output := c.output ++ es, history := c.history ++ es.map .told }

/-- Raises the token. -/
def interrupt (c : Copy τ) (i : Interrupt) : Copy τ :=
  ({ c with cancelled := true, history := c.history ++ [.raised i] } : Copy τ).tellAll
    (i.emissions c.cancelled)

/-- Takes the bytes of a read; they are written as long as no write failed. -/
def take (s : Sink τ) (path : String) (chunk : List UInt8) (c : Copy τ) : Copy τ :=
  match c.failure with
  | some _ => c
  | none =>
    match s.writeAll c.sink chunk with
    | (none, t) => { c with sink := t, written := c.written + chunk.length }
    | (some reason, t) =>
      ({ c with sink := t, failure := some reason } : Copy τ).tellAll
        [.warn s!"Writing {path} failed, draining the export stream"]

/-- The end of the stream: the sink is flushed if no write failed. -/
def finish (s : Sink τ) (path : String) (c : Copy τ) : Except TransferError Nat × Copy τ :=
  match c.failure with
  | some reason => (.error (.archiveWrite path reason), c)
  | none =>
    match s.flush c.sink with
    | (.ok (), t) => (.ok c.written, { c with sink := t })
    | (.error reason, t) => (.error (.archiveWrite path reason), { c with sink := t })

/-- A failed read. -/
def readFailed (path : String) (fault : Chain) (c : Copy τ) : Except TransferError Nat × Copy τ :=
  match c.failure with
  | some reason =>
    (.error (.archiveWrite path reason),
      c.tellAll [.warn s!"Export stream also failed: {fault.top}"])
  | none => (.error (.streamDrain fault.top), c)

end Copy

/-- Copies a stream into a sink; `path` names the archive in errors. A read without bytes ends the
stream. The last component is what is left of it. -/
def copy {τ : Type} (s : Sink τ) (path : String) :
    ExportStream → Copy τ → (Except TransferError Nat × Copy τ) × ExportStream
  | .eof, c => (({ c with reads := c.reads + 1, reachedEnd := true } : Copy τ).finish s path, .eof)
  | .bytes [] rest, c =>
    (({ c with reads := c.reads + 1, reachedEnd := true } : Copy τ).finish s path, rest)
  | .bytes chunk rest, c => copy s path rest ({ c with reads := c.reads + 1 }.take s path chunk)
  | .interrupted rest, c => copy s path rest { c with reads := c.reads + 1 }
  | .failed fault rest, c => (Copy.readFailed path fault { c with reads := c.reads + 1 }, rest)
  | .interrupt i rest, c => copy s path rest (c.interrupt i)
  | .poll live cancelled, c => if c.cancelled then copy s path cancelled c else copy s path live c

end ImageRelay.Archive
