import ImageRelay.Files.Tree

/-!
# Sinks

Where the bytes of an archive go. A sink takes some or all of the bytes of a write, or fails; a
write that is interrupted is made again.

## Main definitions
* `Sink`, `Sink.writeAll`: a sink, and writes until all bytes are taken.
* `FileSink`: a file behind a buffer.
-/

set_option autoImplicit false

namespace ImageRelay.Archive

/-- What comes of a write. -/
inductive Answer
  | accepted (count : Nat)
  | failed (reason : String)
  deriving Repr, DecidableEq

/-- A write with the interruptions before it. -/
inductive Attempt
  | settled (answer : Answer)
  | interrupted (again : Attempt)
  deriving Repr

/-- What comes of a write once it is not interrupted. -/
def Attempt.answer : Attempt → Answer
  | settled a => a
  | interrupted again => again.answer

/-- A sink with states in `τ`. -/
structure Sink (τ : Type) where
  write : τ → List UInt8 → Attempt × τ
  flush : τ → Except String Unit × τ

/-- Writes until all bytes are taken or a write fails, and gives the reason of the failure. A write
that takes nothing is a failure. -/
def Sink.writeAll {τ : Type} (s : Sink τ) (t : τ) (bytes : List UInt8) : Option String × τ :=
  if _h : bytes = [] then (none, t)
  else
    match s.write t bytes with
    | (attempt, t) =>
      match attempt.answer with
      | .failed reason => (some reason, t)
      | .accepted 0 => (some "failed to write whole buffer", t)
      | .accepted (n + 1) => writeAll s t (bytes.drop (n + 1))
termination_by bytes.length
decreasing_by
  have : 0 < bytes.length := List.length_pos_iff.2 _h
  simp only [List.length_drop]
  omega

/-! ## Files -/

/-- A file behind a buffer: the pieces that were written to it, the latest first, and what waits. -/
structure FileSink where
  handle : Files.Tree.Handle
  stored : List (List UInt8)
  buffer : List UInt8

namespace FileSink

/-- How many bytes wait at most. -/
def capacity : Nat := 8192

/-- A file that was just created. -/
def ofHandle (handle : Files.Tree.Handle) : FileSink := ⟨handle, [], []⟩

/-- Writes bytes to the file itself; a full device takes none. -/
def put (f : FileSink) (bytes : List UInt8) : Except String FileSink :=
  match f.handle with
  | .device .full => .error Files.Trouble.noSpace.message
  | _ => .ok { f with stored := bytes :: f.stored }

/-- Writes what waits. -/
def settle (f : FileSink) : Except String FileSink :=
  if f.buffer.isEmpty then .ok f
  else (f.put f.buffer).map fun f => { f with buffer := [] }

/-- Writes bytes: into the buffer if they fit, else to the file behind what waits. -/
def write (f : FileSink) (bytes : List UInt8) : Except String FileSink :=
  let spare := capacity - f.buffer.length
  if bytes.length < spare then .ok { f with buffer := f.buffer ++ bytes }
  else do
    let f ← if bytes.length > spare then f.settle else .ok f
    if bytes.length ≥ capacity then f.put bytes
    else .ok { f with buffer := f.buffer ++ bytes }

/-- What the file holds in the end: what waits is written when the file is closed. -/
def content (f : FileSink) : List UInt8 := f.stored.reverse.flatten ++ f.buffer

/-- The file as a sink. -/
def sink : Sink FileSink where
  write f bytes :=
    match f.write bytes with
    | .ok f => (.settled (.accepted bytes.length), f)
    | .error reason => (.settled (.failed reason), f)
  flush f :=
    match f.settle with
    | .ok f => (.ok (), f)
    | .error reason => (.error reason, f)

end FileSink

end ImageRelay.Archive
