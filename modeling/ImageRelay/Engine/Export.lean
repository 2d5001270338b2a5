import ImageRelay.Engine.Stream
import ImageRelay.Program

/-!
# Exports

An export runs a program and hands out the bytes of its output. Before each read the token is
looked at; when it is raised the program is killed and the read fails. At the end of the output the
program is waited for, and a failure of it is a failure of the last read.

## Main definitions
* `Export.stream`: the reads of an export.
-/

set_option autoImplicit false

namespace ImageRelay.Export

/-- What a read of the pipe finds, or that the token is raised before it. At the end of the output
the program is waited for, and the token may be raised meanwhile. -/
inductive Happening
  | bytes (chunk : List UInt8)
  | retry
  | interrupted (i : Interrupt)
  | ended (exit : Program.Exit) (late : Option Interrupt)
  deriving Repr, DecidableEq

/-- A failed read; every read behind it gives nothing. -/
def failure (fault : Chain) : ExportStream := .failed fault .eof

/-- The read at which the token is seen to be raised. -/
def cancelled : ExportStream := failure (.root "export cancelled")

/-- The last read, at which the program has ended. -/
def lastRead (description : String) (exit : Program.Exit) (late : Bool) : ExportStream :=
  match exit.fault? description late with
  | some fault => failure fault
  | none => .eof

/-- The reads of an export to which all of this happens. -/
def stream (description : String) : List Happening → ExportStream
  | [] => .eof
  | .bytes chunk :: rest => .poll (.bytes chunk (stream description rest)) cancelled
  | .retry :: rest => .poll (.interrupted (stream description rest)) cancelled
  | .interrupted i :: rest => .interrupt i (stream description rest)
  | .ended exit none :: _ => .poll (lastRead description exit false) cancelled
  | .ended exit (some i) :: _ => .poll (.interrupt i (lastRead description exit true)) cancelled

/-- Bytes in reads of at most `ExportStream.readSize` bytes. The number bounds the reads. -/
def readsIn : Nat → List UInt8 → List Happening
  | 0, _ => []
  | n + 1, data =>
    if data.isEmpty then []
    else .bytes (data.take ExportStream.readSize) :: readsIn n (data.drop ExportStream.readSize)

/-- What happens while a run is read. A program that is held is ended by an interrupt. -/
def happenings (r : Program.Run) : List Happening :=
  readsIn (r.stdout.length / ExportStream.readSize + 1) r.stdout ++
    match r.ending with
    | .held => [.interrupted .announced, .retry]
    | _ =>
      (if r.interrupted then [.interrupted .announced] else []) ++ [.ended r.exit none]

end ImageRelay.Export
