import ImageRelay.Console
import ImageRelay.Engine.Message
import ImageRelay.Failure

/-!
# Streams of an engine

What an engine hands out for a call that takes time: the messages of a pull or push, or the bytes
of an export. A stream is a finite script. While it is read the cancellation token may be raised
from outside, and the stream may look at the token to decide how it goes on.

## Main definitions
* `Interrupt`: how the token is raised.
* `ProgressStream`, `ExportStream`: the two kinds of streams.
-/

set_option autoImplicit false

namespace ImageRelay

/-- How the cancellation token is raised: by the program itself, or by the user, who is told. -/
inductive Interrupt
  | silent
  | announced
  deriving Repr, DecidableEq

/-- What is told when the token is raised; nothing if it was raised before. -/
def Interrupt.emissions (cancelled : Bool) : Interrupt → List Emission
  | announced =>
    if cancelled then [] else [.err "\nInterrupted, stopping after the current image...\n"]
  | silent => []

/-- The messages of a pull or push. An item may be an error instead. -/
inductive ProgressStream
  | done
  | item (it : Except Chain Message) (rest : ProgressStream)
  | interrupt (i : Interrupt) (rest : ProgressStream)
  | poll (live cancelled : ProgressStream)

/-- A stream of some items. -/
def ProgressStream.ofList (items : List (Except Chain Message)) : ProgressStream :=
  items.foldr .item .done

/-- The bytes of an export, read by read. A read gives bytes, is interrupted and has to be made
again, or fails; a read without bytes is the end, and behind it every read gives nothing. -/
inductive ExportStream
  | eof
  | bytes (chunk : List UInt8) (rest : ExportStream)
  | interrupted (rest : ExportStream)
  | failed (fault : Chain) (rest : ExportStream)
  | interrupt (i : Interrupt) (rest : ExportStream)
  | poll (live cancelled : ExportStream)

namespace ExportStream

/-- The most bytes that one read gives. -/
def readSize : Nat := 65536

/-- Bytes before a stream, in reads of at most `readSize` bytes. The number bounds the reads. -/
def deliverIn : Nat → List UInt8 → ExportStream → ExportStream
  | 0, _, rest => rest
  | n + 1, data, rest =>
    if data.isEmpty then rest
    else .bytes (data.take readSize) (deliverIn n (data.drop readSize) rest)

/-- Bytes before a stream, in reads of at most `readSize` bytes. -/
def deliver (data : List UInt8) (rest : ExportStream) : ExportStream :=
  deliverIn (data.length / readSize + 1) data rest

/-- A stream behind the end of another. -/
def append : ExportStream → ExportStream → ExportStream
  | eof, t => t
  | bytes c r, t => bytes c (append r t)
  | interrupted r, t => interrupted (append r t)
  | failed f r, t => failed f (append r t)
  | interrupt i r, t => interrupt i (append r t)
  | poll l c, t => poll (append l t) (append c t)

end ExportStream

end ImageRelay
