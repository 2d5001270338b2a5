import ImageRelay.Engine.Transfer

/-!
# The pipes of a transfer

Each of the two pipes of a program is forwarded by itself, line by line, into one queue from which
the transfer is fed. The lines of one pipe keep their order, and the lines of both mix in any way.
When both pipes were forwarded to their ends and hung up, and the queue is empty, the program is
waited for.

The transfer looks in two steps: it checks the token, and then takes what is next in the queue.
Anything may happen between the two.

## Main definitions
* `Reading`: a transfer that is read while its pipes are forwarded.
* `Reading.play`: what becomes of it under a sequence of moves.
-/

set_option autoImplicit false

namespace ImageRelay

/-- A transfer that is read while its pipes are forwarded: what is still to be forwarded of each
and whether it is still open, how the program ends, the queue, the token, whether it was checked
and not raised then, and what was shown. -/
structure Reading where
  output : Program.Pipe
  errors : List String
  exit : Program.Exit
  transfer : Transfer
  outputOpen : Bool := true
  errorsOpen : Bool := true
  queue : List Arrival := []
  cancelled : Bool := false
  checked : Bool := false
  shown : List Transfer.Item := []

/-- What may happen next: a pipe is forwarded by one line or hangs up, the token is raised, or the
transfer checks the token or takes what is next. -/
inductive Move
  | forwardOutput
  | forwardErrors
  | interrupt
  | check
  | take
  deriving Repr, DecidableEq

namespace Reading

/-- The reading of a transfer that was just started for a run; the pipe of errors is given up at
something that is no text. -/
def start (r : Program.Run) (t : Transfer) : Reading where
  output := r.output
  errors := r.errors.lines
  exit := r.exit
  transfer := t

/-- Forwards the next line of output, or that something follows which is no text, or hangs up. -/
def forwardOutput (r : Reading) : Reading :=
  match r.output with
  | ⟨l :: rest, broken⟩ => { r with output := ⟨rest, broken⟩, queue := r.queue ++ [.line l] }
  | ⟨[], true⟩ => { r with output := ⟨[], false⟩, queue := r.queue ++ [.unreadable] }
  | ⟨[], false⟩ => { r with outputOpen := false }

/-- Forwards the next line of errors, or hangs up. -/
def forwardErrors (r : Reading) : Reading :=
  match r.errors with
  | l :: rest => { r with errors := rest, queue := r.queue ++ [.line l] }
  | [] => { r with errorsOpen := false }

/-- What is next in the queue. Behind both pipes this is the end of the program, with the token
looked at once more when the program was waited for. -/
def arrival (r : Reading) : Arrival :=
  match r.queue with
  | a :: _ => a
  | [] =>
    if r.outputOpen || r.errorsOpen then .nothing
    else .closed r.exit (if r.cancelled then some .silent else none)

/-- What comes of one look. -/
def look (r : Reading) (cancelled : Bool) (a : Arrival) : Reading :=
  match r.transfer.look cancelled a with
  | (item, t) => { r with transfer := t, checked := false, shown := r.shown ++ item.toList }

/-- Checks the token; a transfer that is done does not. -/
def check (r : Reading) : Reading :=
  if r.transfer.done then r
  else if r.cancelled then r.look true .nothing
  else { r with checked := true }

/-- Takes what is next, if the token was checked before. -/
def take (r : Reading) : Reading :=
  if r.checked then { r.look false r.arrival with queue := r.queue.drop 1 } else r

/-- One move. -/
def step (r : Reading) : Move → Reading
  | .forwardOutput => r.forwardOutput
  | .forwardErrors => r.forwardErrors
  | .interrupt => { r with cancelled := true }
  | .check => r.check
  | .take => r.take

/-- Several moves in order. -/
def play (r : Reading) (moves : List Move) : Reading := moves.foldl step r

theorem play_append (r : Reading) (first next : List Move) :
    r.play (first ++ next) = (r.play first).play next := List.foldl_append

end Reading

end ImageRelay
