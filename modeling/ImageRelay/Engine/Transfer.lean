import ImageRelay.Engine.Stream
import ImageRelay.Program

/-!
# Transfers

A pull or push runs a program and shows the lines of both of its pipes as messages, in the order in
which they arrive. Between two lines the transfer looks at the token; when it is raised the program
is killed. How the program ended is the last thing to be seen, and only if it failed.

The credentials of a push lie in a throwaway directory. It is there before the program is started
and is cleared when the program has been waited for.

## Main definitions
* `Transfer.look`: one look at what has arrived.
* `Transfer.drop`: a transfer that is given up.
* `Transfer.stream`: the messages of a transfer.
-/

set_option autoImplicit false

namespace ImageRelay

/-- What a look finds: a line, something that is no text, nothing yet, or that both pipes are
closed and all was read. Then the program is waited for, and the token may be raised meanwhile. -/
inductive Arrival
  | line (text : String)
  | unreadable
  | nothing
  | closed (exit : Program.Exit) (late : Option Interrupt)
  deriving Repr, DecidableEq

/-- What happens to the program of a transfer and to its throwaway directory. -/
inductive Milestone
  | prepared
  | started
  | killed
  | awaited
  | cleared
  deriving Repr, DecidableEq

/-- A transfer: what it does, whether it has a directory, whether it is done, and what has
happened so far, the first of it first. -/
structure Transfer where
  description : String
  hasDirectory : Bool := false
  done : Bool := false
  history : List Milestone := []
  deriving Repr, DecidableEq

namespace Transfer

/-- What happens before the program of a transfer is started. -/
def preparation (hasDirectory : Bool) : List Milestone := if hasDirectory then [.prepared] else []

/-- What happens when the directory is no longer needed. -/
def clearing (hasDirectory : Bool) : List Milestone := if hasDirectory then [.cleared] else []

/-- A transfer whose program was just started. -/
def started (description : String) (hasDirectory : Bool) : Transfer where
  description := description
  hasDirectory := hasDirectory
  history := preparation hasDirectory ++ [.started]

/-- Kills the program. -/
def kill (t : Transfer) : Transfer := { t with history := t.history ++ [.killed, .awaited] }

/-- Waits for the program. -/
def await (t : Transfer) : Transfer := { t with history := t.history ++ [.awaited] }

/-- Ends the transfer and clears the directory. -/
def finish (t : Transfer) : Transfer :=
  { t with
    done := true
    hasDirectory := false
    history := t.history ++ clearing t.hasDirectory }

/-- Gives the transfer up; a program that still runs is killed. -/
def drop (t : Transfer) : Transfer := if t.done then t else t.kill.finish

/-! ## Looking -/

/-- An item that a transfer shows: a message, or why there are no more. -/
abbrev Item : Type := Except Chain Message

/-- Output that is no text. -/
def unreadableFault (description : String) : Chain :=
  (Chain.root "stream did not contain valid UTF-8").within
    s!"Failed to read output of {description}"

/-- One look at a transfer: the item that it shows, if it shows one. -/
def look (cancelled : Bool) (a : Arrival) (t : Transfer) : Option Item × Transfer :=
  if t.done then (none, t)
  else if cancelled then
    (some (.error (.root s!"{t.description} cancelled")), t.kill.finish)
  else
    match a with
    | .line text =>
      if (Text.trim text.toList).isEmpty then (none, t) else (some (.ok (.ofLine text)), t)
    | .unreadable => (some (.error (unreadableFault t.description)), t.kill.finish)
    | .nothing => (none, t)
    | .closed exit late =>
      ((exit.fault? t.description late.isSome).map .error, t.await.finish)

/-- A transfer that is done shows nothing and stays as it is. -/
theorem look_of_done {t : Transfer} (h : t.done = true) (cancelled : Bool) (a : Arrival) :
    t.look cancelled a = (none, t) := by simp [look, h]

/-! ## Streams -/

/-- What happens while a transfer is read: something arrives, or the token is raised. -/
inductive Happening
  | arrives (a : Arrival)
  | interrupted (i : Interrupt)
  deriving Repr, DecidableEq

/-- The stream of one look, with `rest` behind it if the transfer is not done. -/
def lookStream (cancelled : Bool) (a : Arrival) (rest : Transfer → ProgressStream)
    (t : Transfer) : ProgressStream :=
  match t.look cancelled a with
  | (item, t) =>
    let behind := if t.done then .done else rest t
    match item with
    | some it => .item it behind
    | none => behind

/-- The raise of the token while the program of a transfer is waited for. -/
def lateInterrupt : Arrival → ProgressStream → ProgressStream
  | .closed _ (some i), s => .interrupt i s
  | _, s => s

/-- The stream of a transfer to which all of this happens. -/
def stream : List Happening → Transfer → ProgressStream
  | [], _ => .done
  | .interrupted i :: rest, t => .interrupt i (stream rest t)
  | .arrives a :: rest, t =>
    .poll (lateInterrupt a (t.lookStream false a (stream rest))) (t.lookStream true a (stream rest))

/-! ## Runs -/

/-- What arrives from the pipe of errors; it is given up at something that is no text. -/
def errorArrivals (p : Program.Pipe) : List Arrival := p.lines.map .line

/-- What arrives from the pipe of output. -/
def outputArrivals (p : Program.Pipe) : List Arrival :=
  p.lines.map .line ++ if p.broken then [.unreadable] else []

/-- What happens while a run is read: errors arrive before output, an interrupt comes behind both,
and a program that is held is ended by an interrupt. -/
def happenings (r : Program.Run) : List Happening :=
  (errorArrivals r.errors ++ outputArrivals r.output).map .arrives ++
    match r.ending with
    | .held => [.interrupted .announced, .arrives .nothing]
    | _ =>
      (if r.interrupted then [.interrupted .announced] else []) ++
        [.arrives (.closed r.exit none)]

end Transfer

end ImageRelay
