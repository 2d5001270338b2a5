import ImageRelay.Failure
import ImageRelay.Text.Blank
import ImageRelay.Text.Split
import ImageRelay.Text.Utf8

/-!
# Programs

A program is started with arguments, writes to two pipes, and ends. What it writes for errors is
its diagnosis: the text that a failure of the program is reported with.

## Main definitions
* `Run`: what a program does once it is started.
* `Pipe`: what can be read from a pipe.
* `Exit.fault?`: whether a program failed, and how that is reported.
-/

set_option autoImplicit false

namespace ImageRelay.Program

/-- A program and its arguments. -/
structure Invocation where
  program : String
  arguments : List String
  deriving Repr, DecidableEq

/-! ## How programs end -/

/-- How a program ends: by itself, by a signal, or not before it is killed. -/
inductive Ending
  | exited (code : Nat)
  | signalled (number : Nat)
  | held
  deriving Repr, DecidableEq

/-- The names of the signals, from 1 on. -/
def signalNames : List String :=
  ["SIGHUP", "SIGINT", "SIGQUIT", "SIGILL", "SIGTRAP", "SIGABRT", "SIGBUS", "SIGFPE", "SIGKILL",
    "SIGUSR1", "SIGSEGV", "SIGUSR2", "SIGPIPE", "SIGALRM", "SIGTERM", "SIGSTKFLT", "SIGCHLD",
    "SIGCONT", "SIGSTOP", "SIGTSTP", "SIGTTIN", "SIGTTOU", "SIGURG", "SIGXCPU", "SIGXFSZ",
    "SIGVTALRM", "SIGPROF", "SIGWINCH", "SIGIO", "SIGPWR", "SIGSYS"]

/-- A signal by its number, and by its name if it has one. -/
def signalText (number : Nat) : String :=
  match (none :: signalNames.map some)[number]? with
  | some (some name) => s!"signal: {number} ({name})"
  | _ => s!"signal: {number}"

namespace Ending

/-- Whether the program ended well. -/
def isSuccess (e : Ending) : Bool := e == .exited 0

/-- How the program ended, in words; one that is held ends by being killed. -/
def text : Ending → String
  | exited code => s!"exit status: {code}"
  | signalled number => signalText number
  | held => signalText 9

end Ending

/-! ## What programs write -/

/-- What a program does once it is started: what it writes to its two pipes, whether the user
interrupts the command meanwhile, and how it ends. -/
structure Run where
  stdout : List UInt8 := []
  stderr : List UInt8 := []
  interrupted : Bool := false
  ending : Ending := .exited 0
  deriving Repr, DecidableEq

/-- What can be read from a pipe: lines, and whether something that is no text follows them. -/
structure Pipe where
  lines : List String := []
  broken : Bool := false
  deriving Repr, DecidableEq

/-- The pipe to which some lines of bytes are written. -/
def Pipe.ofLines : List (List UInt8) → Pipe
  | [] => {}
  | l :: r =>
    match Text.Utf8.decode? l with
    | none => { broken := true }
    | some s => { Pipe.ofLines r with lines := s :: (Pipe.ofLines r).lines }

/-- The pipe to which some bytes are written. -/
def Pipe.ofBytes (bytes : List UInt8) : Pipe := Pipe.ofLines (Text.lines 10 13 bytes)

/-- The pipe of output of a run. -/
def Run.output (r : Run) : Pipe := .ofBytes r.stdout

/-- The pipe of errors of a run. -/
def Run.errors (r : Run) : Pipe := .ofBytes r.stderr

/-- Lines as one text, each ended. -/
def joinLines (lines : List String) : String := String.join (lines.map (· ++ "\n"))

/-! ## Failures of programs -/

/-- What waiting for a program gives: how it ended, and its diagnosis. -/
structure Exit where
  ending : Ending
  diagnosis : String
  deriving Repr, DecidableEq

/-- What waiting for a run gives; its diagnosis are the lines that can be read. -/
def Run.exit (r : Run) : Exit := ⟨r.ending, joinLines r.errors.lines⟩

/-- How a program has failed, if it has: the diagnosis without the blanks around it, or how it
ended if there is none. A raised token counts before all else. -/
def Exit.fault? (e : Exit) (description : String) (cancelled : Bool) : Option Chain :=
  if cancelled then some (.root s!"{description} cancelled")
  else if e.ending.isSuccess then none
  else
    let detail := Text.trimmed e.diagnosis
    if detail.isEmpty then some (.root s!"{description} failed with {e.ending.text}")
    else some (.root s!"{description} failed: {detail}")

theorem Exit.fault?_eq_none_iff (e : Exit) (description : String) (cancelled : Bool) :
    e.fault? description cancelled = none ↔ e.ending.isSuccess = true ∧ cancelled = false := by
  cases cancelled with
  | true => simp [fault?]
  | false =>
    cases hs : e.ending.isSuccess with
    | true => simp [fault?, hs]
    | false => cases hd : (Text.trimmed e.diagnosis).isEmpty <;> simp [fault?, hs, hd]

end ImageRelay.Program
