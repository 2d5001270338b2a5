import ImageRelay.Duration
import ImageRelay.Engine.Removed
import ImageRelay.Engine.Stream
import ImageRelay.Files.Tree

/-!
# Engines

An engine pulls, tags, pushes, removes and exports images by reference. What it does may depend on
all requests made before, so an engine is a function of the history of requests. A reply carries
the answer to the call and the effects that it had on the way.

## Main definitions
* `Call`, `Call.Answer`: the calls and the answers to them.
* `Engine`: a function from histories and requests to replies.
* `Moment`, `Session`: what happens, and all that has happened so far.
-/

set_option autoImplicit false

namespace ImageRelay

/-- A call of an engine. The header of a push is empty for anonymous pushes. -/
inductive Call
  | pull (reference : String)
  | tag (source target : String)
  | push (reference header : String)
  | remove (reference : String)
  | save (references : List String)
  deriving Repr, DecidableEq

/-- The answer to a call: a result, or why the call was rejected. -/
abbrev Call.Answer : Call → Type
  | .pull _ | .push _ _ => Except Chain ProgressStream
  | .tag _ _ => Except Chain Unit
  | .remove _ => Except Chain (List Removed)
  | .save _ => Except Chain ExportStream

/-- The answer that rejects a call. -/
def Call.rejected (c : Call) (fault : Chain) : c.Answer :=
  match c with
  | .pull _ | .push _ _ | .tag _ _ | .remove _ | .save _ => .error fault

/-- A call with the state of the token when it is made. -/
structure Request where
  call : Call
  cancelled : Bool
  deriving Repr, DecidableEq

/-- Something that happens on the way: the program tells something, or the token is raised. -/
inductive Effect
  | tell (e : Emission)
  | interrupt (i : Interrupt)
  deriving Repr, DecidableEq

/-- The reply to a call. -/
structure Reply (c : Call) where
  answer : c.Answer
  effects : List Effect := []

/-- An engine: its reply to a request behind earlier ones, the first of them first. -/
abbrev Engine : Type := (past : List Request) → (now : Request) → Reply now.call

/-! ## Sessions -/

/-- What an observer sees of a batch. -/
inductive Event
  | begin (reference : String)
  | message (reference : String) (m : Message)
  | finish (reference : String) (success : Bool)
  deriving Repr, DecidableEq

/-- An observer: what it does at an event behind earlier ones. -/
abbrev Observer : Type := (past : List Event) → (now : Event) → List Effect

/-- An observer that writes every message as a line for errors. -/
def Observer.lines : Observer := fun _ now =>
  match now with
  | .message _ m => [.tell (.err (m.text ++ "\n"))]
  | _ => []

/-- An observer that draws on a terminal only. -/
def Observer.spinner : Observer := fun _ _ => []

/-- Something that happens in a session. A call stands with the answer that comes of it; `ended` is
the end of a stream that was read. -/
inductive Moment
  | called (r : Request) (answer : r.call.Answer)
  | read (item : Except Chain Message)
  | ended
  | seen (e : Event)
  | waited (delay : Duration)
  | raised (i : Interrupt)
  | told (e : Emission)

/-- What happened so far: the files, the token, the requests, the events and what was told, each for
itself and all together in order. -/
structure Session where
  files : Files.Tree
  cancelled : Bool := false
  requests : List Request := []
  events : List Event := []
  output : List Emission := []
  history : List Moment := []

/-- What a session runs in: the engine, the observer, and what happens during the wait before a
repeated attempt, which may depend on the requests so far. -/
structure Surroundings where
  engine : Engine
  observer : Observer
  waiting : List Request → List Effect := fun _ => []

namespace Session

/-- Keeps a moment. -/
def record (s : Session) (m : Moment) : Session := { s with history := s.history ++ [m] }

/-- Tells several things in order. -/
def tellAll (s : Session) (es : List Emission) : Session :=
  { s with output := s.output ++ es, history := s.history ++ es.map .told }

/-- Tells something. -/
def tell (s : Session) (e : Emission) : Session := s.tellAll [e]

/-- Raises the token. -/
def interrupt (s : Session) (i : Interrupt) : Session :=
  ({ s.record (.raised i) with cancelled := true } : Session).tellAll (i.emissions s.cancelled)

/-- One effect. -/
def apply (s : Session) : Effect → Session
  | .tell e => s.tell e
  | .interrupt i => s.interrupt i

/-- Several effects in order. -/
def applyAll (s : Session) (es : List Effect) : Session := es.foldl apply s

/-- Shows an event to the observer. -/
def observe (w : Surroundings) (s : Session) (e : Event) : Session :=
  ({ s.record (.seen e) with events := s.events ++ [e] } : Session).applyAll (w.observer s.events e)

/-- Makes a call. -/
def request (w : Surroundings) (c : Call) (s : Session) : c.Answer × Session :=
  let r : Request := ⟨c, s.cancelled⟩
  let reply := w.engine s.requests r
  (reply.answer,
    ({ s.record (.called r reply.answer) with requests := s.requests ++ [r] } : Session).applyAll
      reply.effects)

/-- Waits before a repeated attempt. -/
def wait (w : Surroundings) (delay : Duration) (s : Session) : Session :=
  (s.record (.waited delay)).applyAll (w.waiting s.requests)

end Session

end ImageRelay
