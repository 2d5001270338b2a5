import ImageRelay.Batch.Report
import ImageRelay.Credentials
import ImageRelay.Duration
import ImageRelay.Engine.Basic
import ImageRelay.Registry.ImageSet

/-!
# Running a batch

The images of a batch are processed one at a time, in name order. Every stream of the engine is
read to its end before the next call. A failed image is reported and does not stop the batch; only
the token does, before an image and behind a failed one.

## Main definitions
* `drain`: reads a stream to its end.
* `runJobs`: the loop over the images.
* `pullAll`, `pushAll`, `deleteAll`: the three batches.
-/

set_option autoImplicit false

namespace ImageRelay.Batch

/-- How failed pushes are repeated: how often, and the wait before the first repetition. -/
structure Options where
  retries : Nat := 0
  backoff : Duration := .ofSeconds 2

/-! ## Streams -/

/-- Reads a stream to its end and shows every message to the observer. The result is the last error
of the stream, `last` if it has none. -/
def drain (w : Surroundings) (reference : String) :
    ProgressStream → Option Chain → Session → Option Chain × Session
  | .done, last, s => (last, s.record .ended)
  | .item (.ok m) rest, last, s =>
    drain w reference rest ((m.error.map Chain.root).or last)
      ((s.record (.read (.ok m))).observe w (.message reference m))
  | .item (.error e) rest, _, s => drain w reference rest (some e) (s.record (.read (.error e)))
  | .interrupt i rest, last, s => drain w reference rest last (s.interrupt i)
  | .poll live cancelled, last, s =>
    if s.cancelled then drain w reference cancelled last s else drain w reference live last s

/-- What comes of a call that answers with a stream: its rejection, or the last error of the
stream. -/
def settle (w : Surroundings) (operation : Operation) (reference : String)
    (answer : Except Chain ProgressStream) (s : Session) : Except TransferError Unit × Session :=
  match answer with
  | .error source => (.error (.engineCall operation reference source), s)
  | .ok stream =>
    match drain w reference stream none s with
    | (some source, s) => (.error (.engineCall operation reference source), s)
    | (none, s) => (.ok (), s)

/-! ## Images -/

/-- The entry of an image. -/
def resultOf (i : Image) (operation : Operation) (r : Except TransferError Outcome) :
    ImageResult where
  name := i.name
  reference := i.reference
  operation := operation
  outcome := match r with
    | .ok o => o
    | .error e => .failed e

/-- Shows the observer that an image begins and ends, and between that does what is to be done. -/
def framed (w : Surroundings) (reference : String)
    (body : Session → Except TransferError Unit × Session) (s : Session) :
    Except TransferError Unit × Session :=
  let (r, s) := body (s.observe w (.begin reference))
  (r, s.observe w (.finish reference r.toBool))

/-- One attempt at a pull. -/
def tryPull (w : Surroundings) (reference : String) (s : Session) :
    Except TransferError Unit × Session :=
  let (answer, s) := s.request w (.pull reference)
  settle w .pull reference answer s

/-- Pulls an image. -/
def pullImage (w : Surroundings) (i : Image) (s : Session) : ImageResult × Session :=
  let (r, s) := framed w i.reference (tryPull w i.reference) s
  (resultOf i .pull (r.map fun _ => .done), s)

/-- Removes an image and tells what was removed. -/
def deleteImage (w : Surroundings) (i : Image) (s : Session) : ImageResult × Session :=
  match s.request w (.remove i.reference) with
  | (.ok items, s) =>
    let lines := items.flatMap fun i =>
      (i.untagged.toList.map fun u => Emission.info s!"Untagged: {u}") ++
        i.deleted.toList.map fun d => Emission.info s!"Deleted: {d}"
    (resultOf i .delete (.ok (.removed items)), s.tellAll lines)
  | (.error source, s) => (resultOf i .delete (.error (.engineCall .delete i.reference source)), s)

/-- One attempt at a push. -/
def tryPush (w : Surroundings) (reference header : String) (s : Session) :
    Except TransferError Unit × Session :=
  let (answer, s) := s.request w (.push reference header)
  settle w .push reference answer s

/-- What is told before the wait behind failed attempt number `attempt`, counted from zero. -/
def retryNotice (o : Options) (attempt : Nat) (e : TransferError) : Emission :=
  .warn <| s!"{e.message}; retrying in {(o.backoff.retryDelay attempt).text} " ++
    s!"({attempt + 1}/{o.retries})"

/-- Pushes a reference; while attempts are left and the token is not raised, a failed push is
repeated behind a wait. `attempt` attempts have failed, and `left` repetitions are left. -/
def pushFrom (w : Surroundings) (o : Options) (reference header : String) :
    (left attempt : Nat) → Session → Except TransferError Unit × Session
  | 0, _, s => tryPush w reference header s
  | left + 1, attempt, s =>
    match tryPush w reference header s with
    | (.ok (), s) => (.ok (), s)
    | (.error e, s) =>
      if s.cancelled then (.error e, s)
      else
        pushFrom w o reference header left (attempt + 1)
          ((s.tell (retryNotice o attempt e)).wait w (o.backoff.retryDelay attempt))

/-- The header of the pushes of a batch. -/
def headerOf (c : Credentials) : String := if c.isAnonymous then "" else c.header

/-- Tags an image as its counterpart and pushes that; a failed tag leaves out the push. -/
def pushImage (w : Surroundings) (o : Options) (c : Credentials) (source target : Image)
    (s : Session) : ImageResult × Session :=
  match s.request w (.tag source.reference target.reference) with
  | (.error cause, s) =>
    (resultOf target .tag (.error (.engineCall .tag target.reference cause)), s)
  | (.ok (), s) =>
    let (r, s) :=
      framed w target.reference (pushFrom w o target.reference (headerOf c) o.retries 0) s
    (resultOf target .push (r.map fun _ => .done), s)

/-! ## Batches -/

/-- What is done with one image. -/
abbrev Job : Type := Session → ImageResult × Session

/-- Does one job and tells its error. -/
def runJob (j : Job) (s : Session) : ImageResult × Session :=
  let (r, s) := j s
  (r, s.tellAll (r.error?.toList.map fun e => Emission.error e.message))

/-- Does jobs in order, and tells whether the token stopped them. -/
def runJobs : List Job → Session → (List ImageResult × Bool) × Session
  | [], s => (([], false), s)
  | j :: rest, s =>
    if s.cancelled then (([], true), s)
    else
      let (r, s) := runJob j s
      if !r.isSuccess && s.cancelled then (([r], true), s)
      else
        let ((rs, stopped), s) := runJobs rest s
        ((r :: rs, stopped), s)

/-- Runs a batch. -/
def run (operation : Operation) (jobs : List Job) (s : Session) : Report × Session :=
  let ((results, cancelled), s) := runJobs jobs s
  let report : Report := ⟨operation, results, cancelled⟩
  (report, s.tell report.closing)

/-- Pulls every image of a set. -/
def pullAll (w : Surroundings) (set : ImageSet) (s : Session) : Report × Session :=
  run .pull (set.images.map (pullImage w)) s

/-- Removes every image of a set. -/
def deleteAll (w : Surroundings) (set : ImageSet) (s : Session) : Report × Session :=
  run .delete (set.images.map (deleteImage w)) s

/-- The images of a set with their counterparts of the same name in another. -/
def pairs (source destination : ImageSet) : List (Image × Image) :=
  source.images.filterMap fun i => (destination.get? i.name).map (i, ·)

/-- The images of a set without a counterpart in another. -/
def unpaired (source destination : ImageSet) : List Image :=
  source.images.filter fun i => (destination.get? i.name).isNone

/-- Tags every image of a set as its counterpart and pushes that; images without one are left out
with a warning. -/
def pushAll (w : Surroundings) (o : Options) (source destination : ImageSet) (c : Credentials)
    (s : Session) : Report × Session :=
  let s := s.tellAll <| (unpaired source destination).map fun i =>
    .warn s!"No destination for image '{i.name}', skipping"
  run .push ((pairs source destination).map fun (i, t) => pushImage w o c i t) s

end ImageRelay.Batch
