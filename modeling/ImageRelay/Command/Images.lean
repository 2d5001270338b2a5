import ImageRelay.Batch.Run
import ImageRelay.Batch.Save
import ImageRelay.Command.Selection
import ImageRelay.Engine.DryRun

/-!
# The image workflow

The commands that list, pull, download, push and delete images. A command first finds out all it
needs: the version, the image sets, and what the user has to say. Only then the engine is called or
a file is made.

## Main definitions
* `Bench`: what the commands work with.
* `Command.list`, `Command.pull`, `Command.download`, `Command.push`, `Command.delete`.
-/

set_option autoImplicit false

namespace ImageRelay

/-- How questions are answered. -/
structure Prompts where
  confirm : String → Except Chain Bool
  password : String → Except Chain String

/-- Without a terminal no question can be answered. -/
def Prompts.unattended : Prompts where
  confirm _ := .error (.root "IO error: not a terminal")
  password _ := .error (.root "IO error: not a terminal")

/-- What the commands work with: the settings, the engine, whether nothing is really done, where
versions and answers come from, and what happens while a failed push waits. -/
structure Bench where
  settings : Settings := {}
  engine : Engine
  dryRun : Bool := false
  versions : VersionSource
  prompts : Prompts := .unattended
  waiting : List Request → List Effect := fun _ => []

namespace Bench

/-- How often failed pushes are repeated. -/
def options (b : Bench) : Batch.Options where
  retries := b.settings.push.retries.toNat
  backoff := b.settings.push.backoff

/-- What a batch runs in; progress is drawn, or else shown line by line. -/
def surroundings (b : Bench) : Surroundings where
  engine := b.engine
  observer :=
    if b.settings.behavior.showProgress && !b.dryRun then Observer.spinner else Observer.lines
  waiting := b.waiting

end Bench

namespace Command

/-! ## Parts of commands -/

/-- Shows a report; the command fails if the batch did. -/
def conclude (r : Report) : Step Unit := fun s =>
  (r.check.mapError Failure.ofTransfer, s.tellAll (r.summary.map .line))

/-- Runs a batch and shows its report. -/
def runBatch (batch : Session → Report × Session) : Step Unit := fun s =>
  match batch s with
  | (r, s) => conclude r s

/-- The credentials of a user; the password is asked for if only a name is given. -/
def credentials (p : Prompts) (username password : Option String) : Except Chain Credentials :=
  match username.filter (!·.isEmpty) with
  | none => .ok .anonymous
  | some name =>
    match password with
    | some password => .ok ⟨name, password⟩
    | none => (p.password s!"Password for {name}").map (⟨name, ·⟩)

/-- A push without an override file. -/
def privateRegistryMissing : Advice where
  message := "push needs a private registry to push to"
  suggestions := ["Pass the override file with --e2e-repo-config"]

/-! ## Commands -/

/-- Prints every resolved reference. -/
def list (b : Bench) (sel : Selection) : Step Unit :=
  (sel.resolveVersion b.versions).andThen fun v =>
  (sel.resolvedImages v).andThen fun set =>
  .tell (set.references.map .line)

/-- Pulls the images, overrides left out. -/
def pull (b : Bench) (sel : Selection) : Step Unit :=
  (sel.resolveVersion b.versions).andThen fun v =>
  (sel.publicImages v).andThen fun set =>
  (Step.tell [.info s!"Pulling {set.size} image(s) for {v.text}"]).andThen fun _ =>
  runBatch (Batch.pullAll b.surroundings set)

/-- Exports images into an archive and tells its size. -/
def saveArchive (b : Bench) (set : ImageSet) (destination : String) : Step Unit := fun s =>
  match Batch.save b.surroundings set.references destination s with
  | (saved, s) =>
    match saved.result with
    | .error e => (.error e, s)
    | .ok bytes => (.ok (), s.tell (.line s!"✓ {destination} ({bytes} bytes)"))

/-- Exports the images into one archive, overrides left out. -/
def download (b : Bench) (sel : Selection) (output : Option String) : Step Unit :=
  (sel.resolveVersion b.versions).andThen fun v =>
  (sel.publicImages v).andThen fun set =>
  let destination := output.getD v.archiveName
  if b.dryRun then .tell [DryRun.told s!"save {set.size} image(s) to {destination}"]
  else saveArchive b set destination

/-- Tags the images with their private names and pushes them. -/
def push (b : Bench) (sel : Selection) (username password : Option String) : Step Unit :=
  if sel.hasOverride then
    (sel.resolveVersion b.versions).andThen fun v =>
    (sel.publicImages v).andThen fun source =>
    (sel.resolvedImages v).andThen fun destination =>
    (Step.ofResult ((credentials b.prompts username password).mapError .ofChain)).andThen fun c =>
    (Step.tell [.info s!"Pushing {destination.size} image(s) for {v.text}"]).andThen fun _ =>
    runBatch (Batch.pushAll b.surroundings b.options source destination c)
  else .ofResult (.error (privateRegistryMissing : Failure))

/-- Whether a deletion goes ahead: it is asked for unless the settings or the command line say that
it need not be. -/
def consent (b : Bench) (yes : Bool) (count : Nat) : Except Chain Bool :=
  if b.settings.behavior.confirmDestructive && !yes && !b.dryRun then
    b.prompts.confirm s!"Delete {count} image(s)?"
  else .ok true

/-- Removes the resolved images from the engine. -/
def delete (b : Bench) (sel : Selection) (yes : Bool) : Step Unit :=
  (sel.resolveVersion b.versions).andThen fun v =>
  (sel.resolvedImages v).andThen fun set =>
  (Step.ofResult ((consent b yes set.size).mapError .ofChain)).andThen fun agreed =>
  if agreed then runBatch (Batch.deleteAll b.surroundings set) else .tell [.line "Aborted"]

end Command

end ImageRelay
