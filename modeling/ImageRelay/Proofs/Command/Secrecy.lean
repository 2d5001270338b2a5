import ImageRelay.Command.Images
import ImageRelay.Proofs.Command.Steps
import ImageRelay.Proofs.Engine.Secrecy

/-!
# What becomes of passwords

The password of a push reaches nothing but the header of the pushes and the file that a container
engine writes for its program: two pushes with passwords of one user are told, shown and reported
in the same way, and call the engine in the same way (`passwords_stay_hidden`).
-/

set_option autoImplicit false

namespace ImageRelay

/-- The benches are the same but for the answers to questions, and engines that match. -/
structure Bench.Matches (b b' : Bench) : Prop where
  settings : b.settings = b'.settings
  dryRun : b.dryRun = b'.dryRun
  versions : b.versions = b'.versions
  engine : b.engine.Matches b'.engine
  waiting {past past' : List Request} (h : AlikeRequests past past') :
    b.waiting past = b'.waiting past'

theorem Bench.Matches.options_eq {b b' : Bench} (h : b.Matches b') : b.options = b'.options := by
  rw [options, options, h.settings]

theorem Bench.Matches.surroundings {b b' : Bench} (h : b.Matches b') :
    b.surroundings.Matches b'.surroundings where
  engine := h.engine
  observer := by rw [Bench.surroundings, Bench.surroundings, h.settings, h.dryRun]
  waiting := h.waiting

theorem Step.agrees_andThen {α β : Type} (x : Step α) {f g : α → Step β} {s : Session}
    (h : ∀ a t, Agrees (f a t) (g a t)) : Agrees (x.andThen f s) (x.andThen g s) := by
  unfold Step.andThen
  split
  · exact h _ _
  · exact ⟨rfl, .refl _⟩

namespace Command

theorem agrees_runBatch {batch batch' : Session → Report × Session} {s : Session}
    (h : Agrees (batch s) (batch' s)) : Agrees (runBatch batch s) (runBatch batch' s) := by
  obtain ⟨r, t, t', ht, ht', halike⟩ := h.exists_eq
  rw [runBatch, runBatch, ht, ht']
  exact ⟨rfl, halike.tellAll _⟩

section
variable {b b' : Bench} (hb : b.Matches b') {username password username' password' : Option String}
  {c c' : Credentials} (hc : credentials b.prompts username password = .ok c)
  (hc' : credentials b'.prompts username' password' = .ok c') (hu : c.username = c'.username)
include hb hc hc' hu

theorem agrees_push (sel : Selection) (s : Session) :
    Agrees (push b sel username password s) (push b' sel username' password' s) := by
  unfold push
  rw [hc, hc', hb.versions, hb.options_eq]
  split
  · refine Step.agrees_andThen _ fun v t => Step.agrees_andThen _ fun source t =>
      Step.agrees_andThen _ fun destination t => ?_
    -- up to here both runs are the same; now they go on with different credentials
    rw [Except.mapError, Except.mapError, Step.ofResult_andThen, Step.ofResult_andThen]
    exact Step.agrees_andThen _ fun _ t =>
      agrees_runBatch (Batch.agrees_pushAll hb.surroundings _ source destination hu (.refl t))
  · exact ⟨rfl, .refl s⟩

end

/-- **What becomes of passwords**: a push batch, and the command around it, go the same way with two
passwords of one user, unless the engine tells their headers apart. The results and all that is
told, logged and shown are the same, and so are the calls but for the headers, and the actions of a
dry run. A dry run does not tell the headers apart. Nor does a container engine, unless its programs
do: the programs get the same arguments up to the name of the throwaway directory, in which the
entry of the registry alone may differ. -/
theorem passwords_stay_hidden {c c' : Credentials} (hu : c.username = c'.username) (s : Session) :
    (∀ w w' : Surroundings, w.Matches w' → ∀ o source destination,
      Agrees (Batch.pushAll w o source destination c s)
        (Batch.pushAll w' o source destination c' s)) ∧
    (∀ b b' sel username password username' password', b.Matches b' →
      credentials b.prompts username password = .ok c →
      credentials b'.prompts username' password' = .ok c' →
      let x := push b sel username password s
      let x' := push b' sel username' password' s
      Agrees x x' ∧ DryRun.actions x.2.requests = DryRun.actions x'.2.requests ∧
        ∀ (k : Container) (m m' : Machine), m.Resembles m' → List.Forall₂
          (Container.Started.Alike m m') (k.launches m x.2.requests)
          (k.launches m' x'.2.requests)) ∧
    DryRun.engine.Matches DryRun.engine ∧
    ∀ (k : Container) (m m' : Machine), m.Resembles m' → (k.engine m).Matches (k.engine m') := by
  refine ⟨fun w w' hw o source destination =>
      Batch.agrees_pushAll hw o source destination hu (.refl s), ?_, DryRun.matches_self,
    fun k m m' hm => k.engine_matches hm⟩
  intro b b' sel username password username' password' hb hc hc'
  have hagrees := agrees_push hb hc hc' hu sel s
  exact ⟨hagrees, DryRun.actions_eq hagrees.session.requests,
    fun k m m' hm => k.launches_alike hm hagrees.session.requests⟩

/-- A machine with docker, to which the registry denies every push with credentials. -/
def denied (directory : String) : Machine where
  environment := ⟨[], none⟩
  files := ⟨[(["bin"], .directory), (["bin", "docker"], .file [] true)], []⟩
  programs _ i := if i.arguments.length = 4 then { ending := .exited 1 } else {}
  throwaway := .ok directory

/-- A bench on this machine. -/
def deniedBench (directory : String) : Bench where
  engine := Container.engine .docker (denied directory)
  versions _ _ := (.error (.root "no cluster"), [])

theorem denied_resembles (d d' : String) : (denied d).Resembles (denied d') where
  environment := rfl
  files := rfl
  throwaway := .ok trivial
  filing := rfl
  programs _ _ _ hi := by
    unfold denied
    dsimp only
    rw [hi.arguments.length_eq]

/-- A push of one user on this bench, with an override file that is empty. -/
def deniedPush (directory password : String) : Except Failure Unit × Session :=
  push (deniedBench directory) { version := "v1.18.0", overrideFile := some "repos.yaml" }
    (some "ci") (some password) { files := ⟨[(["repos.yaml"], .file [] false)], []⟩ }

/-- With different passwords, and in different throwaway directories, both pushes fail with the same
words. -/
theorem two_passwords_denied :
    (deniedPush "/tmp/a" "winter").1 = .error (.ofTransfer (.batchFailed .push 6 6)) ∧
      (deniedPush "/tmp/a" "winter").2.requests ≠ (deniedPush "/tmp/b" "summer").2.requests ∧
      Agrees (deniedPush "/tmp/a" "winter") (deniedPush "/tmp/b" "summer") := by
  have hu : (⟨"ci", "winter"⟩ : Credentials).username = (⟨"ci", "summer"⟩ : Credentials).username :=
    rfl
  obtain ⟨-, hpush, -, hcontainer⟩ := passwords_stay_hidden hu
    { files := ⟨[(["repos.yaml"], .file [] false)], []⟩ }
  have hmatches : (deniedBench "/tmp/a").Matches (deniedBench "/tmp/b") :=
    ⟨rfl, rfl, rfl, hcontainer .docker _ _ (denied_resembles "/tmp/a" "/tmp/b"), fun _ => rfl⟩
  obtain ⟨hagrees, -, -⟩ := hpush _ _ { version := "v1.18.0", overrideFile := some "repos.yaml" }
    (some "ci") (some "winter") (some "ci") (some "summer") hmatches rfl rfl
  have hfails : (deniedPush "/tmp/a" "winter").1 =
      .error (.ofTransfer (.batchFailed .push 6 6)) := by decide +kernel
  have hdiffer : (deniedPush "/tmp/a" "winter").2.requests ≠
      (deniedPush "/tmp/b" "summer").2.requests := by decide +kernel
  exact ⟨hfails, hdiffer, hagrees⟩

end Command

end ImageRelay
