import ImageRelay.Engine.Container
import ImageRelay.Engine.Pipes

/-!
# The lifetime of credentials on disk

The throwaway directory of a push is there before the program is started and until it was waited
for. When the stream is done or given up, or the push was rejected, the directory is cleared and no
program is left.

* `Holdings`: what a call holds of the machine at a point of its history.
* `Guarded`: a history in which the program is only ever there together with its directory.
* `Transfer.Stands`: how a transfer stands that was just started and then used in any way; one use
  keeps it (`Transfer.Stands.use`).
* `Container.Opens`: what comes of the start of a push.
* `Container.push_guards`: the directory and the program of a push, from its start to its end.
-/

set_option autoImplicit false

namespace ImageRelay

/-! ## What a call holds -/

/-- What a call holds of the machine: its throwaway directory while that is there, and its program
from its start until it was waited for. -/
structure Holdings where
  directory : Bool := false
  program : Bool := false
  deriving Repr, DecidableEq

/-- A program that was only killed still has to be waited for. -/
def Holdings.after (s : Holdings) : Milestone → Holdings
  | .prepared => { s with directory := true }
  | .started => { s with program := true }
  | .killed => s
  | .awaited => { s with program := false }
  | .cleared => { s with directory := false }

/-- What is held behind a history. -/
def holdings (history : List Milestone) : Holdings := history.foldl Holdings.after {}

theorem holdings_append (history next : List Milestone) :
    holdings (history ++ next) = next.foldl Holdings.after (holdings history) :=
  List.foldl_append

/-- Whenever the program is about to be started, or was started and not yet waited for, the
directory is there if there is to be one. -/
def Guarded (withDirectory : Bool) (history : List Milestone) : Prop :=
  ∀ past next, history = past ++ next →
    next.head? = some .started ∨ (holdings past).program = true →
    (holdings past).directory = withDirectory

namespace Guarded

variable {withDirectory : Bool} {history : List Milestone}

theorem nil : Guarded withDirectory [] := by
  intro past next h hp
  obtain ⟨rfl, rfl⟩ := List.append_eq_nil_iff.1 h.symm
  rcases hp with hp | hp <;> cases hp

/-- One milestone more: only the start of a program and a state in which it runs ask for the
directory. -/
theorem snoc (h : Guarded withDirectory history) {e : Milestone}
    (hstart : e = .started → (holdings history).directory = withDirectory)
    (hrun : ((holdings history).after e).program = true →
      ((holdings history).after e).directory = withDirectory) :
    Guarded withDirectory (history ++ [e]) := by
  intro past next heq hp
  rcases List.eq_nil_or_concat next with rfl | ⟨next, e', rfl⟩
  · obtain rfl : history ++ [e] = past := by simpa using heq
    rw [holdings_append] at hp ⊢
    rcases hp with hp | hp
    · cases hp
    · exact hrun hp
  · rw [List.concat_eq_append, ← List.append_assoc] at heq
    obtain ⟨rfl, he⟩ := List.append_inj' heq rfl
    obtain rfl : e = e' := by simpa using he
    rcases hp with hp | hp
    · cases next with
      | nil =>
        obtain rfl : e = .started := by simpa using hp
        simpa using hstart rfl
      | cons e₁ next => exact h past (e₁ :: next) rfl (.inl (by simpa using hp))
    · exact h past next rfl (.inr hp)

end Guarded

/-! ## Transfers in use -/

namespace Transfer

/-- What can be done with a transfer: a look, with the token as it is then and what has arrived, or
to give it up. -/
inductive Use
  | look (cancelled : Bool) (a : Arrival)
  | drop
  deriving Repr, DecidableEq

/-- A transfer behind one use. -/
def use (t : Transfer) : Use → Transfer
  | .look cancelled a => (t.look cancelled a).2
  | .drop => t.drop

/-- A transfer behind several uses in order. -/
def uses (t : Transfer) (us : List Use) : Transfer := us.foldl use t

theorem uses_append (t : Transfer) (us next : List Use) :
    t.uses (us ++ next) = (t.uses us).uses next := List.foldl_append

/-- What happens when the program of a transfer comes to its end. -/
inductive Ending : List Milestone → Prop
  | killed : Ending [.killed, .awaited]
  | exited : Ending [.awaited]

/-- How a transfer stands: its program was started behind the preparation of its directory and is
there, or it has ended and the directory was cleared behind that. -/
inductive Stands (withDirectory : Bool) (t : Transfer) : Prop
  | live (hd : t.done = false) (hdir : t.hasDirectory = withDirectory)
      (hh : t.history = preparation withDirectory ++ [.started])
  | ended (hd : t.done = true) {ending : List Milestone} (he : Ending ending)
      (hh : t.history =
        preparation withDirectory ++ [.started] ++ (ending ++ clearing withDirectory))

namespace Stands

variable {withDirectory : Bool} {t : Transfer}

theorem started (description : String) (withDirectory : Bool) :
    Stands withDirectory (.started description withDirectory) := .live rfl rfl rfl

/-- The program of a live transfer ends, and then the transfer. -/
theorem finish (hdir : t.hasDirectory = withDirectory)
    (hh : t.history = preparation withDirectory ++ [.started]) {ending : List Milestone}
    (he : Ending ending) :
    Stands withDirectory ({ t with history := t.history ++ ending } : Transfer).finish := by
  refine .ended rfl he ?_
  change t.history ++ ending ++ clearing t.hasDirectory = _
  rw [hh, hdir, List.append_assoc]

/-- A look leaves a live transfer live, or its program is killed or waited for. -/
theorem look (h : Stands withDirectory t) (cancelled : Bool) (a : Arrival) :
    Stands withDirectory (t.look cancelled a).2 := by
  cases h with
  | ended hd he hh =>
    rw [look_of_done hd]
    exact .ended hd he hh
  | live hd hdir hh =>
    unfold Transfer.look
    rw [hd]
    cases cancelled with
    | true => exact finish hdir hh .killed
    | false =>
      cases a with
      | line text =>
        have hsame : (if (Text.trim text.toList).isEmpty then ((none : Option Item), t)
            else (some (.ok (.ofLine text)), t)).2 = t := by split <;> rfl
        simp only [Bool.false_eq_true, if_false, hsame]
        exact .live hd hdir hh
      | unreadable => exact finish hdir hh .killed
      | nothing => exact .live hd hdir hh
      | closed exit late => exact finish hdir hh .exited

theorem drop (h : Stands withDirectory t) : Stands withDirectory t.drop := by
  unfold Transfer.drop
  cases h with
  | ended hd he hh =>
    rw [if_pos hd]
    exact .ended hd he hh
  | live hd hdir hh =>
    rw [if_neg (by simp [hd])]
    exact finish hdir hh .killed

theorem use (h : Stands withDirectory t) : ∀ u : Use, Stands withDirectory (t.use u)
  | .look cancelled a => h.look cancelled a
  | .drop => h.drop

theorem uses (h : Stands withDirectory t) (us : List Use) : Stands withDirectory (t.uses us) := by
  induction us generalizing t with
  | nil => exact h
  | cons u us ih => exact ih (h.use u)

end Stands

theorem done_use {t : Transfer} (hd : t.done = true) : ∀ u : Use, (t.use u).done = true
  | .look cancelled a => by rw [use, look_of_done hd, hd]
  | .drop => by rw [use, Transfer.drop, if_pos hd, hd]

theorem done_uses {t : Transfer} (hd : t.done = true) (us : List Use) :
    (t.uses us).done = true := by
  induction us generalizing t with
  | nil => exact hd
  | cons u us ih => exact ih (done_use hd u)

theorem done_drop (t : Transfer) : t.drop.done = true := by
  unfold Transfer.drop
  split
  · assumption
  · rfl

/-- A transfer that was given up on the way is done. -/
theorem done_of_drop_mem (t : Transfer) {us : List Use} (h : .drop ∈ us) :
    (t.uses us).done = true := by
  obtain ⟨before, behind, rfl⟩ := List.append_of_mem h
  rw [uses_append]
  exact done_uses (done_drop _) behind

/-! ## Readings are uses -/

/-- Every move of a reading is at most one look of its transfer. -/
theorem exists_uses_step (r : Reading) (m : Move) :
    ∃ us, (r.step m).transfer = r.transfer.uses us := by
  cases m with
  | forwardOutput =>
    refine ⟨[], ?_⟩
    simp only [Reading.step, Reading.forwardOutput]
    split <;> rfl
  | forwardErrors =>
    refine ⟨[], ?_⟩
    simp only [Reading.step, Reading.forwardErrors]
    split <;> rfl
  | interrupt => exact ⟨[], rfl⟩
  | check =>
    simp only [Reading.step, Reading.check]
    split
    · exact ⟨[], rfl⟩
    · split
      · exact ⟨[.look true .nothing], rfl⟩
      · exact ⟨[], rfl⟩
  | take =>
    simp only [Reading.step, Reading.take]
    split
    · exact ⟨[.look false r.arrival], rfl⟩
    · exact ⟨[], rfl⟩

theorem exists_uses_play (r : Reading) (moves : List Move) :
    ∃ us, (r.play moves).transfer = r.transfer.uses us := by
  induction moves generalizing r with
  | nil => exact ⟨[], rfl⟩
  | cons m moves ih =>
    obtain ⟨first, hfirst⟩ := exists_uses_step r m
    obtain ⟨next, hnext⟩ := ih (r.step m)
    refine ⟨first ++ next, ?_⟩
    change ((r.step m).play moves).transfer = _
    rw [hnext, hfirst, uses_append]

end Transfer

/-! ## What is held on the way -/

namespace Transfer

theorem holdings_begun (withDirectory : Bool) :
    holdings (preparation withDirectory ++ [.started]) = ⟨withDirectory, true⟩ := by
  cases withDirectory <;> rfl

theorem guarded_begun (withDirectory : Bool) :
    Guarded withDirectory (preparation withDirectory ++ [.started]) := by
  have hprepared : Guarded withDirectory (preparation withDirectory) := by
    cases withDirectory with
    | false => exact .nil
    | true => exact Guarded.nil.snoc (by simp) (fun h => by cases h)
  refine hprepared.snoc (fun _ => ?_) (fun _ => ?_) <;> cases withDirectory <;> rfl

/-- Behind a history that holds a program and its directory, the program may end and the directory
be cleared; then nothing is held. -/
theorem guarded_over {withDirectory : Bool} {history ending : List Milestone}
    (hg : Guarded withDirectory history) (hh : holdings history = ⟨withDirectory, true⟩)
    (he : Ending ending) :
    Guarded withDirectory (history ++ (ending ++ clearing withDirectory)) ∧
      holdings (history ++ (ending ++ clearing withDirectory)) = {} := by
  have hawaited {past : List Milestone} (hg : Guarded withDirectory past)
      (hh : holdings past = ⟨withDirectory, true⟩) :
      Guarded withDirectory (past ++ .awaited :: clearing withDirectory) := by
    have hone : Guarded withDirectory (past ++ [.awaited]) :=
      hg.snoc (by simp) (fun h => by cases h)
    cases withDirectory with
    | false => exact hone
    | true =>
      rw [← List.singleton_append, ← List.append_assoc]
      refine hone.snoc (by simp) (fun h => ?_)
      rw [holdings_append, hh] at h
      cases h
  constructor
  · cases he with
    | exited => exact hawaited hg hh
    | killed =>
      have hkilled : Guarded withDirectory (history ++ [.killed]) :=
        hg.snoc (by simp) (fun _ => by rw [hh]; rfl)
      have hheld : holdings (history ++ [.killed]) = ⟨withDirectory, true⟩ := by
        rw [holdings_append, hh]
        rfl
      simpa using hawaited hkilled hheld
  · rw [holdings_append, hh]
    cases he <;> cases withDirectory <;> rfl

theorem Stands.guarded {withDirectory : Bool} {t : Transfer} (h : Stands withDirectory t) :
    Guarded withDirectory t.history := by
  have hg := guarded_begun withDirectory
  cases h with
  | live _ _ hh => rwa [hh]
  | ended _ he hh =>
    rw [hh]
    exact (guarded_over hg (holdings_begun _) he).1

theorem Stands.holdings_of_done {withDirectory : Bool} {t : Transfer} (h : Stands withDirectory t)
    (hd : t.done = true) : holdings t.history = {} := by
  cases h with
  | live hd' => simp [hd] at hd'
  | ended _ he hh =>
    rw [hh]
    exact (guarded_over (guarded_begun _) (holdings_begun _) he).2

end Transfer

/-! ## Pushes -/

namespace Container

/-- The header of a push carries credentials of a user. -/
def Authorizes (header : String) : Prop :=
  header.isEmpty = false ∧
    ∃ auth, Credentials.ofHeader header = .ok auth ∧ auth.username ≠ ""

/-- What comes of the throwaway directory of a push: why there is none, or that it is there exactly
if there are credentials for it. -/
inductive Authorized (m : Machine) (header : String) :
    Traced (Option (String × Authorization.Directory)) → Prop
  | undecodable (hn : header.isEmpty = false) {fault : Chain}
      (h : Credentials.ofHeader header = .error fault) : Authorized m header (.error fault, [])
  | unprepared {trouble : Files.Trouble} (h : m.throwaway = .error trouble) (fault : Chain) :
      Authorized m header (.error fault, [])
  | unfilled {directory : Authorization.Directory} {fault : Chain}
      (h : m.fillingFault? directory = some fault) :
      Authorized m header (.error fault, [.prepared, .cleared])
  | made {directory : Option (String × Authorization.Directory)}
      (h : directory.isSome = true ↔ Authorizes header) :
      Authorized m header (.ok directory, Transfer.preparation directory.isSome)

theorem authorize_authorized (c : Container) (m : Machine) (reference header : String) :
    Authorized m header (c.authorize m reference header) := by
  unfold authorize
  cases hn : header.isEmpty with
  | true => exact .made (by simp [Authorizes, hn])
  | false =>
    cases hc : Credentials.ofHeader header with
    | error fault => exact .undecodable hn hc
    | ok auth =>
      cases ha : auth.isAnonymous with
      | true =>
        have hnone : ¬Authorizes header := fun ⟨_, auth', hc', ha'⟩ => by
          obtain rfl : auth = auth' := by simpa [hc] using hc'
          exact ha' (Credentials.isAnonymous_iff.1 ha)
        have hmade : Authorized m header (.ok none, []) := .made (by simpa using hnone)
        simpa [ha] using hmade
      | false =>
        have hnamed : auth.username ≠ "" := mt Credentials.isAnonymous_iff.2 (by simp [ha])
        have hsome : Authorizes header := ⟨hn, auth, hc, hnamed⟩
        simp only [ha, Bool.false_eq_true, if_false]
        cases hm : m.throwaway with
        | error trouble => exact .unprepared hm _
        | ok path =>
          dsimp only
          split
          · exact .unfilled ‹_›
          · have hmade (d : String × Authorization.Directory) :
                Authorized m header (.ok (some d), [.prepared]) := .made (by simpa using hsome)
            exact hmade _

/-- What comes of the start of a push: it is refused, without a directory or with one that is
cleared, or the program is started behind the directory. -/
inductive Opens (c : Container) (m : Machine) (now : Request) (header : String) :
    Traced Started → Prop
  | unauthorized {fault : Chain} {history : List Milestone}
      (h : Authorized m header (.error fault, history)) : Opens c m now header (.error fault, history)
  | unstarted {fault : Chain} (h : c.launch m now = .error fault) (hasDirectory : Bool) :
      Opens c m now header
        (.error fault, Transfer.preparation hasDirectory ++ Transfer.clearing hasDirectory)
  | started (s : Started) (h : c.launch m now = .ok ())
      (hs : s.directory.isSome = true ↔ Authorizes header) :
      Opens c m now header (.ok s, Transfer.preparation s.directory.isSome ++ [.started])

theorem opening_opens (c : Container) (m : Machine) (reference header : String)
    (cancelled : Bool) :
    Opens c m ⟨.push reference header, cancelled⟩ header
      (c.opening m ⟨.push reference header, cancelled⟩) := by
  have ha := authorize_authorized c m reference header
  unfold opening callDirectory
  dsimp only
  generalize c.authorize m reference header = x at ha
  cases ha with
  | undecodable hn h => exact .unauthorized (.undecodable hn h)
  | unprepared h fault => exact .unauthorized (.unprepared h fault)
  | unfilled h => exact .unauthorized (.unfilled h)
  | @made directory h =>
    dsimp only
    cases hl : c.launch m ⟨.push reference header, cancelled⟩ with
    | error fault => exact .unstarted hl _
    | ok _ =>
      have hsome : (directory.map (·.2)).isSome = directory.isSome := by cases directory <;> rfl
      rw [← hsome] at h ⊢
      exact .started _ hl h

theorem refused_holds_nothing {c : Container} {m : Machine} {now : Request} {header : String}
    {fault : Chain} {history : List Milestone}
    (h : Opens c m now header (.error fault, history)) :
    Milestone.started ∉ history ∧ holdings history = {} := by
  cases h with
  | unauthorized h => cases h <;> exact ⟨by simp, rfl⟩
  | unstarted h hasDirectory =>
    cases hasDirectory <;> exact ⟨by simp [Transfer.preparation, Transfer.clearing], rfl⟩

/-- **Credentials on disk live as long as the program that reads them.** A push that is rejected
has started no program, and its directory is cleared. Else the stream is that of a transfer whose
directory is there if the header carries credentials. However the stream is read, interrupted or
given up, at every point of its history the directory is there when the program is started and as
long as it was not waited for; when the stream is done, as it is when it was given up, the program
was waited for and the directory cleared behind that. -/
theorem push_guards (c : Container) (m : Machine) (past : List Request)
    (reference header : String) (cancelled : Bool) :
    match c.opening m ⟨.push reference header, cancelled⟩ with
    | (.error fault, history) =>
      (c.engine m past ⟨.push reference header, cancelled⟩).answer = .error fault ∧
        Milestone.started ∉ history ∧ holdings history = {}
    | (.ok s, history) =>
      (s.directory.isSome = true ↔ Authorizes header) ∧
      ∃ t : Transfer, t.history = history ∧
        (c.engine m past ⟨.push reference header, cancelled⟩).answer =
          .ok (Transfer.stream (Transfer.happenings (m.programs past s.invocation)) t) ∧
        (∀ moves, ∃ us,
          ((Reading.start (m.programs past s.invocation) t).play moves).transfer = t.uses us) ∧
        ∀ us, Guarded s.directory.isSome (t.uses us).history ∧
          ((t.uses us).done = false → (t.uses us).history = history) ∧
          ((t.uses us).done = true →
            holdings (t.uses us).history = {} ∧
            ∃ ending, Transfer.Ending ending ∧ (t.uses us).history =
              history ++ (ending ++ Transfer.clearing s.directory.isSome)) ∧
          (.drop ∈ us → (t.uses us).done = true) := by
  have hopens := opening_opens c m reference header cancelled
  have hanswer : c.begin m ⟨.push reference header, cancelled⟩ =
    (c.opening m ⟨.push reference header, cancelled⟩).1 := rfl
  generalize c.opening m ⟨.push reference header, cancelled⟩ = x at hopens hanswer
  obtain ⟨_ | s, history⟩ := x
  · refine ⟨?_, refused_holds_nothing hopens⟩
    unfold engine
    rw [hanswer]
    rfl
  · cases hopens with
    | started _ hl hs =>
      refine ⟨hs, .started (c.describe (.push reference header)) s.directory.isSome, rfl, ?_,
        fun moves => Transfer.exists_uses_play _ moves, fun us => ?_⟩
      · unfold engine
        rw [hanswer]
        rfl
      · have hstands := (Transfer.Stands.started (c.describe (.push reference header))
          s.directory.isSome).uses us
        refine ⟨hstands.guarded, fun hd => ?_, fun hd => ⟨hstands.holdings_of_done hd, ?_⟩,
          Transfer.done_of_drop_mem _⟩
        · cases hstands with
          | live _ _ hh => exact hh
          | ended hd' => simp [hd] at hd'
        · cases hstands with
          | live hd' => simp [hd] at hd'
          | ended _ he hh => exact ⟨_, he, hh⟩

end Container

end ImageRelay
