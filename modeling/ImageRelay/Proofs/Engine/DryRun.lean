import ImageRelay.Command.Images
import ImageRelay.Proofs.Batch.Plan
import ImageRelay.Proofs.Session

/-!
# Batches of the dry-run engine

Every call of the dry-run engine succeeds, and the engine never raises the token; an observer that
only tells does not either (`DryRun.Peaceful`). So a batch that begins with the token not raised
makes the calls of its plan, and each of them is followed by the line that tells of it
(`DryRun.rehearses`).

* `DryRun.wording`: the words for a call.
* `DryRun.Announced`: histories in which every call is told of.
* `DryRun.Rehearses`: what every part of a job does, and so every batch.
-/

set_option autoImplicit false

namespace ImageRelay

/-- An observer that tells something at most. -/
def Observer.Tells (o : Observer) : Prop := ∀ past now, ∀ e ∈ o past now, ∃ t, e = .tell t

theorem Observer.tells_lines : Observer.lines.Tells := by
  intro past now e he
  unfold Observer.lines at he
  split at he
  · exact ⟨_, List.mem_singleton.1 he⟩
  · cases he

theorem Observer.tells_spinner : Observer.spinner.Tells := fun _ _ _ he => by cases he

theorem Session.cancelled_applyAll {es : List Effect} (h : ∀ e ∈ es, ∃ t, e = .tell t)
    (s : Session) : (s.applyAll es).cancelled = s.cancelled := by
  have hno : ¬∃ i, Effect.interrupt i ∈ es := by
    rintro ⟨i, hi⟩
    obtain ⟨t, ht⟩ := h _ hi
    cases ht
  rw [Bool.eq_iff_iff, Session.cancelled_applyAll_iff, or_iff_left hno]

namespace Batch

/-- What can be put together, and holds of jobs and of telling, holds of the whole loop. -/
theorem Runs.keeps {P : Session → Session → Prop} (hrefl : ∀ s, P s s)
    (htrans : ∀ {s t u}, P s t → P t u → P s u) (htell : ∀ s es, P s (s.tellAll es))
    {jobs : List Job} {s s' : Session} {rs : List ImageResult} {stopped : Bool}
    (r : Runs jobs s rs stopped s') (hj : ∀ j ∈ jobs, ∀ s, P s (j s).2) : P s s' := by
  have hrun (j : Job) (s : Session) (h : P s (j s).2) : P s (runJob j s).2 :=
    htrans h (htell (j s).2 _)
  induction r with
  | done s => exact hrefl s
  | barred => exact hrefl _
  | @interrupted j rest s => exact hrun j s (hj j List.mem_cons_self s)
  | @next j rest s _ _ _ _ _ _ ih =>
    exact htrans (hrun j s (hj j List.mem_cons_self s))
      (ih fun j' h => hj j' (List.mem_cons_of_mem _ h))

end Batch

namespace DryRun

open Batch Moment

/-! ## What is told of calls -/

/-- The words for a call; of the credentials of a push they tell only whether there are any. -/
def wording : Call → String
  | .pull r => "pull " ++ r
  | .tag s t => "tag " ++ s ++ " " ++ t
  | .push r header => "push " ++ r ++ if header = "" then " anonymously" else " with credentials"
  | .remove r => "remove " ++ r
  | .save rs => "save " ++ " ".intercalate rs

theorem action_eq_wording (c : Call) : action c = wording c := by
  cases c with
  | pull | tag | remove | save => rfl
  | push r header =>
    by_cases h : header = ""
    · subst h
      exact String.append_assoc
    · have hempty : header.isEmpty = false := by simpa using h
      rw [action, wording, if_neg h, hempty]
      exact String.append_assoc

/-- Every call is followed at once by the line that tells of it. -/
def Announced (h : List Moment) : Prop :=
  ∀ (before after : List Moment) (r : Request) (answer : r.call.Answer),
    h = before ++ .called r answer :: after →
      ∃ rest, after = .told (.line ("  [DRY RUN] " ++ wording r.call)) :: rest

theorem announced_of_calls_nil {h : List Moment} (hc : calls h = []) : Announced h := by
  rintro before after r answer rfl
  simp at hc

theorem Announced.append {h h' : List Moment} (a : Announced h) (a' : Announced h') :
    Announced (h ++ h') := by
  intro before after r answer heq
  rcases cut_append heq with ⟨mid, hmid, rfl⟩ | ⟨mid, rfl, hmid⟩
  · obtain ⟨rest, rfl⟩ := a before mid r answer hmid
    exact ⟨rest ++ h', rfl⟩
  · exact a' mid after r answer hmid

theorem announced_call (r : Request) (answer : r.call.Answer) :
    Announced [.called r answer, .told (.line ("  [DRY RUN] " ++ wording r.call))] := by
  intro before after r' answer' heq
  cases before with
  | nil =>
    obtain ⟨hcall, rfl⟩ := List.cons.inj heq
    cases hcall
    exact ⟨[], rfl⟩
  | cons m before =>
    have hcalls := congrArg calls (List.cons.inj heq).2
    simp at hcalls

/-- With the token not raised, `s` goes on to `s'` without raising it and tells of every call. -/
def Rehearses (s s' : Session) : Prop :=
  s.cancelled = false → s'.cancelled = false ∧ ∃ h, s.Leads h s' ∧ Announced h

theorem Rehearses.of_leads {s s' : Session} {h : List Moment} (l : s.Leads h s')
    (hk : s.cancelled = false → s'.cancelled = false) (hc : calls h = []) : Rehearses s s' :=
  fun hs => ⟨hk hs, h, l, announced_of_calls_nil hc⟩

theorem Rehearses.refl (s : Session) : Rehearses s s := .of_leads (.refl s) id rfl

theorem Rehearses.trans {s t u : Session} (a : Rehearses s t) (b : Rehearses t u) :
    Rehearses s u := by
  intro hs
  obtain ⟨ht, h, hl, ha⟩ := a hs
  obtain ⟨hu, h', hl', ha'⟩ := b ht
  exact ⟨hu, h ++ h', hl.trans hl', ha.append ha'⟩

theorem rehearses_tellAll (s : Session) (es : List Emission) : Rehearses s (s.tellAll es) :=
  .of_leads (Session.leads_tellAll s es) id (quiet_told es).calls

theorem rehearses_settle (w : Surroundings) (operation : Operation) (reference : String)
    (stream : Except Chain ProgressStream) {s : Session}
    (hk : s.cancelled = false → (settle w operation reference stream s).2.cancelled = false) :
    Rehearses s (settle w operation reference stream s).2 := by
  obtain ⟨h, hl, hcalls⟩ := leads_settle w operation reference stream s
  exact .of_leads hl hk hcalls

/-! ## Batches -/

theorem grants (past : List Request) (cs : List Call) : engine.Grants past cs := by
  induction cs generalizing past with
  | nil => trivial
  | cons c cs ih =>
    refine ⟨?_, ih _⟩
    cases c with
    | pull | push | tag => rfl
    | remove | save => exact ⟨_, rfl⟩

/-- Surroundings in which nothing raises the token as long as no push is repeated. -/
structure Peaceful (w : Surroundings) : Prop where
  engine : w.engine = DryRun.engine
  observer : w.observer.Tells

theorem peaceful_surroundings {b : Bench} (h : b.engine = DryRun.engine) :
    Peaceful b.surroundings := by
  refine ⟨h, ?_⟩
  unfold Bench.surroundings
  split
  · exact Observer.tells_spinner
  · exact Observer.tells_lines

section
variable {w : Surroundings} (hw : Peaceful w)
include hw

theorem Peaceful.observe (s : Session) (e : Event) : Rehearses s (s.observe w e) := by
  obtain ⟨q, hq, hquiet⟩ := Session.leads_observe w s e
  exact .of_leads hq (fun hs => (Session.cancelled_applyAll (hw.observer s.events e) _).trans hs)
    (by simp [hquiet.calls])

/-- A call is answered, and told of. -/
theorem Peaceful.request (c : Call) {s : Session} (hs : s.cancelled = false) :
    (s.request w c).1 = answer c ∧ Rehearses s (s.request w c).2 := by
  have hrequest : s.request w c = (answer c, ({ s.record (.called ⟨c, false⟩ (answer c)) with
      requests := s.requests ++ [⟨c, false⟩] } : Session).tell (told (action c))) := by
    obtain ⟨engine, observer, waiting⟩ := w
    obtain ⟨files, cancelled, requests, events, output, history⟩ := s
    obtain rfl : engine = DryRun.engine := hw.engine
    obtain rfl : cancelled = false := hs
    rfl
  have hcalled : s.Leads [.called ⟨c, false⟩ (answer c)]
      { s.record (.called ⟨c, false⟩ (answer c)) with
        requests := s.requests ++ [⟨c, false⟩] } := by
    constructor <;> simp [Session.record]
  have htold := Session.leads_tellAll { s.record (.called ⟨c, false⟩ (answer c)) with
    requests := s.requests ++ [⟨c, false⟩] } [told (action c)]
  rw [hrequest]
  refine ⟨rfl, fun _ => ⟨hs, _, hcalled.trans htold, ?_⟩⟩
  rw [action_eq_wording]
  exact announced_call ⟨c, false⟩ (answer c)

theorem Peaceful.tryPull (reference : String) (s : Session) :
    Rehearses s (tryPull w reference s).2 := by
  intro hs
  obtain ⟨ha, hr⟩ := hw.request (.pull reference) hs
  have hread := hw.observe ((s.request w (.pull reference)).2.record
    (.read (.ok (.ofStatus "skipped (dry run)"))))
    (.message reference (.ofStatus "skipped (dry run)"))
  have hsettle : Rehearses (s.request w (.pull reference)).2 _ :=
    rehearses_settle w .pull reference (answer (.pull reference)) fun hc => (hread hc).1
  rw [← ha] at hsettle
  exact hr.trans hsettle hs

theorem Peaceful.tryPush (reference header : String) (s : Session) :
    Rehearses s (tryPush w reference header s).2 := by
  intro hs
  obtain ⟨ha, hr⟩ := hw.request (.push reference header) hs
  have hsettle : Rehearses (s.request w (.push reference header)).2 _ :=
    rehearses_settle w .push reference (answer (.push reference header)) id
  rw [← ha] at hsettle
  exact hr.trans hsettle hs

theorem Peaceful.deleteImage (i : Image) (s : Session) :
    Rehearses s (deleteImage w i s).2 := by
  intro hs
  obtain ⟨-, hr⟩ := hw.request (.remove i.reference) hs
  unfold Batch.deleteImage
  split
  · rename_i h
    rw [h] at hr
    exact hr.trans (rehearses_tellAll _ _) hs
  · rename_i h
    rw [h] at hr
    exact hr hs

/-- Nothing in a job raises the token: no push is repeated, for none fails. -/
theorem Peaceful.parts (o : Options) : Parts w o Rehearses where
  trans := Rehearses.trans
  observe := hw.observe
  tag _ _ _ hs := (hw.request _ hs).2 hs
  remove s i := hw.deleteImage i s
  pull s reference := hw.tryPull reference s
  push s reference header := hw.tryPush reference header s
  again {s reference header _} attempt hfails hs := by
    have hok := (tryPush_live w reference header s hs).1
    rw [hw.engine, hfails] at hok
    cases hok

theorem Peaceful.run (o : Options) (d : Duty) (s : Session) : Rehearses s (d.run w o s).2 := by
  rw [d.run_eq]
  have hopening := rehearses_tellAll s d.opening
  have hloop := (runs_runJobs (d.items.map (d.job w o)) (s.tellAll d.opening)).keeps
    Rehearses.refl Rehearses.trans rehearses_tellAll fun j hj => by
      obtain ⟨p, -, rfl⟩ := List.mem_map.1 hj
      exact (hw.parts o).job d p
  exact (hopening.trans hloop).trans (rehearses_tellAll _ _)

/-- A batch makes the calls of its plan, tells of each of them, and passes its check. -/
theorem rehearses (o : Options) (d : Duty) {s : Session} (hs : s.cancelled = false) :
    Makes d.plan s (d.run w o s).2 ∧ (d.run w o s).1.check = .ok () ∧
      ∃ h, s.Leads h (d.run w o s).2 ∧ Announced h := by
  obtain ⟨hend, hannounced⟩ := hw.run o d s hs
  obtain ⟨cs, hmakes, hgranted⟩ := Duty.run_granted hend
  rw [hw.engine] at hgranted
  obtain ⟨rfl, hcheck⟩ := hgranted (grants _ _)
  exact ⟨hmakes, hcheck, hannounced⟩

end

end DryRun

end ImageRelay
