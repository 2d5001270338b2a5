import ImageRelay.Batch.Run
import ImageRelay.Proofs.Session

/-!
# The loop of a batch

`Runs jobs s rs stopped s'`: the jobs, done in order from `s`, give the results `rs` and end in
`s'`. There are four ways on: no job is left (`done`), the token is raised before a job (`barred`)
or behind a failed one (`interrupted`), or the loop goes on behind a job (`next`). `runs_runJobs`
says that this is what `runJobs` does; what holds of every batch is proved by induction on `Runs`.

`reports_cover`: a report has one result for each of the first images of its batch, and it tells of
a cancellation exactly if images were left out or the last one failed with the token raised.
-/

set_option autoImplicit false

namespace ImageRelay.Batch

/-! ## The loop as a relation -/

/-- The jobs are done in order (module doc). -/
inductive Runs : List Job → Session → List ImageResult → Bool → Session → Prop
  | done (s : Session) : Runs [] s [] false s
  | barred {j : Job} {rest : List Job} {s : Session} (hs : s.cancelled = true) :
      Runs (j :: rest) s [] true s
  | interrupted {j : Job} {rest : List Job} {s : Session} (hs : s.cancelled = false)
      (hr : (runJob j s).1.isSuccess = false) (hc : (runJob j s).2.cancelled = true) :
      Runs (j :: rest) s [(runJob j s).1] true (runJob j s).2
  | next {j : Job} {rest : List Job} {s s' : Session} {rs : List ImageResult} {stopped : Bool}
      (hs : s.cancelled = false)
      (hn : (runJob j s).1.isSuccess = true ∨ (runJob j s).2.cancelled = false)
      (hrest : Runs rest (runJob j s).2 rs stopped s') :
      Runs (j :: rest) s ((runJob j s).1 :: rs) stopped s'

theorem runs_runJobs : ∀ (jobs : List Job) (s : Session),
    Runs jobs s (runJobs jobs s).1.1 (runJobs jobs s).1.2 (runJobs jobs s).2
  | [], s => .done s
  | j :: rest, s => by
    cases hs : s.cancelled with
    | true => simpa [runJobs, hs] using Runs.barred hs
    | false =>
      have ih := runs_runJobs rest (runJob j s).2
      cases hr : (runJob j s).1.isSuccess <;> cases hc : (runJob j s).2.cancelled
      · simpa [runJobs, hs, hr, hc] using Runs.next hs (.inr hc) ih
      · simpa [runJobs, hs, hr, hc] using @Runs.interrupted j rest s hs hr hc
      · simpa [runJobs, hs, hr, hc] using Runs.next hs (.inl hr) ih
      · simpa [runJobs, hs, hr, hc] using Runs.next hs (.inl hr) ih

namespace Runs

variable {jobs : List Job} {s s' : Session} {rs : List ImageResult} {stopped : Bool}

/-- Nothing is done behind a raised token. -/
theorem of_cancelled (h : Runs jobs s rs stopped s') (hs : s.cancelled = true) :
    rs = [] ∧ s' = s ∧ stopped = !jobs.isEmpty := by
  cases h with
  | done => exact ⟨rfl, rfl, rfl⟩
  | barred => exact ⟨rfl, rfl, rfl⟩
  | interrupted h' | next h' => rw [hs] at h'; cases h'

theorem length_le (h : Runs jobs s rs stopped s') : rs.length ≤ jobs.length := by
  induction h with
  | done | barred | interrupted => simp
  | next _ _ _ ih => simpa using ih

/-- Jobs are left out only behind a raised token. -/
theorem cancelled_of_length_lt (h : Runs jobs s rs stopped s') (hl : rs.length < jobs.length) :
    s'.cancelled = true := by
  induction h with
  | done => simp at hl
  | barred hs => exact hs
  | interrupted _ _ hc => exact hc
  | next _ _ _ ih => exact ih (by simpa using hl)

/-- The loop was stopped exactly if jobs are left out or the last job failed and the token is
raised. -/
theorem stopped_iff (h : Runs jobs s rs stopped s') :
    stopped = true ↔ rs.length < jobs.length ∨
      ∃ r, rs.getLast? = some r ∧ r.isSuccess = false ∧ s'.cancelled = true := by
  induction h with
  | done => simp
  | barred => simp
  | interrupted _ hr hc => simp [hr, hc]
  | @next j rest s s' rs stopped _ hn hrest ih =>
    rw [ih, List.length_cons, List.length_cons, Nat.add_lt_add_iff_right]
    cases rs with
    | cons r rs => simp [List.getLast?_cons]
    | nil =>
      -- the last job did not fail with the token raised, unless jobs are left out
      cases hrest with
      | done => rcases hn with hn | hn <;> simp [hn]
      | barred => simp

/-- The results belong to the first jobs, one to each. -/
theorem map_eq {α β : Type} {f : α → Job} {key : ImageResult → β} {g : α → β}
    (hf : ∀ a s, key (runJob (f a) s).1 = g a) :
    ∀ {as : List α} {s s' : Session} {rs : List ImageResult} {stopped : Bool},
      Runs (as.map f) s rs stopped s' → rs.map key = (as.take rs.length).map g
  | [], _, _, _, _, .done _ => rfl
  | _ :: _, _, _, _, _, .barred _ => rfl
  | a :: _, s, _, _, _, .interrupted _ _ _ => by simp [hf a s]
  | a :: _, s, _, _, _, .next _ _ hrest => by simp [hf a s, map_eq hf hrest]

end Runs

/-! ## Visits -/

/-- What was done with one item of a batch. -/
structure Visit (α : Type) where
  item : α
  result : ImageResult
  history : List Moment

theorem runJob_leads {j : Job} {s : Session} {h : List Moment} (l : s.Leads h (j s).2) :
    ∃ told, s.Leads (h ++ told) (runJob j s).2 ∧ Moment.Quiet told :=
  ⟨_, l.trans (Session.leads_tellAll _ _), Moment.quiet_told _⟩

/-- What holds of every job whose token is not raised, given the requests before it, holds of every
visit of a batch. -/
theorem Runs.visits_from {α : Type} {f : α → Job}
    {P : List Request → α → ImageResult → List Moment → Prop}
    (hP : ∀ a s, s.cancelled = false →
      ∃ h, s.Leads h (runJob (f a) s).2 ∧ P s.requests a (runJob (f a) s).1 h) :
    ∀ {as : List α} {s s' : Session} {rs : List ImageResult} {stopped : Bool},
      Runs (as.map f) s rs stopped s' → ∃ visits : List (Visit α),
        visits.map (·.item) = as.take rs.length ∧ visits.map (·.result) = rs ∧
        s.Leads (visits.flatMap (·.history)) s' ∧
        ∀ before v after, visits = before ++ v :: after →
          P (s.requests ++ Moment.calls (before.flatMap (·.history))) v.item v.result v.history
  | [], s, _, _, _, .done _ => ⟨[], rfl, rfl, .refl s, by simp⟩
  | _ :: _, s, _, _, _, .barred _ => ⟨[], rfl, rfl, .refl s, by simp⟩
  | a :: _, s, _, _, _, .interrupted hs _ _ => by
    obtain ⟨h, hl, hp⟩ := hP a s hs
    refine ⟨[⟨a, _, h⟩], rfl, rfl, by simpa using hl, fun before v after heq => ?_⟩
    rcases List.cons_eq_append_iff.1 heq with ⟨rfl, hcons⟩ | ⟨_, _, hmid⟩
    · obtain ⟨rfl, -⟩ := List.cons.inj hcons
      simpa using hp
    · simp at hmid
  | a :: _, s, _, _, _, .next hs _ hrest => by
    obtain ⟨h, hl, hp⟩ := hP a s hs
    obtain ⟨visits, hi, hr, hl', hall⟩ := Runs.visits_from hP hrest
    refine ⟨⟨a, (runJob (f a) s).1, h⟩ :: visits, by simp [hi], by simp [hr],
      by simpa using hl.trans hl', fun before v after heq => ?_⟩
    rcases List.cons_eq_append_iff.1 heq with ⟨rfl, hcons⟩ | ⟨mid, rfl, hmid⟩
    · obtain ⟨rfl, -⟩ := List.cons.inj hcons
      simpa using hp
    · have hv := hall mid v after hmid
      rwa [hl.requests, List.append_assoc, ← Moment.calls_append] at hv

/-- What holds of every job whose token is not raised holds of every visit of a batch. -/
theorem Runs.visits {α : Type} {f : α → Job} {P : α → ImageResult → List Moment → Prop}
    (hP : ∀ a s, s.cancelled = false →
      ∃ h, s.Leads h (runJob (f a) s).2 ∧ P a (runJob (f a) s).1 h)
    {as : List α} {s s' : Session} {rs : List ImageResult} {stopped : Bool}
    (hr : Runs (as.map f) s rs stopped s') : ∃ visits : List (Visit α),
      visits.map (·.item) = as.take rs.length ∧ visits.map (·.result) = rs ∧
      s.Leads (visits.flatMap (·.history)) s' ∧ ∀ v ∈ visits, P v.item v.result v.history := by
  obtain ⟨visits, hi, hrs, hl, hall⟩ := Runs.visits_from (P := fun _ => P) hP hr
  refine ⟨visits, hi, hrs, hl, fun v hv => ?_⟩
  obtain ⟨before, after, heq⟩ := List.append_of_mem hv
  exact hall before v after heq

/-! ## Reports -/

/-- A report on the first `k` of some images, at the end of which the token is raised if `token`
says so. -/
structure Covers (r : Report) (token : Bool) (images : List Image) (k : Nat) : Prop where
  le : k ≤ images.length
  entries : r.results.map (fun e => (e.name, e.reference)) =
    (images.take k).map fun i => (i.name, i.reference)
  cancelled : r.cancelled = true ↔ k < images.length ∨
    ∃ e, r.results.getLast? = some e ∧ e.isSuccess = false ∧ token = true
  complete : token = false → k = images.length ∧ r.cancelled = false
  succeeded : ∀ e, k = images.length → r.results.getLast? = some e → e.isSuccess = true →
    r.cancelled = false

/-- Images are left out only where the token is raised; the rest follows. -/
theorem Covers.of_left {r : Report} {token : Bool} {images : List Image} {k : Nat}
    (le : k ≤ images.length)
    (entries : r.results.map (fun e => (e.name, e.reference)) =
      (images.take k).map fun i => (i.name, i.reference))
    (cancelled : r.cancelled = true ↔ k < images.length ∨
      ∃ e, r.results.getLast? = some e ∧ e.isSuccess = false ∧ token = true)
    (left : k < images.length → token = true) : Covers r token images k where
  le := le
  entries := entries
  cancelled := cancelled
  complete ht := by
    have hk : ¬ k < images.length := fun hl => by rw [left hl] at ht; cases ht
    refine ⟨by omega, Bool.eq_false_iff.2 fun hc => ?_⟩
    rcases cancelled.1 hc with hl | ⟨_, _, _, ht'⟩
    · exact hk hl
    · rw [ht'] at ht; cases ht
  succeeded e hk he hs := Bool.eq_false_iff.2 fun hc => by
    rcases cancelled.1 hc with hl | ⟨e', he', hf, _⟩
    · omega
    · rw [he, Option.some.injEq] at he'
      subst he'
      rw [hs] at hf; cases hf

/-- A batch of jobs that each report on their image covers the images. -/
theorem covers_run {α : Type} {f : α → Job} (image : α → Image) (operation : Operation)
    (hf : ∀ a s, (f a s).1.name = (image a).name ∧ (f a s).1.reference = (image a).reference)
    (as : List α) (s : Session) :
    ∃ k, Covers (run operation (as.map f) s).1 (run operation (as.map f) s).2.cancelled
      (as.map image) k := by
  have hr := runs_runJobs (as.map f) s
  have hent : (runJobs (as.map f) s).1.1.map (fun e => (e.name, e.reference)) =
      (as.take (runJobs (as.map f) s).1.1.length).map
        fun a => ((image a).name, (image a).reference) :=
    hr.map_eq fun a s => Prod.ext (hf a s).1 (hf a s).2
  have hlen : (as.map f).length = (as.map image).length := by rw [List.length_map, List.length_map]
  refine ⟨(runJobs (as.map f) s).1.1.length, .of_left ?_ ?_ ?_ ?_⟩
  · exact hlen ▸ hr.length_le
  · rw [← List.map_take, List.map_map]
    exact hent
  · exact hlen ▸ hr.stopped_iff
  · exact hlen ▸ hr.cancelled_of_length_lt

theorem deleteImage_entry (w : Surroundings) (i : Image) (s : Session) :
    (deleteImage w i s).1.name = i.name ∧ (deleteImage w i s).1.reference = i.reference := by
  unfold deleteImage
  split <;> exact ⟨rfl, rfl⟩

theorem pushImage_entry (w : Surroundings) (o : Options) (c : Credentials) (i t : Image)
    (s : Session) : (pushImage w o c i t s).1.name = t.name ∧
      (pushImage w o c i t s).1.reference = t.reference := by
  unfold pushImage
  split <;> exact ⟨rfl, rfl⟩

/-- The images that a set is pushed as: their counterparts of the same name in another set. -/
def counterparts (source destination : ImageSet) : List Image :=
  source.images.filterMap fun i => destination.get? i.name

theorem map_snd_pairs (source destination : ImageSet) :
    (pairs source destination).map (·.2) = counterparts source destination := by
  simp [pairs, counterparts, List.map_filterMap, Function.comp_def]

theorem name_of_get? {set : ImageSet} {name : String} {i : Image} (h : set.get? name = some i) :
    i.name = name := by
  simpa using List.find?_some h

/-- The counterparts are in name order, too. -/
theorem sorted_counterparts (source destination : ImageSet) :
    (counterparts source destination).Pairwise (·.name < ·.name) := by
  refine List.Pairwise.filterMap _ (fun i j hij t ht u hu => ?_) source.sorted
  rw [name_of_get? ht, name_of_get? hu]
  exact hij

/-- **Reports of batches**: of every batch there is exactly one result for each of the first
images, in name order, and the report tells of a cancellation exactly if images were left out or the
last one failed with the token raised. -/
theorem reports_cover (w : Surroundings) (o : Options) (set source destination : ImageSet)
    (c : Credentials) (s : Session) :
    (∃ k, Covers (pullAll w set s).1 (pullAll w set s).2.cancelled set.images k) ∧
    (∃ k, Covers (deleteAll w set s).1 (deleteAll w set s).2.cancelled set.images k) ∧
    (∃ k, Covers (pushAll w o source destination c s).1
      (pushAll w o source destination c s).2.cancelled (counterparts source destination) k) ∧
    set.images.Pairwise (·.name < ·.name) ∧
    (counterparts source destination).Pairwise (·.name < ·.name) := by
  refine ⟨?_, ?_, ?_, set.sorted, sorted_counterparts source destination⟩
  · simpa [pullAll] using covers_run (f := pullImage w) id .pull (fun _ _ => ⟨rfl, rfl⟩)
      set.images s
  · simpa [deleteAll] using covers_run id .delete (deleteImage_entry w) set.images s
  · rw [← map_snd_pairs]
    exact covers_run Prod.snd .push (fun p => pushImage_entry w o c p.1 p.2) _ _

end ImageRelay.Batch
