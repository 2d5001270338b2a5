import ImageRelay.Engine.Container
import ImageRelay.Proofs.Batch.Archives
import ImageRelay.Proofs.Command.Conclusion
import ImageRelay.Proofs.Engine.DryRun

/-!
# Dry runs

A dry run of a command tells what the command would do: it finds out the same, and its batch has the
same plan. So with an engine of which every call succeeds both make the calls of this plan, and the
dry run tells of each of them in the words for it (`rehearsals_match`). A download is rehearsed
without any call.
-/

set_option autoImplicit false

namespace ImageRelay

/-- The bench of a dry run. -/
def Bench.dry (b : Bench) : Bench := { b with engine := DryRun.engine, dryRun := true }

namespace Command

open Batch

variable {b : Bench} {sel : Selection} {s : Session}

theorem Finds.dry {v : KubeVersion} (h : Finds b sel s v) : Finds b.dry sel s v :=
  ⟨h.plugin, h.version⟩

/-- A dry run starts the same batch; a deletion need not be confirmed for it. -/
theorem Starts.dry {t : Work} {d : Duty} (h : Starts b sel s t d) : Starts b.dry sel s t d := by
  cases h with
  | pull hv hset => exact .pull hv.dry hset
  | push hn hv hsource hdest hc => exact .push hn hv.dry hsource hdest hc
  | delete hv hset hc =>
    exact .delete hv.dry hset fun _ _ hdry => absurd hdry.symm Bool.false_ne_true

/-! ## Batch commands -/

/-- A dry run makes the calls of the plan and tells of each of them, whatever the real run would
come to. -/
theorem Starts.dry_step {t : Work} {d : Duty} (h : Starts b sel s t d) (hs : s.cancelled = false) :
    (t.step b.dry sel s).1 = .ok () ∧ Makes d.plan s (t.step b.dry sel s).2 ∧
      ∃ h, s.Leads h (t.step b.dry sel s).2 ∧ DryRun.Announced h := by
  obtain ⟨es, hstep⟩ := h.dry.step_eq
  have hpeace : DryRun.Peaceful b.dry.surroundings := DryRun.peaceful_surroundings rfl
  obtain ⟨hmakes, hcheck, h, hl, ha⟩ :=
    DryRun.rehearses hpeace b.dry.options d (s := s.tellAll es) hs
  rw [hstep]
  have hbefore := DryRun.announced_of_calls_nil (Moment.quiet_told es).calls
  have hsummary := (Moment.quiet_told
    ((d.run b.dry.surroundings b.dry.options (s.tellAll es)).1.summary.map .line)).calls
  exact ⟨mapError_eq_ok_iff.2 hcheck, hmakes, _,
    ((Session.leads_tellAll s es).trans hl).trans (Session.leads_tellAll _ _),
    (hbefore.append ha).append (DryRun.announced_of_calls_nil hsummary)⟩

theorem actions_of_calls (calls : List Call) :
    DryRun.actions (calls.map (⟨·, false⟩)) = calls.map DryRun.wording := by
  induction calls with
  | nil => rfl
  | cons c calls ih =>
    have hcons : DryRun.actions ((c :: calls).map (⟨·, false⟩)) =
        DryRun.action c :: DryRun.actions (calls.map (⟨·, false⟩)) := rfl
    rw [hcons, ih, DryRun.action_eq_wording, List.map_cons]

theorem calls_of_made (calls : List Call) :
    (calls.map (⟨·, false⟩ : Call → Request)).map (·.call) = calls := by
  rw [List.map_map]
  exact List.map_id calls

/-- A command and its dry run: both succeed and make the calls of the plan, and what the dry run
records and tells are the words for the calls of the command, one for one and in order. -/
structure Rehearsed (d : Duty) (s : Session) (real dry : Except Failure Unit × Session) : Prop where
  real_ok : real.1 = .ok ()
  dry_ok : dry.1 = .ok ()
  actions : ∃ made told, real.2.requests = s.requests ++ made ∧ made.map (·.call) = d.plan ∧
    dry.2.requests = s.requests ++ told ∧ told.map (·.call) = d.plan ∧
    DryRun.actions told = made.map fun r => DryRun.wording r.call
  announced : ∃ h, dry.2.history = s.history ++ h ∧ (Moment.calls h).map (·.call) = d.plan ∧
    DryRun.Announced h

theorem Starts.rehearsed {t : Work} {d : Duty} (h : Starts b sel s t d)
    (hgrants : ∀ made, (t.step b sel s).2.requests = s.requests ++ made →
      b.engine.Grants s.requests (made.map (·.call)))
    (hend : (t.step b sel s).2.cancelled = false) :
    Rehearsed d s (t.step b sel s) (t.step b.dry sel s) := by
  obtain ⟨es, hstep⟩ := h.step_eq
  have hrun : (d.run b.surroundings b.options (s.tellAll es)).2.cancelled = false := by
    rw [hstep] at hend
    exact hend
  obtain ⟨told, hl⟩ := d.leads b.surroundings b.options (s.tellAll es)
  obtain ⟨cs, hmakes, hgranted⟩ := Duty.run_granted hrun
  have hmade : (t.step b sel s).2.requests = s.requests ++ cs.map (⟨·, false⟩) := by
    rw [hstep]
    exact hmakes
  have hcs := hgrants _ hmade
  rw [calls_of_made] at hcs
  obtain ⟨rfl, hcheck⟩ := hgranted hcs
  obtain ⟨hdry, hmakes', h', hl', ha⟩ := h.dry_step (hl.of_not_cancelled hrun).1
  have hcalls : Moment.calls h' = d.plan.map (⟨·, false⟩) :=
    List.append_cancel_left (hl'.requests.symm.trans hmakes')
  refine ⟨?_, hdry, ⟨_, _, hmade, calls_of_made _, hmakes', calls_of_made _, ?_⟩, h', hl'.history,
    by rw [hcalls, calls_of_made], ha⟩
  · rw [hstep]
    exact mapError_eq_ok_iff.2 hcheck
  · rw [actions_of_calls, List.map_map]
    rfl

/-! ## Downloads -/

/-- What a download comes to, and its dry run. -/
structure DownloadRehearsed (b : Bench) (sel : Selection) (s : Session) (set : ImageSet)
    (output : Option String) (destination : String) : Prop where
  dry : ∃ es, download b.dry sel output s = (.ok (), s.tellAll
    (es ++ [.line ("  [DRY RUN] " ++ s!"save {set.size} image(s) to {destination}")]))
  untouched : (download b.dry sel output s).2.requests = s.requests ∧
    (download b.dry sel output s).2.files = s.files
  real : ∃ es, download b sel output s = saveArchive b set destination (s.tellAll es)
  once : s.cancelled = false → ∀ handle files, s.files.create destination = .ok (handle, files) →
    ∃ references, (download b sel output s).2.requests =
      s.requests ++ [⟨.save references, false⟩] ∧ references.length = set.size

theorem requests_saveArchive (b : Bench) (set : ImageSet) (destination : String) (s : Session) :
    (saveArchive b set destination s).2.requests =
      (Batch.save b.surroundings set.references destination s).2.requests := by
  unfold saveArchive
  dsimp only
  split <;> rfl

theorem download_dry {v : KubeVersion} {set : ImageSet} (output : Option String)
    (hv : Finds b sel s v) (hset : Loads none v s set) : ∃ es, download b.dry sel output s =
      (.ok (), s.tellAll (es ++ [.line ("  [DRY RUN] " ++
        s!"save {set.size} image(s) to {output.getD v.archiveName}")])) := by
  have hcomes : Comes s
      (.tell [DryRun.told s!"save {set.size} image(s) to {output.getD v.archiveName}"])
      (download b.dry sel output) := hv.dry.comes (hset.comes comes_act)
  obtain ⟨es, hes⟩ := hcomes.eq
  refine ⟨es, ?_⟩
  rw [hes, ← s.tellAll_tellAll]
  rfl

theorem download_rehearsed {v : KubeVersion} {set : ImageSet} (output : Option String)
    (hd : b.dryRun = false) (hv : Finds b sel s v) (hset : Loads none v s set) :
    DownloadRehearsed b sel s set output (output.getD v.archiveName) := by
  have hready : Ready b sel s (.download output) (saveArchive b set (output.getD v.archiveName)) :=
    .download hd hv hset
  obtain ⟨es, hreal⟩ := hready.step_eq
  obtain ⟨es', hdry⟩ := download_dry output hv hset
  refine ⟨⟨es', hdry⟩, by rw [hdry]; exact ⟨rfl, rfl⟩, ⟨es, hreal⟩, fun hs handle files hc => ?_⟩
  refine ⟨set.references, ?_, List.length_map _⟩
  change (Work.step b sel (.download output) s).2.requests = _
  rw [hreal, requests_saveArchive]
  exact requests_save _ _ _ (s := s.tellAll es) hs hc

/-- **Dry runs**: a command whose batch starts, and of which every call succeeds with the token
never raised, makes the calls of its plan, and so does its dry run, which records and tells the
words for each of them; both succeed. The dry run of a download makes no call and changes no file;
it tells how many images go into which file. -/
theorem rehearsals_match (b : Bench) (sel : Selection) (s : Session) :
    (∀ t d, Starts b sel s t d →
      (∀ made, (t.step b sel s).2.requests = s.requests ++ made →
        b.engine.Grants s.requests (made.map (·.call))) →
      (t.step b sel s).2.cancelled = false →
      Rehearsed d s (t.step b sel s) (t.step b.dry sel s)) ∧
    (b.dryRun = false → ∀ v set output, Finds b sel s v → Loads none v s set →
      DownloadRehearsed b sel s set output (output.getD v.archiveName)) :=
  ⟨fun _ _ hstarts hgrants hend => hstarts.rehearsed hgrants hend,
    fun hd _ _ output hv hset => download_rehearsed output hd hv hset⟩

/-- A bench with a container engine whose programs end well at once. -/
def installed : Bench where
  engine := Container.engine .docker
    { environment := ⟨[], none⟩
      files := ⟨[(["bin"], .directory), (["bin", "docker"], .file [] true)], []⟩ }
  versions _ _ := (.error (.root "no cluster"), [])

theorem installed_grants (references : List String) :
    ∀ past, installed.engine.Grants past (references.map .pull) := by
  induction references with
  | nil => exact fun _ => trivial
  | cons reference references ih =>
    intro past
    have hpull : answerFault? (installed.engine past ⟨.pull reference, false⟩).answer = none := rfl
    exact ⟨hpull, ih _⟩

/-- A pull with a container engine makes the calls of which its dry run tells, and a download goes
into the file that its dry run names. -/
theorem container_pull_rehearsed :
    ∃ set, Starts installed { version := "v1.18.0" } { files := ⟨[], []⟩ } .pull (.pull set) ∧
      Rehearsed (.pull set) { files := ⟨[], []⟩ }
        (Work.pull.step installed { version := "v1.18.0" } { files := ⟨[], []⟩ })
        (Work.pull.step installed.dry { version := "v1.18.0" } { files := ⟨[], []⟩ }) ∧
      DownloadRehearsed installed { version := "v1.18.0" } { files := ⟨[], []⟩ } set none
        "kubernetes_e2e_images_v1.18.0.tar" := by
  obtain ⟨set, hset⟩ := Catalog.exists_release
  have hstarts : Starts installed { version := "v1.18.0" } { files := ⟨[], []⟩ } .pull
      (.pull set) := .pull ⟨rfl, rfl⟩ ⟨.empty, rfl, hset⟩
  have hmade :
      (Work.pull.step installed { version := "v1.18.0" } { files := ⟨[], []⟩ }).2.requests =
      ["k8s.gcr.io/conformance:v1.18.0", "k8s.gcr.io/hyperkube:v1.18.0",
        "k8s.gcr.io/kube-apiserver:v1.18.0", "k8s.gcr.io/kube-controller-manager:v1.18.0",
        "k8s.gcr.io/kube-proxy:v1.18.0", "k8s.gcr.io/kube-scheduler:v1.18.0"].map
          (⟨.pull ·, false⟩) := by
    decide +kernel
  have hend :
      (Work.pull.step installed { version := "v1.18.0" } { files := ⟨[], []⟩ }).2.cancelled =
        false := by
    decide +kernel
  have hgrants : ∀ made,
      (Work.pull.step installed { version := "v1.18.0" } { files := ⟨[], []⟩ }).2.requests =
        [] ++ made → installed.engine.Grants [] (made.map (·.call)) := by
    intro made h
    rw [hmade, List.nil_append] at h
    rw [← h, List.map_map]
    exact installed_grants _ _
  exact ⟨set, hstarts, (rehearsals_match installed _ _).1 _ _ hstarts hgrants hend,
    (rehearsals_match installed _ _).2 rfl _ _ none ⟨rfl, rfl⟩ ⟨.empty, rfl, hset⟩⟩

end Command

end ImageRelay
