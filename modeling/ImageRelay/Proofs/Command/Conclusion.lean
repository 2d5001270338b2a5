import ImageRelay.Proofs.Batch.Notices
import ImageRelay.Proofs.Batch.Reports
import ImageRelay.Proofs.Command.Readiness
import ImageRelay.Proofs.Registry.References

/-!
# How batch commands end

A pull, a push, or a deletion that is agreed to ends in its batch (`Starts`), and the batch decides
what comes of the command and what is told of it.

* `Concludes`: what comes of a command whose batch has this report. That it succeeds only with a
  result for every image rests on the report covering the images (`Covers.concludes`).
* `commands_conclude`: this, with the account of the batch and the entries in which the report is
  shown, for every command.
-/

set_option autoImplicit false

namespace ImageRelay

namespace Batch

/-! ## What comes of a batch -/

/-- What comes of a command that ends in a batch with this report. -/
structure Concludes (d : Duty) (r : Report) (result : Except Failure Unit) : Prop where
  ok_iff : result = .ok () ↔
    r.results.map (fun e => (e.name, e.reference)) = d.images.map (fun i => (i.name, i.reference)) ∧
      ∀ e ∈ r.results, e.isSuccess = true
  failed : result ≠ .ok () → result = .error (.ofTransfer (if r.cancelled then .cancelled
    else .batchFailed d.operation r.failures d.images.length))
  counts : r.successes + r.failures = r.results.length
  closing : r.closing = if r.cancelled then
    .warn s!"{d.operation.name} cancelled after {r.results.length} image(s)" else .info r.text

theorem Covers.concludes {d : Duty} {r : Report} {token : Bool} {k : Nat}
    (h : Covers r token d.images k) (hop : r.operation = d.operation) :
    Concludes d r (r.check.mapError .ofTransfer) where
  ok_iff := mapError_eq_ok_iff.trans h.check_iff
  failed hne := by
    have hcheck := Report.check_eq_error fun hok => hne (mapError_eq_ok_iff.2 hok)
    cases hc : r.cancelled with
    | true =>
      rw [hcheck, hc]
      rfl
    | false =>
      have hlen := congrArg List.length (h.entries_eq hc)
      rw [List.length_map, List.length_map] at hlen
      rw [hcheck, hc, hop, hlen]
      rfl
  counts := r.successes_add_failures
  closing := by
    rw [← hop]
    rfl

end Batch

namespace Command

open Batch

/-! ## Commands that end in a batch -/

/-- A command has found out all that it needs for its batch, and what the batch is to do. -/
inductive Starts (b : Bench) (sel : Selection) (s : Session) : Work → Duty → Prop
  | pull {v : KubeVersion} {set : ImageSet} (hv : Finds b sel s v) (hset : Loads none v s set) :
      Starts b sel s .pull (.pull set)
  | push {username password : Option String} {v : KubeVersion} {source destination : ImageSet}
      {c : Credentials} (hn : NamesOverride sel) (hv : Finds b sel s v)
      (hsource : Loads none v s source) (hdest : Loads sel.overrideFile v s destination)
      (hc : Obtains b.prompts username password c) :
      Starts b sel s (.push username password) (.push source destination c)
  | delete {yes : Bool} {v : KubeVersion} {set : ImageSet} (hv : Finds b sel s v)
      (hset : Loads sel.overrideFile v s set) (hc : Agreed b yes set.size) :
      Starts b sel s (.delete yes) (.delete set)

section
variable {b : Bench} {sel : Selection} {s : Session} {t : Work} {d : Duty}

theorem Starts.ready (h : Starts b sel s t d) :
    Ready b sel s t (runBatch (d.run b.surroundings b.options)) := by
  cases h with
  | pull hv hset => exact .pull hv hset
  | push hn hv hsource hdest hc => exact .push hn hv hsource hdest hc
  | delete hv hset hc => exact .delete hv hset hc

theorem Starts.step_eq (h : Starts b sel s t d) :
    ∃ es, t.step b sel s = conclude (d.run b.surroundings b.options (s.tellAll es)).1
      (d.run b.surroundings b.options (s.tellAll es)).2 :=
  h.ready.step_eq

/-- **How batch commands end**: a command whose batch starts succeeds exactly if every image of the
batch has a result and all of them are successes; else it tells of the cancellation, or of the
number of failed images. And what it tells agrees with the report: the error of each failed image
and then how the batch has ended, and last an entry for each result. -/
theorem commands_conclude (h : Starts b sel s t d) :
    ∃ es told parts,
      let r := (d.run b.surroundings b.options (s.tellAll es)).1
      Concludes d r (t.step b sel s).1 ∧ Account b.surroundings d r told parts ∧
      (t.step b sel s).2.output = s.output ++ es ++ told ++
        (r.results.flatMap (fun e => Report.headingOf e :: Report.detailsOf e) ++
          if r.cancelled then ["Interrupted"] else []).map .line ∧
      ∀ e ∈ r.results, ∀ l ∈ Report.detailsOf e, Report.Indented l := by
  obtain ⟨es, hstep⟩ := h.step_eq
  obtain ⟨told, parts, houtput, haccount⟩ := d.account b.surroundings b.options (s.tellAll es)
  obtain ⟨k, hcovers⟩ := d.covers b.surroundings b.options (s.tellAll es)
  have hop : (d.run b.surroundings b.options (s.tellAll es)).1.operation = d.operation := by
    rw [d.run_eq]
    rfl
  refine ⟨es, told, parts, ?_, haccount, ?_, fun e _ l => Report.indented_detailsOf⟩
  · rw [hstep]
    exact hcovers.concludes hop
  · rw [hstep, ← Report.summary_eq]
    change (d.run b.surroundings b.options (s.tellAll es)).2.output ++ _ = _
    rw [houtput]
    rfl

/-- A bench whose engine rejects every call. -/
def stubborn : Bench where
  engine _ now := { answer := now.call.rejected (.root "no daemon") }
  versions _ _ := (.error (.root "no cluster"), [])

/-- A pull that fails for all images ends as told. -/
theorem rejected_pull_fails :
    ∃ set es told parts,
      let s : Session := { files := ⟨[], []⟩ }
      let r := (Batch.pullAll stubborn.surroundings set (s.tellAll es)).1
      (pull stubborn { version := "v1.18.0" } s).1 =
        .error (.ofTransfer (.batchFailed .pull 6 6)) ∧
      Starts stubborn { version := "v1.18.0" } s .pull (.pull set) ∧
      Concludes (.pull set) r (.error (.ofTransfer (.batchFailed .pull 6 6))) ∧
      Account stubborn.surroundings (.pull set) r told parts := by
  obtain ⟨set, hset⟩ := Catalog.exists_release
  have hstarts : Starts stubborn { version := "v1.18.0" } { files := ⟨[], []⟩ } .pull (.pull set) :=
    .pull ⟨rfl, rfl⟩ ⟨.empty, rfl, hset⟩
  obtain ⟨es, told, parts, hconcludes, haccount, -, -⟩ := commands_conclude hstarts
  have hfails : (pull stubborn { version := "v1.18.0" } { files := ⟨[], []⟩ }).1 =
      .error (.ofTransfer (.batchFailed .pull 6 6)) := by decide +kernel
  rw [Work.step, hfails] at hconcludes
  exact ⟨set, es, told, parts, hfails, hstarts, hconcludes, haccount⟩

end

end Command

end ImageRelay
