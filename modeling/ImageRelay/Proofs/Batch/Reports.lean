import ImageRelay.Proofs.Batch.Runs

/-!
# Reports

What the check of a report says of its results, and the lines in which a report is shown.

* `Report.check_eq_ok_iff`, `Report.check_eq_error`: whether a batch succeeded, and how it failed.
* `Covers.check_iff`: a report on the images of a batch passes its check exactly if every image has
  a result and all of them are successes.
* `Report.summary_eq`: there is an entry for each result, in order.
-/

set_option autoImplicit false

namespace ImageRelay

/-! ## The check of a report -/

namespace Report

theorem successes_add_failures (r : Report) : r.successes + r.failures = r.results.length :=
  Nat.sub_add_cancel List.countP_le_length

theorem failures_eq_zero_iff {r : Report} :
    r.failures = 0 ↔ ∀ e ∈ r.results, e.isSuccess = true := by
  simp [failures, List.countP_eq_zero]

theorem check_eq_ok_iff {r : Report} :
    r.check = .ok () ↔ r.cancelled = false ∧ ∀ e ∈ r.results, e.isSuccess = true := by
  rw [← failures_eq_zero_iff, check]
  cases r.cancelled <;> by_cases hf : r.failures = 0 <;> simp [hf]

/-- A batch that did not succeed was stopped, or it is told how many images failed. -/
theorem check_eq_error {r : Report} (h : r.check ≠ .ok ()) :
    r.check = .error (if r.cancelled then .cancelled
      else .batchFailed r.operation r.failures r.results.length) := by
  cases hc : r.cancelled with
  | true => simp [check, hc]
  | false =>
    have hf : r.failures ≠ 0 := fun hf => h (by simp [check, hc, hf])
    simp [check, hc, hf]

/-! ## Entries -/

/-- The mark of an image. -/
def markOf (e : ImageResult) : String := if e.isSuccess then "✓" else "✗"

/-- The first line of the entry of an image: its mark, its reference, and the error if it failed. -/
def headingOf (e : ImageResult) : String :=
  markOf e ++ " " ++ e.reference ++ (e.error?.elim "" fun error => ": " ++ error.message)

/-- What stands below the first line: what was removed. -/
def detailsOf (e : ImageResult) : List String :=
  match e.outcome with
  | .removed items => items.flatMap fun i =>
      (i.untagged.toList.map fun u => s!"    Untagged: {u}") ++
        i.deleted.toList.map fun d => s!"    Deleted: {d}"
  | .done | .failed _ => []

/-- The line is indented. -/
def Indented (line : String) : Prop := ∃ rest, line = "    " ++ rest

theorem entryLines_eq (e : ImageResult) : entryLines e = headingOf e :: detailsOf e := by
  obtain ⟨name, reference, operation, outcome⟩ := e
  cases outcome with
  | done => exact congrArg (· :: _) (String.append_empty (s := "✓ " ++ reference)).symm
  | failed error =>
    exact congrArg (· :: _)
      (@String.append_assoc ("✗ " ++ reference) ": " error.message)
  | removed items => exact congrArg (· :: _) (String.append_empty (s := "✓ " ++ reference)).symm

theorem indented_detailsOf {e : ImageResult} {l : String} (h : l ∈ detailsOf e) : Indented l := by
  unfold detailsOf at h
  split at h
  · obtain ⟨i, -, hl⟩ := List.mem_flatMap.1 h
    rcases List.mem_append.1 hl with hl | hl
    · obtain ⟨u, -, rfl⟩ := List.mem_map.1 hl
      exact ⟨"Untagged: " ++ u, @String.append_assoc "    " "Untagged: " u⟩
    · obtain ⟨d, -, rfl⟩ := List.mem_map.1 hl
      exact ⟨"Deleted: " ++ d, @String.append_assoc "    " "Deleted: " d⟩
  · cases h
  · cases h

/-- The lines in which a report is shown: an entry for each result, and that it was stopped. -/
theorem summary_eq (r : Report) :
    r.summary = r.results.flatMap (fun e => headingOf e :: detailsOf e) ++
      if r.cancelled then ["Interrupted"] else [] := by
  rw [← funext entryLines_eq]
  rfl

end Report

namespace Batch

/-! ## Reports on the images of a batch -/

namespace Covers

variable {r : Report} {token : Bool} {images : List Image} {k : Nat}

/-- Images are left out only of a batch that was stopped. -/
theorem entries_eq (h : Covers r token images k) (hc : r.cancelled = false) :
    r.results.map (fun e => (e.name, e.reference)) =
      images.map fun i => (i.name, i.reference) := by
  have hk : ¬ k < images.length := fun hk => by
    rw [h.cancelled.2 (.inl hk)] at hc
    cases hc
  rw [h.entries, List.take_of_length_le (Nat.not_lt.1 hk)]

/-- A batch with a result for every image was stopped only if the last image failed. -/
theorem not_cancelled (h : Covers r token images k)
    (hall : r.results.map (fun e => (e.name, e.reference)) =
      images.map fun i => (i.name, i.reference))
    (hs : ∀ e ∈ r.results, e.isSuccess = true) : r.cancelled = false := by
  have hlen := congrArg List.length (h.entries.symm.trans hall)
  rw [List.length_map, List.length_map, List.length_take] at hlen
  refine Bool.eq_false_iff.2 fun hc => ?_
  rcases h.cancelled.1 hc with hk | ⟨e, he, hfailed, -⟩
  · omega
  · rw [hs e (List.mem_of_getLast? he)] at hfailed
    cases hfailed

theorem check_iff (h : Covers r token images k) : r.check = .ok () ↔
    r.results.map (fun e => (e.name, e.reference)) = images.map (fun i => (i.name, i.reference)) ∧
      ∀ e ∈ r.results, e.isSuccess = true := by
  rw [Report.check_eq_ok_iff]
  exact and_congr_left fun hs => ⟨h.entries_eq, fun hall => h.not_cancelled hall hs⟩

end Covers

end Batch

end ImageRelay
