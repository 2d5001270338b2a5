import ImageRelay.Batch.Save
import ImageRelay.Proofs.Session

/-!
# Interrupted saves

A save that fails behind a raised token is to be reported as cancelled (`Conceals` is what must not
happen). Of the ways in which it fails two do not look at the token behind them: an archive that
cannot be created, and the rejected export. The token is raised by engines and streams, and nothing
raises it while the archive is created, so a raise in that moment is left out here;
`save_conceals_iff` says that of all other raises those in a rejected export are the ones that are
lost.
-/

set_option autoImplicit false

namespace ImageRelay.Batch

/-- A save failed and the token is raised behind it, but the error is not the cancellation. -/
def Conceals (saved : Saved) (t : Session) : Prop :=
  t.cancelled = true ∧ ∃ e, saved.result = .error e ∧ e ≠ .cancelled

/-- The archive is created, and the export call raises the token and is rejected. -/
structure RejectsRaised (w : Surroundings) (references : List String) (destination : String)
    (s : Session) (fault : Chain) : Prop where
  live : s.cancelled = false
  created : ∃ handle files, s.files.create destination = .ok (handle, files)
  rejected : (w.engine s.requests ⟨.save references, false⟩).answer = .error fault
  raised : ∃ i, .interrupt i ∈ (w.engine s.requests ⟨.save references, false⟩).effects

section
variable {w : Surroundings} {references : List String} {destination : String} {s : Session}

/-- A copy that fails behind a raised token is reported as cancelled, whichever side failed. -/
theorem not_conceals_saveStream (handle : Files.Tree.Handle) (stream : ExportStream)
    (called : Session) :
    ¬Conceals (saveStream references destination handle stream called).1
      (saveStream references destination handle stream called).2 := by
  rintro ⟨ht, e, he, hne⟩
  unfold saveStream at ht he
  dsimp only at ht he
  split at he
  · cases he
  · rename_i heq
    rw [heq] at ht
    rw [if_pos ht] at he
    exact hne (Except.error.inj he).symm

theorem request_save (w : Surroundings) (references : List String) (hs : s.cancelled = false)
    (files : Files.Tree) :
    (({ s with files } : Session).request w (.save references)).1 =
        (w.engine s.requests ⟨.save references, false⟩).answer ∧
      ((({ s with files } : Session).request w (.save references)).2.cancelled = true ↔
        ∃ i, .interrupt i ∈ (w.engine s.requests ⟨.save references, false⟩).effects) := by
  obtain ⟨_, cancelled, requests, _, _, _⟩ := s
  obtain rfl : cancelled = false := hs
  refine ⟨rfl, ?_⟩
  rw [Session.request, Session.cancelled_applyAll_iff]
  simp [Session.record]

theorem RejectsRaised.save_eq {fault : Chain}
    (h : RejectsRaised w references destination s fault) :
    (save w references destination s).1 =
        ⟨.error (.engineCall .save (", ".intercalate references) fault), none⟩ ∧
      (save w references destination s).2.cancelled = true := by
  obtain ⟨handle, files, hc⟩ := h.created
  obtain ⟨hanswer, hraised⟩ := request_save w references h.live files
  rw [h.rejected] at hanswer
  rw [save, if_neg (by simp [h.live]), hc]
  dsimp only
  split
  · rename_i fault' t hr
    rw [hr] at hanswer hraised
    obtain rfl : fault' = fault := Except.error.inj hanswer
    exact ⟨rfl, hraised.2 h.raised⟩
  · rename_i hr
    rw [hr] at hanswer
    cases hanswer

/-- **Interrupted saves**: whatever the engine does and wherever it or its stream raises the token,
a save that fails behind a raised token is reported as cancelled, unless the export call itself
raised the token and was rejected; then the rejection is reported in place of the cancellation.
Nothing raises the token while the archive is created. -/
theorem save_conceals_iff (w : Surroundings) (references : List String) (destination : String)
    (s : Session) :
    (Conceals (save w references destination s).1 (save w references destination s).2 ↔
      ∃ fault, RejectsRaised w references destination s fault) ∧
    ∀ fault, RejectsRaised w references destination s fault →
      (save w references destination s).1 =
        ⟨.error (.engineCall .save (", ".intercalate references) fault), none⟩ := by
  refine ⟨⟨fun h => ?_, fun ⟨fault, h⟩ => ?_⟩, fun fault h => h.save_eq.1⟩
  · cases hs : s.cancelled with
    | true =>
      obtain ⟨-, e, he, hne⟩ := h
      rw [save, if_pos hs] at he
      exact absurd (Except.error.inj he).symm hne
    | false =>
      rw [save, if_neg (by simp [hs])] at h
      cases hc : s.files.create destination with
      | error trouble =>
        -- nothing raises the token before the call
        rw [hc] at h
        have ht : s.cancelled = true := h.1
        simp [hs] at ht
      | ok created =>
        obtain ⟨handle, files⟩ := created
        obtain ⟨hanswer, hraised⟩ := request_save w references hs files
        rw [hc] at h
        dsimp only at h
        split at h
        · rename_i fault t hr
          rw [hr] at hanswer hraised
          exact ⟨fault, hs, ⟨handle, files, hc⟩, hanswer.symm, hraised.1 h.1⟩
        · exact absurd h (not_conceals_saveStream _ _ _)
  · obtain ⟨hsaved, ht⟩ := h.save_eq
    exact ⟨ht, _, congrArg Saved.result hsaved, by simp⟩

end

/-- An engine whose calls are interrupted by the user and given up for that. -/
def abandoning : Engine := fun _ now =>
  { answer := now.call.rejected (.root "cancelled before docker save")
    effects := [.interrupt .announced] }

/-- An interrupt in the export call is lost. -/
theorem abandoned_export_conceals :
    Conceals (save ⟨abandoning, .spinner, fun _ => []⟩ ["a.b/c:1"] "images.tar" { files := ⟨[], []⟩ }).1
      (save ⟨abandoning, .spinner, fun _ => []⟩ ["a.b/c:1"] "images.tar" { files := ⟨[], []⟩ }).2 :=
  ⟨rfl, .engineCall .save "a.b/c:1" (.root "cancelled before docker save"), rfl, by decide⟩

end ImageRelay.Batch
