import ImageRelay.Batch.Save
import ImageRelay.Proofs.Session

/-!
# Saving as a step of a session

`save_leads`: saving images leads a session on. There is one call at most, and none if the token is
raised; behind the call something is told or the token is raised, and nothing else happens
(`copy_leads`).
-/

set_option autoImplicit false

namespace ImageRelay.Batch

open Moment Archive

section
variable {τ : Type} (sink : Sink τ) (path : String) (s : Session)

theorem absorb_finish (c : Copy τ) : absorb s (c.finish sink path).2 = absorb s c := by
  unfold Copy.finish
  split
  · rfl
  · split <;> rfl

theorem absorb_tellAll (c : Copy τ) (es : List Emission) :
    absorb s (c.tellAll es) = (absorb s c).tellAll es := by
  simp [absorb, Copy.tellAll, Session.tellAll, List.append_assoc]

theorem absorb_interrupt (c : Copy τ) (i : Interrupt) :
    absorb s (c.interrupt i) = (absorb s c).interrupt i := by
  simp [absorb, Copy.interrupt, Copy.tellAll, Session.interrupt, Session.tellAll, Session.record,
    List.append_assoc]

theorem take_leads (chunk : List UInt8) (c : Copy τ) :
    ∃ h, (absorb s c).Leads h (absorb s (c.take sink path chunk)) ∧ Quiet h := by
  unfold Copy.take
  split
  · exact ⟨[], .refl _, quiet_nil⟩
  · split
    · exact ⟨[], .refl _, quiet_nil⟩
    · rw [absorb_tellAll]
      exact ⟨_, Session.leads_tellAll _ _, quiet_told _⟩

theorem readFailed_leads (fault : Chain) (c : Copy τ) :
    ∃ h, (absorb s c).Leads h (absorb s (c.readFailed path fault).2) ∧ Quiet h := by
  unfold Copy.readFailed
  split
  · rw [absorb_tellAll]
    exact ⟨_, Session.leads_tellAll _ _, quiet_told _⟩
  · exact ⟨[], .refl _, quiet_nil⟩

end

/-- A copy of an export is quiet. -/
theorem copy_leads {τ : Type} (sink : Sink τ) (path : String) (s : Session) :
    ∀ (stream : ExportStream) (c : Copy τ), ∃ h,
      (absorb s c).Leads h (absorb s (copy sink path stream c).1.2) ∧ Quiet h
  | .eof, c => ⟨[], by rw [copy, absorb_finish]; exact .refl _, quiet_nil⟩
  | .bytes [] rest, c => ⟨[], by rw [copy, absorb_finish]; exact .refl _, quiet_nil⟩
  | .bytes (b :: bs) rest, c => by
    obtain ⟨h, hl, hq⟩ := take_leads sink path s (b :: bs) { c with reads := c.reads + 1 }
    obtain ⟨h', hl', hq'⟩ := copy_leads sink path s rest
      ({ c with reads := c.reads + 1 }.take sink path (b :: bs))
    exact ⟨h ++ h', hl.trans hl', hq.append hq'⟩
  | .interrupted rest, c => copy_leads sink path s rest { c with reads := c.reads + 1 }
  | .failed fault rest, c => readFailed_leads path s fault { c with reads := c.reads + 1 }
  | .interrupt i rest, c => by
    obtain ⟨h, hl, hq⟩ := copy_leads sink path s rest (c.interrupt i)
    rw [absorb_interrupt] at hl
    exact ⟨_, (Session.leads_interrupt _ i).trans hl, (quiet_raised i _).append hq⟩
  | .poll live cancelled, c => by
    rw [copy]
    split
    · exact copy_leads sink path s cancelled c
    · exact copy_leads sink path s live c

/-- The files of a session do not matter to what it leads to. -/
theorem leads_files (s : Session) (files : Files.Tree) : s.Leads [] { s with files } := by
  constructor <;> simp

theorem saveStream_leads (references : List String) (destination : String)
    (handle : Files.Tree.Handle) (stream : ExportStream) (s : Session) :
    ∃ h, s.Leads h (saveStream references destination handle stream s).2 ∧ Quiet h := by
  obtain ⟨h, hl, hq⟩ := copy_leads FileSink.sink destination s stream
    { sink := .ofHandle handle, cancelled := s.cancelled }
  have hstart : absorb s ({ sink := .ofHandle handle, cancelled := s.cancelled } : Copy FileSink) =
      s := by simp [absorb]
  rw [hstart] at hl
  unfold saveStream
  dsimp only
  split
  · exact ⟨_, (hl.trans (leads_files _ _)).trans (Session.leads_tellAll _ _),
      (hq.append quiet_nil).append (quiet_told _)⟩
  · exact ⟨_, hl.trans (leads_files _ _), hq.append quiet_nil⟩

/-- Saving behind a raised token does nothing. -/
theorem save_of_cancelled (w : Surroundings) (references : List String) (destination : String)
    {s : Session} (hs : s.cancelled = true) :
    save w references destination s = (⟨.error .cancelled, none⟩, s) := if_pos hs

/-- Saving is one call with quiet behind it, or it only makes a file or nothing. -/
theorem save_leads (w : Surroundings) (references : List String) (destination : String)
    (s : Session) : ∃ h, s.Leads h (save w references destination s).2 ∧
      (h = [] ∨ s.cancelled = false ∧
        ∃ r answer q, r.call = .save references ∧ h = .called r answer :: q ∧ Quiet q) := by
  unfold save
  split
  · exact ⟨[], .refl s, .inl rfl⟩
  · rename_i hs
    split
    · exact ⟨[], .refl s, .inl rfl⟩
    · rename_i handle files _
      obtain ⟨q, hl, hq⟩ := Session.leads_request w (.save references) { s with files }
      have hcall := (leads_files s files).trans hl
      dsimp only
      split
      · rename_i ht
        rw [ht] at hcall
        exact ⟨_, hcall, .inr ⟨by simpa using hs, _, _, q, rfl, rfl, hq⟩⟩
      · rename_i stream t ht
        rw [ht] at hcall
        obtain ⟨q', hl', hq'⟩ := saveStream_leads references destination handle stream t
        exact ⟨_, hcall.trans hl', .inr ⟨by simpa using hs, _, _, q ++ q', rfl, rfl, hq.append hq'⟩⟩

end ImageRelay.Batch
