import ImageRelay.Batch.Save
import ImageRelay.Proofs.Archive.FileSink
import ImageRelay.Proofs.Files.Tree
import ImageRelay.Proofs.Session

/-!
# What saving leaves in its destination

`Saves` has one rule for each way in which saving ends: at the token, at the destination, at the
call, or at the last read of the export (`Delivered`). `saves_save`: saving into a destination that
can be written ends in one of these ways.

The token that counts behind a failed read is the one of that moment; `raisedBehind` follows it
along the stream.
-/

set_option autoImplicit false

namespace ImageRelay

/-! ## The token behind a stream -/

namespace Archive

/-- Whether the token is raised when a stream was read up to the first read that stops. -/
def raisedBehind : (raised : Bool) → ExportStream → Bool
  | raised, .eof | raised, .bytes [] _ | raised, .failed _ _ => raised
  | raised, .bytes (_ :: _) rest | raised, .interrupted rest => raisedBehind raised rest
  | _, .interrupt _ rest => raisedBehind true rest
  | raised, .poll live cancelled =>
    if raised then raisedBehind raised cancelled else raisedBehind raised live

/-- The token behind a copy is that behind the reads of its stream. -/
theorem copy_cancelled {τ : Type} (s : Sink τ) (path : String) : ∀ (stream : ExportStream)
    (c : Copy τ), (copy s path stream c).1.2.cancelled = raisedBehind c.cancelled stream
  | .eof, c | .bytes [] _, c =>
    (finish_keeps s path { c with reads := c.reads + 1, reachedEnd := true }).2.2
  | .bytes (b :: bs) rest, c => by
    obtain ⟨-, -, hc⟩ := take_keeps s path (b :: bs) { c with reads := c.reads + 1 }
    have ih := copy_cancelled s path rest ({ c with reads := c.reads + 1 }.take s path (b :: bs))
    rw [hc] at ih
    exact ih
  | .interrupted rest, c => copy_cancelled s path rest { c with reads := c.reads + 1 }
  | .failed fault rest, c => (readFailed_keeps path fault { c with reads := c.reads + 1 }).2.2
  | .interrupt i rest, c => copy_cancelled s path rest (c.interrupt i)
  | .poll live cancelled, c => by
    rw [copy, raisedBehind]
    split
    · exact copy_cancelled s path cancelled c
    · exact copy_cancelled s path live c

end Archive

/-! ## Ways of saving -/

namespace Batch

open Archive

/-- What saving comes to at the last read of an export, of which this many bytes were read: a failed
read is the error, unless the token is raised by then. -/
inductive EndsAt (cancelled : Bool) (bytes : Nat) : (last : Archive.Reading) → Saved → Prop
  | eof : EndsAt cancelled bytes (.bytes []) ⟨.ok bytes, some true⟩
  | failed {fault : Chain} : EndsAt cancelled bytes (.failed fault)
      ⟨.error (if cancelled then .cancelled else .streamDrain fault.top), some false⟩

/-- What comes of an export that the engine gives, behind the call: the stream is read up to the
first read that stops, and all that was read is in the destination, however saving ends. -/
structure Delivered (destination : String) (handle : Files.Tree.Handle) (stream : ExportStream)
    (called : Session) (reads : List Archive.Reading) (saved : Saved) (t : Session) : Prop where
  read_up : ∃ result c rest, drained called.cancelled stream = (reads, rest) ∧
    copy FileSink.sink destination stream
      { sink := .ofHandle handle, cancelled := called.cancelled } = ((result, c), rest) ∧
    c.reads = reads.length
  files : t.files = called.files.store handle (data reads)
  token : t.cancelled = raisedBehind called.cancelled stream
  ends : ∃ before last, reads = before ++ [last] ∧ (∀ r ∈ before, r.stops = false) ∧
    EndsAt t.cancelled (data reads).length last saved

/-- Saving references into a destination (module doc). -/
inductive Saves (w : Surroundings) (references : List String) (destination : String) (s : Session) :
    Saved → Session → Prop
  | barred (hs : s.cancelled = true) :
      Saves w references destination s ⟨.error .cancelled, none⟩ s
  | uncreated {trouble : Files.Trouble} (hs : s.cancelled = false)
      (hc : s.files.create destination = .error trouble) :
      Saves w references destination s ⟨.error (.archiveWrite destination trouble.message), none⟩ s
  | rejected {handle : Files.Tree.Handle} {files : Files.Tree} {fault : Chain} {saved : Saved}
      {t : Session} (hs : s.cancelled = false)
      (hc : s.files.create destination = .ok (handle, files))
      (hr : ({ s with files } : Session).request w (.save references) = (.error fault, t))
      (once : t.requests = s.requests ++ [⟨.save references, false⟩])
      (files_eq : t.files = files)
      (empty : ∀ place x, handle = .file place x → t.files.read destination = .ok [])
      (result : t.cancelled = false →
        saved.result = .error (.engineCall .save (", ".intercalate references) fault)) :
      Saves w references destination s saved t
  | delivered {handle : Files.Tree.Handle} {files : Files.Tree} {stream : ExportStream}
      {called t : Session} {reads : List Archive.Reading} {saved : Saved} (hs : s.cancelled = false)
      (hc : s.files.create destination = .ok (handle, files))
      (hr : ({ s with files } : Session).request w (.save references) = (.ok stream, called))
      (once : t.requests = s.requests ++ [⟨.save references, false⟩])
      (delivered : Delivered destination handle stream called reads saved t)
      (holds : ∀ place x, handle = .file place x →
        t.files.read destination = .ok (data reads)) :
      Saves w references destination s saved t

/-- Reads up to the first that stops end with nothing, or with the one failed read. -/
theorem ends_of_drained (raised : Bool) (stream : ExportStream) :
    ∃ before last, (drained raised stream).1 = before ++ [last] ∧ (∀ r ∈ before, r.stops = false) ∧
      ((last = .bytes [] ∧ fault? (drained raised stream).1 = none) ∨
        ∃ fault, last = .failed fault ∧ fault? (drained raised stream).1 = some fault) := by
  obtain ⟨before, last, heq, hb, hl⟩ := drained_stops raised stream
  -- a read that does not stop is no fault, so the last read alone decides
  have hnone : before.findSome? Archive.Reading.fault? = none := by
    refine List.findSome?_eq_none_iff.2 fun r hr => ?_
    have hr := hb r hr
    cases r with
    | bytes | interrupted => rfl
    | failed => cases hr
  have hfault : fault? (drained raised stream).1 = last.fault? := by
    rw [heq, fault?, List.findSome?_append, hnone]
    simp
  refine ⟨before, last, heq, hb, ?_⟩
  cases last with
  | bytes chunk => exact .inl ⟨congrArg Archive.Reading.bytes (List.isEmpty_iff.1 hl), hfault⟩
  | interrupted => cases hl
  | failed fault => exact .inr ⟨fault, rfl, hfault⟩

section
variable (references : List String) (destination : String) {handle : Files.Tree.Handle}
  (stream : ExportStream) (called : Session)

theorem saveStream_delivered (hf : handle ≠ .device .full) :
    Delivered destination handle stream called (drained called.cancelled stream).1
      (saveStream references destination handle stream called).1
      (saveStream references destination handle stream called).2 := by
  obtain ⟨hgrows, hresult⟩ := copy_file destination stream
    { sink := .ofHandle handle, cancelled := called.cancelled } rfl hf
  obtain ⟨hrest, hreads, hend⟩ := copy_reads FileSink.sink destination stream
    { sink := .ofHandle handle, cancelled := called.cancelled }
  have htoken := copy_cancelled FileSink.sink destination stream
    { sink := .ofHandle handle, cancelled := called.cancelled }
  cases hcopy : copy FileSink.sink destination stream
    { sink := .ofHandle handle, cancelled := called.cancelled } with
  | mk run rest =>
    obtain ⟨result, c⟩ := run
    rw [readsResult] at hresult
    simp only [hcopy, Nat.zero_add, Bool.false_or] at hgrows hresult hrest hreads hend htoken
    have hcontent : c.sink.content = data (drained called.cancelled stream).1 := hgrows.content_eq
    have hread_up : ∃ result c rest, drained called.cancelled stream =
        ((drained called.cancelled stream).1, rest) ∧ copy FileSink.sink destination stream
          { sink := .ofHandle handle, cancelled := called.cancelled } = ((result, c), rest) ∧
        c.reads = (drained called.cancelled stream).1.length :=
      ⟨result, c, rest, by rw [hrest], hcopy, hreads⟩
    simp only [saveStream, hcopy]
    obtain ⟨before, last, heq, hb, ⟨rfl, hfault⟩ | ⟨fault, rfl, hfault⟩⟩ :=
      ends_of_drained called.cancelled stream
    · rw [hfault] at hresult hend
      subst hresult
      exact ⟨hread_up, by rw [← hcontent]; rfl, htoken, before, _, heq, hb, hend ▸ .eof⟩
    · rw [hfault] at hresult hend
      subst hresult
      exact ⟨hread_up, by rw [← hcontent], htoken, before, _, heq, hb, hend ▸ .failed⟩

theorem requests_saveStream : (saveStream references destination handle stream called).2.requests =
    called.requests := by
  unfold saveStream
  dsimp only
  split <;> rfl

/-- A destination that is created is saved into with one call. -/
theorem requests_save (w : Surroundings) {s : Session} (hs : s.cancelled = false)
    {files : Files.Tree} (hc : s.files.create destination = .ok (handle, files)) :
    (save w references destination s).2.requests = s.requests ++ [⟨.save references, false⟩] := by
  have honce := Session.requests_request w (.save references) { s with files }
  rw [save, if_neg (by simp [hs]), hc]
  dsimp only
  split
  · rename_i h
    rw [h] at honce
    exact honce.trans (by simp [hs])
  · rename_i stream called h
    rw [h] at honce
    rw [requests_saveStream]
    exact honce.trans (by simp [hs])

end

/-- **Saving**: whatever the engine and its export do, saving into a destination that can be written
ends in one of the ways of `Saves`. The destination is created before the one call, it is empty if
the call is rejected, and it holds what was read of the export otherwise, also where saving fails. -/
theorem saves_save (w : Surroundings) (references : List String) (destination : String)
    (s : Session) (hd : ∀ files, s.files.create destination ≠ .ok (.device .full, files)) :
    Saves w references destination s (save w references destination s).1
      (save w references destination s).2 := by
  cases hs : s.cancelled with
  | true =>
    rw [save, if_pos hs]
    exact .barred hs
  | false =>
    rw [save, if_neg (by simp [hs])]
    cases hc : s.files.create destination with
    | error trouble => exact .uncreated hs hc
    | ok created =>
      obtain ⟨handle, files⟩ := created
      have hfiles := Session.files_request w (.save references) { s with files }
      have honce : (({ s with files } : Session).request w (.save references)).2.requests =
          s.requests ++ [⟨.save references, false⟩] :=
        (Session.requests_request w (.save references) { s with files }).trans (by simp [hs])
      dsimp only
      cases hr : ({ s with files } : Session).request w (.save references) with
      | mk answer called =>
        rw [hr] at hfiles honce
        cases answer with
        | error fault =>
          refine .rejected hs hc hr honce hfiles (fun place x hh => ?_) fun _ => rfl
          subst hh
          rw [hfiles]
          exact Files.Tree.read_create hc
        | ok stream =>
          have hf : handle ≠ .device .full := fun hh => hd files (hh ▸ hc)
          have hdel := saveStream_delivered references destination stream called hf
          refine .delivered hs hc hr ?_ hdel fun place x hh => ?_
          · exact (requests_saveStream references destination stream called).trans honce
          · subst hh
            rw [hdel.files, hfiles]
            exact Files.Tree.read_store hc _

/-- An engine that only exports. -/
def exporting (stream : ExportStream) : Engine := fun _ now =>
  match now with
  | ⟨.save _, _⟩ => { answer := .ok stream }
  | ⟨c, _⟩ => { answer := c.rejected (.root "only exports") }

/-- An export of two reads that is interrupted by the user and then fails. -/
theorem saves_interrupted_export :
    let stream : ExportStream := .bytes [1, 2] <| .interrupted <| .bytes [3] <|
      .interrupt .announced <| .failed (.root "broken pipe") .eof
    let s : Session := { files := ⟨[], []⟩ }
    (∀ files, s.files.create "images.tar" ≠ .ok (.device .full, files)) ∧
    Saves ⟨exporting stream, .spinner, fun _ => []⟩ ["a.b/c:1", "a.b/d:1"] "images.tar" s
      (save ⟨exporting stream, .spinner, fun _ => []⟩ ["a.b/c:1", "a.b/d:1"] "images.tar" s).1
      (save ⟨exporting stream, .spinner, fun _ => []⟩ ["a.b/c:1", "a.b/d:1"] "images.tar" s).2 := by
  intro stream s
  have hc : s.files.create "images.tar" =
      .ok (.file ["images.tar"] false, ⟨[(["images.tar"], .file [] false)], []⟩) := rfl
  have hd : ∀ files, s.files.create "images.tar" ≠ .ok (.device .full, files) := by
    intro files h
    rw [hc] at h
    cases h
  exact ⟨hd, saves_save _ _ _ s hd⟩

end Batch

end ImageRelay
