import ImageRelay.Archive.Copy
import ImageRelay.Proofs.Archive.Journal

/-!
# Copies of exports

What a copy reads is decided by the stream and the token alone (`drained`, `copy_reads`). What it
does to the sink is told by the journal of a recorded copy, which is otherwise the same as the plain
one (`copy_forget`). `Copied` says how the journal and the result follow from what was read; there
is a lemma for each kind of read (`Copied.wrote`, `Copied.failed`, …).
-/

set_option autoImplicit false

namespace ImageRelay.Archive

/-! ## Reads -/

/-- What comes of a read. -/
inductive Reading
  | bytes (chunk : List UInt8)
  | interrupted
  | failed (fault : Chain)

namespace Reading

/-- The bytes of a read. -/
def data : Reading → List UInt8
  | bytes chunk => chunk
  | interrupted | failed _ => []

/-- Why a read fails; one that was only interrupted is made again. -/
def fault? : Reading → Option Chain
  | failed fault => some fault
  | bytes _ | interrupted => none

/-- Whether a read is the last: it gives nothing, or it fails. -/
def stops : Reading → Bool
  | bytes chunk => chunk.isEmpty
  | interrupted => false
  | failed _ => true

end Reading

/-- The bytes that were read. -/
def data (rs : List Reading) : List UInt8 := rs.flatMap Reading.data

/-- The failed read. -/
def fault? (rs : List Reading) : Option Chain := rs.findSome? Reading.fault?

/-- The reads of a stream up to the first that stops, and what is left of the stream. -/
def drained : (raised : Bool) → ExportStream → List Reading × ExportStream
  | _, .eof => ([.bytes []], .eof)
  | _, .bytes [] rest => ([.bytes []], rest)
  | raised, .bytes (b :: bs) rest =>
    (.bytes (b :: bs) :: (drained raised rest).1, (drained raised rest).2)
  | raised, .interrupted rest => (.interrupted :: (drained raised rest).1, (drained raised rest).2)
  | _, .failed fault rest => ([.failed fault], rest)
  | _, .interrupt _ rest => drained true rest
  | raised, .poll live cancelled => if raised then drained raised cancelled else drained raised live

/-- It is read up to the first read that stops. -/
theorem drained_stops : ∀ (raised : Bool) (stream : ExportStream), ∃ before last,
    (drained raised stream).1 = before ++ [last] ∧ (∀ r ∈ before, r.stops = false) ∧
      last.stops = true
  | _, .eof => ⟨[], .bytes [], rfl, by simp, rfl⟩
  | _, .bytes [] _ => ⟨[], .bytes [], rfl, by simp, rfl⟩
  | raised, .bytes (b :: bs) rest => by
    obtain ⟨before, last, heq, hb, hl⟩ := drained_stops raised rest
    exact ⟨.bytes (b :: bs) :: before, last, by simp [drained, heq], by simpa [Reading.stops], hl⟩
  | raised, .interrupted rest => by
    obtain ⟨before, last, heq, hb, hl⟩ := drained_stops raised rest
    exact ⟨.interrupted :: before, last, by simp [drained, heq], by simpa [Reading.stops], hl⟩
  | _, .failed fault _ => ⟨[], .failed fault, rfl, by simp, rfl⟩
  | _, .interrupt _ rest => drained_stops true rest
  | raised, .poll live cancelled => by
    rw [drained]
    split
    · exact drained_stops raised cancelled
    · exact drained_stops raised live

section
variable {τ : Type} (s : Sink τ) (path : String)

theorem take_keeps (chunk : List UInt8) (c : Copy τ) :
    (c.take s path chunk).reads = c.reads ∧ (c.take s path chunk).reachedEnd = c.reachedEnd ∧
      (c.take s path chunk).cancelled = c.cancelled := by
  unfold Copy.take
  split
  · exact ⟨rfl, rfl, rfl⟩
  · split <;> exact ⟨rfl, rfl, rfl⟩

theorem finish_keeps (c : Copy τ) : (c.finish s path).2.reads = c.reads ∧
    (c.finish s path).2.reachedEnd = c.reachedEnd ∧
      (c.finish s path).2.cancelled = c.cancelled := by
  unfold Copy.finish
  split
  · exact ⟨rfl, rfl, rfl⟩
  · split <;> exact ⟨rfl, rfl, rfl⟩

theorem readFailed_keeps (fault : Chain) (c : Copy τ) :
    (c.readFailed path fault).2.reads = c.reads ∧
      (c.readFailed path fault).2.reachedEnd = c.reachedEnd ∧
      (c.readFailed path fault).2.cancelled = c.cancelled := by
  unfold Copy.readFailed
  split <;> exact ⟨rfl, rfl, rfl⟩

/-- The reads of a copy are those of the stream, whatever the sink does. -/
theorem copy_reads : ∀ (stream : ExportStream) (c : Copy τ),
    (copy s path stream c).2 = (drained c.cancelled stream).2 ∧
      (copy s path stream c).1.2.reads = c.reads + (drained c.cancelled stream).1.length ∧
      (copy s path stream c).1.2.reachedEnd =
        (c.reachedEnd || (fault? (drained c.cancelled stream).1).isNone)
  | .eof, c | .bytes [] _, c => by
    obtain ⟨hr, he, -⟩ := finish_keeps s path { c with reads := c.reads + 1, reachedEnd := true }
    rw [copy, hr, he]
    exact ⟨rfl, rfl, by simp [drained, fault?, Reading.fault?]⟩
  | .bytes (b :: bs) rest, c => by
    obtain ⟨hr, he, hc⟩ := take_keeps s path (b :: bs) { c with reads := c.reads + 1 }
    obtain ⟨hrest, hreads, hend⟩ :=
      copy_reads rest ({ c with reads := c.reads + 1 }.take s path (b :: bs))
    dsimp only at hr he hc
    rw [hc] at hrest hreads hend
    rw [hr] at hreads
    rw [he] at hend
    refine ⟨hrest, hreads.trans ?_, hend⟩
    simp only [drained, List.length_cons]
    omega
  | .interrupted rest, c => by
    obtain ⟨hrest, hreads, hend⟩ := copy_reads rest { c with reads := c.reads + 1 }
    refine ⟨hrest, hreads.trans ?_, hend⟩
    simp only [drained, List.length_cons]
    omega
  | .failed fault rest, c => by
    obtain ⟨hr, he, -⟩ := readFailed_keeps path fault { c with reads := c.reads + 1 }
    rw [copy, hr, he]
    exact ⟨rfl, rfl, by simp [drained, fault?, Reading.fault?]⟩
  | .interrupt i rest, c => copy_reads rest (c.interrupt i)
  | .poll live cancelled, c => by
    rw [copy, drained]
    split
    · exact copy_reads cancelled c
    · exact copy_reads live c

end

/-! ## What a copy comes to -/

/-- What a copy of this many bytes results in: a failed write counts first, then a failed read, and
the sink is flushed only if there was neither. -/
inductive Concludes (path : String) (bytes : Nat) :
    (failure : Option String) → (fault : Option Chain) → (flushes : List (Except String Unit)) →
      Except TransferError Nat → Prop
  | writeFailed {reason : String} {fault : Option Chain} :
      Concludes path bytes (some reason) fault [] (.error (.archiveWrite path reason))
  | readFailed {fault : Chain} :
      Concludes path bytes none (some fault) [] (.error (.streamDrain fault.top))
  | flushFailed {reason : String} :
      Concludes path bytes none none [.error reason] (.error (.archiveWrite path reason))
  | done : Concludes path bytes none none [.ok ()] (.ok bytes)

/-- What is done to the sink, and what results of it, if these are the reads that are still to come
behind some bytes that were written: what is accepted is at the front of what is read, and something
is dropped exactly if a write fails, behind which nothing is done. -/
structure Copied (path : String) (written : Nat) (rs : List Reading) (deeds : List Deed)
    (result : Except TransferError Nat) : Prop where
  accepted_append : ∃ dropped, accepted deeds ++ dropped = data rs ∧
    (dropped = [] ↔ failure? deeds = none)
  proceeds : ∀ d ∈ deeds.dropLast, d.Proceeds
  concludes : Concludes path (written + (data rs).length) (failure? deeds) (fault? rs)
    (flushes deeds) result

namespace Copied

variable {path : String} {written : Nat} {rs : List Reading} {deeds : List Deed}
  {result : Except TransferError Nat}

theorem finished (path : String) (written : Nat) :
    Copied path written [.bytes []] [.flushed (.ok ())] (.ok written) where
  accepted_append := ⟨[], rfl, by simp [failure?, Deed.failure?]⟩
  proceeds := by simp
  concludes := .done

theorem flushFailed (path : String) (written : Nat) (reason : String) :
    Copied path written [.bytes []] [.flushed (.error reason)]
      (.error (.archiveWrite path reason)) where
  accepted_append := ⟨[], rfl, by simp [failure?, Deed.failure?]⟩
  proceeds := by simp
  concludes := .flushFailed

theorem readFailed (path : String) (written : Nat) (fault : Chain) :
    Copied path written [.failed fault] [] (.error (.streamDrain fault.top)) where
  accepted_append := ⟨[], rfl, by simp⟩
  proceeds := by simp
  concludes := .readFailed

theorem interrupted (h : Copied path written rs deeds result) :
    Copied path written (.interrupted :: rs) deeds result :=
  ⟨h.accepted_append, h.proceeds, h.concludes⟩

/-- The bytes of a read are written. -/
theorem wrote {chunk : List UInt8} {first : List Deed} (hw : Writes chunk first none)
    (h : Copied path (written + chunk.length) rs deeds result) :
    Copied path written (.bytes chunk :: rs) (first ++ deeds) result where
  accepted_append := by
    obtain ⟨rest, heq, hrest⟩ := hw.accepted_append
    obtain ⟨dropped, hd, hnone⟩ := h.accepted_append
    obtain rfl := hrest.2 rfl
    rw [List.append_nil] at heq
    refine ⟨dropped, ?_, ?_⟩
    · rw [Archive.accepted_append, heq, List.append_assoc, hd]
      rfl
    · rw [failure?_append, hw.failure?_eq, Option.none_or]
      exact hnone
  proceeds d hd := by
    by_cases hne : deeds = []
    · rw [hne, List.append_nil] at hd
      exact hw.proceeds d hd
    · rw [List.dropLast_append_of_ne_nil hne, List.mem_append] at hd
      exact hd.elim (hw.proceeds_of_succeeded d) (h.proceeds d)
  concludes := by
    have hc := h.concludes
    rw [Nat.add_assoc, ← List.length_append] at hc
    rw [failure?_append, hw.failure?_eq, Option.none_or, flushes_append, hw.flushes_eq,
      List.nil_append]
    exact hc

/-- Writing the bytes of a read fails. -/
theorem failed {chunk : List UInt8} {reason : String} (hw : Writes chunk deeds (some reason)) :
    Copied path written (.bytes chunk :: rs) deeds (.error (.archiveWrite path reason)) where
  accepted_append := by
    obtain ⟨rest, heq, hrest⟩ := hw.accepted_append
    refine ⟨rest ++ data rs, ?_, ?_⟩
    · rw [← List.append_assoc, heq]
      rfl
    · simp [hw.failure?_eq, hrest]
  proceeds := hw.proceeds
  concludes := by
    rw [hw.failure?_eq, hw.flushes_eq]
    exact .writeFailed

end Copied

section
variable {τ : Type} (s : Sink τ) (path : String)

/-- Behind a failed write the sink is left alone, and the failure stays the result. -/
theorem copy_of_failure {reason : String} : ∀ (stream : ExportStream) (c : Copy τ),
    c.failure = some reason → (copy s path stream c).1.1 = .error (.archiveWrite path reason) ∧
      (copy s path stream c).1.2.sink = c.sink
  | .eof, c, hc | .bytes [] _, c, hc => by
    rw [copy]
    simp [Copy.finish, hc]
  | .bytes (b :: bs) rest, c, hc => by
    have htake : ({ c with reads := c.reads + 1 } : Copy τ).take s path (b :: bs) =
        { c with reads := c.reads + 1 } := by simp [Copy.take, hc]
    have hcopy : copy s path (.bytes (b :: bs) rest) c =
        copy s path rest { c with reads := c.reads + 1 } := congrArg (copy s path rest) htake
    rw [hcopy]
    exact copy_of_failure rest { c with reads := c.reads + 1 } hc
  | .interrupted rest, c, hc => copy_of_failure rest { c with reads := c.reads + 1 } hc
  | .failed fault rest, c, hc => by
    rw [copy]
    simp [Copy.readFailed, Copy.tellAll, hc]
  | .interrupt i rest, c, hc => copy_of_failure rest (c.interrupt i) hc
  | .poll live cancelled, c, hc => by
    rw [copy]
    split
    · exact copy_of_failure cancelled c hc
    · exact copy_of_failure live c hc

end

/-! ## Recorded copies -/

/-- A copy without its journal. -/
def Copy.forget {τ : Type} (c : Copy (τ × List Deed)) : Copy τ := { c with sink := c.sink.1 }

section
variable {τ : Type} (s : Sink τ) (path : String)

/-- The bytes of a read, written to a recorded sink. -/
theorem take_recorded (chunk : List UInt8) (c : Copy (τ × List Deed)) (hc : c.failure = none) :
    ∃ deeds, Writes chunk deeds (c.take s.recorded path chunk).failure ∧
      (c.take s.recorded path chunk).sink.2 = c.sink.2 ++ deeds ∧
      ((c.take s.recorded path chunk).failure = none →
        (c.take s.recorded path chunk).written = c.written + chunk.length) := by
  obtain ⟨deeds, heq, hw⟩ := recorded_writeAll s c.sink.1 chunk c.sink.2
  refine ⟨deeds, ?_⟩
  cases hr : (s.writeAll c.sink.1 chunk).1 with
  | none => simpa [Copy.take, hc, heq, hr] using hw
  | some reason => simpa [Copy.take, Copy.tellAll, hc, heq, hr] using hw

theorem take_forget (chunk : List UInt8) (c : Copy (τ × List Deed)) :
    (c.take s.recorded path chunk).forget = c.forget.take s path chunk := by
  obtain ⟨deeds, heq, -⟩ := recorded_writeAll s c.sink.1 chunk c.sink.2
  cases hc : c.failure with
  | some reason => simp [Copy.take, Copy.forget, hc]
  | none =>
    cases hr : s.writeAll c.sink.1 chunk with
    | mk failure u =>
      cases failure <;> simp [Copy.take, Copy.tellAll, Copy.forget, hc, heq, hr]

theorem finish_forget (c : Copy (τ × List Deed)) :
    c.forget.finish s path =
      ((c.finish s.recorded path).1, (c.finish s.recorded path).2.forget) := by
  cases hc : c.failure with
  | some reason => simp [Copy.finish, Copy.forget, hc]
  | none =>
    cases hr : s.flush c.sink.1 with
    | mk r u => cases r <;> simp [Copy.finish, Copy.forget, Sink.recorded, hc, hr]

theorem readFailed_forget (fault : Chain) (c : Copy (τ × List Deed)) :
    c.forget.readFailed path fault =
      ((c.readFailed path fault).1, (c.readFailed path fault).2.forget) := by
  cases hc : c.failure <;> simp [Copy.readFailed, Copy.tellAll, Copy.forget, hc]

/-- Nothing is different without the journal. -/
theorem copy_forget : ∀ (stream : ExportStream) (c : Copy (τ × List Deed)),
    copy s path stream c.forget =
      (((copy s.recorded path stream c).1.1, (copy s.recorded path stream c).1.2.forget),
        (copy s.recorded path stream c).2)
  | .eof, c | .bytes [] _, c => by
    rw [copy, copy]
    exact congrArg (fun r => (r, _))
      (finish_forget s path { c with reads := c.reads + 1, reachedEnd := true })
  | .bytes (b :: bs) rest, c => by
    have ih := copy_forget rest ({ c with reads := c.reads + 1 }.take s.recorded path (b :: bs))
    rw [take_forget] at ih
    exact ih
  | .interrupted rest, c => copy_forget rest { c with reads := c.reads + 1 }
  | .failed fault rest, c => by
    rw [copy, copy]
    exact congrArg (fun r => (r, rest))
      (readFailed_forget path fault { c with reads := c.reads + 1 })
  | .interrupt i rest, c => copy_forget rest (c.interrupt i)
  | .poll live cancelled, c => by
    rw [copy, copy]
    change (if c.cancelled = true then _ else _) = _
    split
    · exact copy_forget cancelled c
    · exact copy_forget live c

/-- What a copy does to its sink, and what it results in. -/
theorem copy_copied : ∀ (stream : ExportStream) (c : Copy (τ × List Deed)), c.failure = none →
    ∃ deeds, (copy s.recorded path stream c).1.2.sink.2 = c.sink.2 ++ deeds ∧
      Copied path c.written (drained c.cancelled stream).1 deeds (copy s.recorded path stream c).1.1
  | .eof, c, hc | .bytes [] _, c, hc => by
    rw [copy, drained]
    cases hf : (s.flush c.sink.1).1 with
    | ok =>
      refine ⟨[.flushed (.ok ())], ?_, ?_⟩
      · simp [Copy.finish, Sink.recorded, hc, hf]
      · simpa [Copy.finish, Sink.recorded, hc, hf] using Copied.finished path c.written
    | error reason =>
      refine ⟨[.flushed (.error reason)], ?_, ?_⟩
      · simp [Copy.finish, Sink.recorded, hc, hf]
      · simpa [Copy.finish, Sink.recorded, hc, hf] using Copied.flushFailed path c.written reason
  | .bytes (b :: bs) rest, c, hc => by
    obtain ⟨first, hw, hs, hwritten⟩ :=
      take_recorded s path (b :: bs) { c with reads := c.reads + 1 } hc
    obtain ⟨-, -, htoken⟩ := take_keeps s.recorded path (b :: bs) { c with reads := c.reads + 1 }
    change ∃ deeds, (copy s.recorded path rest
      ({ c with reads := c.reads + 1 }.take s.recorded path (b :: bs))).1.2.sink.2 = _ ∧
        Copied path c.written _ deeds (copy s.recorded path rest
          ({ c with reads := c.reads + 1 }.take s.recorded path (b :: bs))).1.1
    generalize { c with reads := c.reads + 1 }.take s.recorded path (b :: bs) = t at *
    cases hf : t.failure with
    | none =>
      obtain ⟨deeds, hs', h⟩ := copy_copied rest t hf
      rw [hwritten hf, htoken] at h
      rw [hf] at hw
      exact ⟨first ++ deeds, by rw [hs', hs, List.append_assoc], .wrote hw h⟩
    | some reason =>
      obtain ⟨hr, hsink⟩ := copy_of_failure s.recorded path rest t hf
      rw [hf] at hw
      exact ⟨first, by rw [hsink, hs], hr ▸ .failed hw⟩
  | .interrupted rest, c, hc => by
    obtain ⟨deeds, hs, h⟩ := copy_copied rest { c with reads := c.reads + 1 } hc
    exact ⟨deeds, hs, h.interrupted⟩
  | .failed fault rest, c, hc => by
    refine ⟨[], ?_, ?_⟩
    · simp [copy, Copy.readFailed, hc]
    · simpa [copy, drained, Copy.readFailed, hc] using Copied.readFailed path c.written fault
  | .interrupt i rest, c, hc => copy_copied rest (c.interrupt i) hc
  | .poll live cancelled, c, hc => by
    rw [copy, drained]
    split
    · exact copy_copied cancelled c hc
    · exact copy_copied live c hc

end

/-- **Copies of exports**: the reads of a copy are those of the stream up to the first that gives
nothing or fails, whatever the sink does; the journal of the sink and the result follow from them
(`Copied`), and keeping the journal makes no difference. -/
theorem copy_follows_reads {τ : Type} (s : Sink τ) (path : String) (stream : ExportStream) (t : τ)
    (raised : Bool) :
    let reads := (drained raised stream).1
    let run := copy s path stream { sink := t, cancelled := raised }
    let recorded := copy s.recorded path stream { sink := (t, []), cancelled := raised }
    (∃ before last, reads = before ++ [last] ∧ (∀ r ∈ before, r.stops = false) ∧
      last.stops = true) ∧
    run.1.2.reads = reads.length ∧ run.2 = (drained raised stream).2 ∧
    run.1.2.reachedEnd = (fault? reads).isNone ∧
    Copied path 0 reads recorded.1.2.sink.2 run.1.1 ∧
    run = ((recorded.1.1, recorded.1.2.forget), recorded.2) := by
  intro reads run recorded
  have hsame : run = ((recorded.1.1, recorded.1.2.forget), recorded.2) :=
    copy_forget s path stream { sink := (t, []), cancelled := raised }
  obtain ⟨hleft, hreads, hend⟩ := copy_reads s path stream { sink := t, cancelled := raised }
  obtain ⟨deeds, hjournal, hcopied⟩ :=
    copy_copied s path stream { sink := (t, []), cancelled := raised } rfl
  rw [List.nil_append] at hjournal
  refine ⟨drained_stops raised stream, hreads.trans (Nat.zero_add _), hleft,
    hend.trans (Bool.false_or _), ?_, hsame⟩
  rw [hsame, hjournal]
  exact hcopied

end ImageRelay.Archive
