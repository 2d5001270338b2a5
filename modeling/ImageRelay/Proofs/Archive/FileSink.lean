import ImageRelay.Proofs.Archive.Copying

/-!
# Copies into files

A copy into a sink that does not fail (`Sink.Unfailing`) is decided by the reads alone
(`copy_unfailing`).

A file behind a buffer holds what was written to it, whether or not it waits in the buffer: every
operation puts its bytes behind the content (`Grows`). Writing fails on a full device only
(`FileSink.writeAll_grows`), so what is read of a copy into any other file is in the file
(`copy_file`), also when it ends in a failed read and the buffer is not flushed.
-/

set_option autoImplicit false

namespace ImageRelay.Archive

/-! ## Results -/

/-- The result of a copy of these reads behind some bytes that were written, if no write fails. -/
def readsResult (written : Nat) (reads : List Reading) : Except TransferError Nat :=
  match fault? reads with
  | none => .ok (written + (data reads).length)
  | some fault => .error (.streamDrain fault.top)

theorem readsResult_bytes (written : Nat) (chunk : List UInt8) (reads : List Reading) :
    readsResult written (.bytes chunk :: reads) = readsResult (written + chunk.length) reads := by
  have hf : fault? (.bytes chunk :: reads) = fault? reads := rfl
  have hd : data (.bytes chunk :: reads) = chunk ++ data reads := rfl
  rw [readsResult, readsResult, hf, hd, List.length_append, Nat.add_assoc]

/-- Where the reads alone decide the result no write has failed, so all that is read is accepted. -/
theorem Copied.accepted_eq {path : String} {written : Nat} {rs : List Reading} {deeds : List Deed}
    (h : Copied path written rs deeds (readsResult written rs)) : accepted deeds = data rs := by
  have hnone : failure? deeds = none := by
    have hc := h.concludes
    unfold readsResult at hc
    generalize failure? deeds = failure at hc ⊢
    generalize flushes deeds = flushes at hc
    cases hf : fault? rs with
    | none =>
      rw [hf] at hc
      cases hc
      rfl
    | some fault =>
      rw [hf] at hc
      cases hc
      rfl
  obtain ⟨dropped, heq, hiff⟩ := h.accepted_append
  rw [hiff.2 hnone, List.append_nil] at heq
  exact heq

theorem readsResult_eq_ok_iff (written : Nat) (rs : List Reading) (n : Nat) :
    readsResult written rs = .ok n ↔ fault? rs = none ∧ n = written + (data rs).length := by
  unfold readsResult
  cases hf : fault? rs with
  | none => simp [eq_comm]
  | some fault => simp

/-! ## Sinks that do not fail -/

/-- A sink that does not fail in the states `P`: of every write something is accepted, perhaps after
interruptions, every flush succeeds, and the states behind them are again in `P`. -/
structure Sink.Unfailing {τ : Type} (s : Sink τ) (P : τ → Prop) : Prop where
  write {t : τ} (ht : P t) {bytes : List UInt8} (hb : bytes ≠ []) :
    (∃ n, (s.write t bytes).1.answer = .accepted (n + 1)) ∧ P (s.write t bytes).2
  flush {t : τ} (ht : P t) : (s.flush t).1 = .ok ()

section
variable {τ : Type} {s : Sink τ} {P : τ → Prop} (hs : s.Unfailing P)
include hs

theorem writeAll_unfailing {t : τ} (ht : P t) (bytes : List UInt8) :
    (s.writeAll t bytes).1 = none ∧ P (s.writeAll t bytes).2 := by
  fun_induction s.writeAll t bytes with
  | case1 t => exact ⟨rfl, ht⟩
  | case2 t bytes hb attempt u hw reason ha =>
    obtain ⟨⟨n, hn⟩, -⟩ := hs.write ht hb
    rw [hw, ha] at hn
    cases hn
  | case3 t bytes hb attempt u hw ha =>
    obtain ⟨⟨n, hn⟩, -⟩ := hs.write ht hb
    rw [hw, ha] at hn
    cases hn
  | case4 t bytes hb attempt u hw n ha ih =>
    obtain ⟨-, hu⟩ := hs.write ht hb
    rw [hw] at hu
    exact ih hu

/-- The reads alone decide what a copy results in. -/
theorem copy_unfailing (path : String) : ∀ (stream : ExportStream) (c : Copy τ),
    c.failure = none → P c.sink →
      (copy s path stream c).1.1 = readsResult c.written (drained c.cancelled stream).1
  | .eof, c, hc, hp | .bytes [] _, c, hc, hp => by
    have hflush := hs.flush hp
    cases hf : s.flush c.sink with
    | mk r u =>
      rw [hf] at hflush
      obtain rfl : r = .ok () := hflush
      simp only [copy, Copy.finish, hc, hf]
      rfl
  | .bytes (b :: bs) rest, c, hc, hp => by
    obtain ⟨hwrite, hp'⟩ := writeAll_unfailing hs hp (b :: bs)
    cases hw : s.writeAll c.sink (b :: bs) with
    | mk failure u =>
      rw [hw] at hwrite hp'
      obtain rfl : failure = none := hwrite
      have htake : ({ c with reads := c.reads + 1 } : Copy τ).take s path (b :: bs) =
          { c with sink := u, written := c.written + (b :: bs).length, reads := c.reads + 1 } := by
        simp only [Copy.take, hc, hw]
      have ih := copy_unfailing path rest
        { c with sink := u, written := c.written + (b :: bs).length, reads := c.reads + 1 } hc hp'
      rw [← congrArg (copy s path rest) htake] at ih
      exact ih.trans (readsResult_bytes _ _ _).symm
  | .interrupted rest, c, hc, hp => copy_unfailing path rest { c with reads := c.reads + 1 } hc hp
  | .failed fault rest, c, hc, hp => by
    simp only [copy, Copy.readFailed, hc]
    rfl
  | .interrupt i rest, c, hc, hp => copy_unfailing path rest (c.interrupt i) hc hp
  | .poll live cancelled, c, hc, hp => by
    rw [copy, drained]
    split
    · exact copy_unfailing path cancelled c hc hp
    · exact copy_unfailing path live c hc hp

end

/-! ## Files -/

namespace FileSink

/-- `g` is the file `f` with these bytes behind its content. -/
structure Grows (f : FileSink) (bytes : List UInt8) (g : FileSink) : Prop where
  handle_eq : g.handle = f.handle
  content_eq : g.content = f.content ++ bytes

theorem Grows.refl (f : FileSink) : f.Grows [] f := ⟨rfl, (List.append_nil _).symm⟩

theorem Grows.trans {f g k : FileSink} {xs ys : List UInt8} (a : f.Grows xs g)
    (b : g.Grows ys k) : f.Grows (xs ++ ys) k where
  handle_eq := b.handle_eq.trans a.handle_eq
  content_eq := by rw [b.content_eq, a.content_eq, List.append_assoc]

/-- Bytes that are put in the buffer. -/
theorem grows_buffer (f : FileSink) (bytes : List UInt8) :
    f.Grows bytes { f with buffer := f.buffer ++ bytes } :=
  ⟨rfl, by simp [content]⟩

section
variable {f : FileSink} (hf : f.handle ≠ .device .full)
include hf

theorem put_eq (bytes : List UInt8) : f.put bytes = .ok { f with stored := bytes :: f.stored } := by
  unfold put
  split
  · rename_i h
    exact absurd h hf
  · rfl

/-- Bytes are written past the buffer only if nothing waits in it. -/
theorem put_grows (hb : f.buffer = []) (bytes : List UInt8) :
    ∃ g, f.put bytes = .ok g ∧ f.Grows bytes g :=
  ⟨_, put_eq hf bytes, rfl, by simp [content, hb]⟩

theorem settle_grows : ∃ g, f.settle = .ok g ∧ f.Grows [] g ∧ g.buffer = [] := by
  unfold settle
  split
  · rename_i h
    exact ⟨f, rfl, .refl f, List.isEmpty_iff.1 h⟩
  · rw [put_eq hf]
    exact ⟨_, rfl, ⟨rfl, by simp [content]⟩, rfl⟩

theorem write_grows (bytes : List UInt8) : ∃ g, f.write bytes = .ok g ∧ f.Grows bytes g := by
  unfold write
  dsimp only
  split
  · exact ⟨_, rfl, grows_buffer f bytes⟩
  rename_i hfull
  split
  · -- the buffer is emptied first
    obtain ⟨g, hg, hgrows, hb⟩ := settle_grows hf
    have hg' : g.handle ≠ .device .full := hgrows.handle_eq ▸ hf
    rw [hg]
    change ∃ k, (if bytes.length ≥ capacity then g.put bytes
      else .ok { g with buffer := g.buffer ++ bytes }) = .ok k ∧ _
    split
    · obtain ⟨k, hk, hk'⟩ := put_grows hg' hb bytes
      exact ⟨k, hk, hgrows.trans hk'⟩
    · exact ⟨_, rfl, hgrows.trans (grows_buffer g bytes)⟩
  · -- the bytes fill the buffer, and go past it only if it is empty
    rename_i hfit
    change ∃ k, (if bytes.length ≥ capacity then f.put bytes
      else .ok { f with buffer := f.buffer ++ bytes }) = .ok k ∧ _
    split
    · have hb : f.buffer = [] := by
        rw [← List.length_eq_zero_iff]
        have hpos : 0 < capacity := by decide
        omega
      exact put_grows hf hb bytes
    · exact ⟨_, rfl, grows_buffer f bytes⟩

theorem writeAll_grows (bytes : List UInt8) :
    ∃ g, sink.writeAll f bytes = (none, g) ∧ f.Grows bytes g := by
  -- a write takes all the bytes at once, so that one write is enough
  rw [Sink.writeAll]
  split
  · rename_i hb
    exact ⟨f, rfl, hb ▸ .refl f⟩
  · rename_i hb
    obtain ⟨g, hg, hgrows⟩ := write_grows hf bytes
    refine ⟨g, ?_, hgrows⟩
    obtain ⟨n, hn⟩ := Nat.exists_eq_succ_of_ne_zero (mt List.length_eq_zero_iff.1 hb)
    have hrest : bytes.drop (n + 1) = [] := List.drop_eq_nil_of_le (Nat.le_of_eq hn)
    have hwrite : sink.write f bytes = (.settled (.accepted (n + 1)), g) := by
      simp only [sink, hg, hn]
    rw [hwrite]
    simp only [Attempt.answer, hrest]
    rw [Sink.writeAll, dif_pos rfl]

end

/-- A file that is not the full device does not fail. -/
theorem unfailing : sink.Unfailing fun f => f.handle ≠ .device .full where
  write {f} hf bytes hb := by
    obtain ⟨g, hg, hgrows⟩ := write_grows hf bytes
    obtain ⟨n, hn⟩ := Nat.exists_eq_succ_of_ne_zero (mt List.length_eq_zero_iff.1 hb)
    simp only [sink, hg, hn, hgrows.handle_eq]
    exact ⟨⟨n, rfl⟩, hf⟩
  flush {f} hf := by
    obtain ⟨g, hg, -⟩ := settle_grows hf
    simp only [sink, hg]

end FileSink

/-- All that is read of a stream goes into a file that is not full. -/
theorem copy_grows (path : String) : ∀ (stream : ExportStream) (c : Copy FileSink),
    c.failure = none → c.sink.handle ≠ .device .full →
      c.sink.Grows (data (drained c.cancelled stream).1) (copy FileSink.sink path stream c).1.2.sink
  | .eof, c, hc, hf | .bytes [] _, c, hc, hf => by
    obtain ⟨g, hg, hgrows, -⟩ := FileSink.settle_grows hf
    have hflush : FileSink.sink.flush c.sink = (.ok (), g) := by simp only [FileSink.sink, hg]
    simp only [copy, Copy.finish, hc, hflush]
    exact hgrows
  | .bytes (b :: bs) rest, c, hc, hf => by
    obtain ⟨g, hg, hgrows⟩ := FileSink.writeAll_grows hf (b :: bs)
    have htake : ({ c with reads := c.reads + 1 } : Copy FileSink).take FileSink.sink path (b :: bs) =
        { c with sink := g, written := c.written + (b :: bs).length, reads := c.reads + 1 } := by
      simp only [Copy.take, hc, hg]
    have hcopy := congrArg (copy FileSink.sink path rest) htake
    have hrest := copy_grows path rest
      { c with sink := g, written := c.written + (b :: bs).length, reads := c.reads + 1 } hc
      (hgrows.handle_eq ▸ hf)
    rw [← hcopy] at hrest
    exact hgrows.trans hrest
  | .interrupted rest, c, hc, hf => copy_grows path rest { c with reads := c.reads + 1 } hc hf
  | .failed fault rest, c, hc, hf => by
    simp only [copy, Copy.readFailed, hc]
    exact .refl _
  | .interrupt i rest, c, hc, hf => copy_grows path rest (c.interrupt i) hc hf
  | .poll live cancelled, c, hc, hf => by
    rw [copy, drained]
    split
    · exact copy_grows path cancelled c hc hf
    · exact copy_grows path live c hc hf

/-- A copy into a file that is not full: all that is read is in the file, and a failed read is the
only failure. -/
theorem copy_file (path : String) (stream : ExportStream) (c : Copy FileSink)
    (hc : c.failure = none) (hf : c.sink.handle ≠ .device .full) :
    c.sink.Grows (data (drained c.cancelled stream).1) (copy FileSink.sink path stream c).1.2.sink ∧
      (copy FileSink.sink path stream c).1.1 = readsResult c.written (drained c.cancelled stream).1 :=
  ⟨copy_grows path stream c hc hf, copy_unfailing FileSink.unfailing path stream c hc hf⟩

end ImageRelay.Archive
