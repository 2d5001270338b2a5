import ImageRelay.Proofs.Batch.Attempts
import ImageRelay.Proofs.Engine.Rounds

/-!
# Streams of transfers as readings

The stream that an engine hands out for a transfer lets errors arrive before output. Every way
through it is a reading that is done, of one of the orders in which the pipes can be forwarded
(`Reading.exists_play_of_reads`), so what holds of all readings that are done holds of it.

* `Reading.Played`: the ways through the rest of a stream can be played from where a reading is.
* `Reading.transfer_shows`: what a transfer shows of its pipes, in any order and in its stream.
-/

set_option autoImplicit false

namespace ImageRelay.Reading

/-! ## Ways through streams -/

/-- A way through the stream of a look: the item that is shown, and then the rest if the transfer is
not done. -/
theorem reads_lookStream {raised c : Bool} {a : Arrival} {rest : Transfer → ProgressStream}
    {t : Transfer} {items : List Transfer.Item}
    (h : (t.lookStream c a rest).Reads raised items) :
    ∃ raised' items', (raised = true → raised' = true) ∧
      items = (t.look c a).1.toList ++ items' ∧
      (if (t.look c a).2.done then items' = [] else
        (rest (t.look c a).2).Reads raised' items') := by
  unfold Transfer.lookStream at h
  generalize t.look c a = l at h ⊢
  obtain ⟨item, t'⟩ := l
  cases item with
  | none =>
    refine ⟨raised, items, id, rfl, ?_⟩
    cases hd : t'.done with
    | true =>
      simp only [hd, if_true] at h ⊢
      cases h
      rfl
    | false => simpa [hd] using h
  | some it =>
    cases h with
    | @item _ raised' _ _ items' hr h =>
      refine ⟨raised', items', hr, rfl, ?_⟩
      cases hd : t'.done with
      | true =>
        simp only [hd, if_true] at h ⊢
        cases h
        rfl
      | false => simpa [hd] using h

theorem reads_arrives {raised : Bool} {a : Arrival} {hs : List Transfer.Happening} {t : Transfer}
    {items : List Transfer.Item}
    (h : (Transfer.stream (.arrives a :: hs) t).Reads raised items) :
    ∃ raised' items', (raised = true → raised' = true) ∧
      items = (t.look raised a).1.toList ++ items' ∧
      (if (t.look raised a).2.done then items' = [] else
        (Transfer.stream hs (t.look raised a).2).Reads raised' items') := by
  rw [Transfer.stream] at h
  cases h with
  | poll h =>
    cases raised with
    | true =>
      rw [if_pos rfl] at h
      exact reads_lookStream h
    | false =>
      rw [if_neg Bool.false_ne_true] at h
      -- the token can be raised while it is waited for the exit, behind the check
      unfold Transfer.lateInterrupt at h
      split at h
      · cases h with
        | interrupt h =>
          obtain ⟨raised', items', -, hitems, hrest⟩ := reads_lookStream h
          exact ⟨raised', items', by simp, hitems, hrest⟩
      · exact reads_lookStream h

/-! ## Moves -/

/-- What is still to arrive from both pipes, errors first. -/
def pending (r : Reading) : List Arrival :=
  r.errors.map .line ++ Transfer.outputArrivals r.output

/-- What is still to arrive can be forwarded into the empty queue, one at a time. -/
theorem exists_forward {r : Reading} {a : Arrival} {as : List Arrival} (hp : r.pending = a :: as)
    (hq : r.queue = []) : ∃ m output errors,
      r.step m = { r with output, errors, queue := [a] } ∧
      errors.map .line ++ Transfer.outputArrivals output = as := by
  obtain ⟨⟨out, broken⟩, err, exit, t, oo, eo, q, c, ch, sh⟩ := r
  obtain rfl : q = [] := hq
  cases err with
  | cons l rest =>
    obtain ⟨rfl, has⟩ := List.cons.inj hp
    exact ⟨.forwardErrors, ⟨out, broken⟩, rest, rfl, has⟩
  | nil =>
    cases out with
    | cons l rest =>
      obtain ⟨rfl, has⟩ := List.cons.inj hp
      exact ⟨.forwardOutput, ⟨rest, broken⟩, [], rfl, has⟩
    | nil =>
      cases broken with
      | true =>
        obtain ⟨rfl, has⟩ := List.cons.inj hp
        exact ⟨.forwardOutput, ⟨[], false⟩, [], rfl, has⟩
      | false => cases hp

/-- When all was forwarded both pipes hang up. -/
theorem play_hangUp {r : Reading} (hp : r.pending = []) :
    r.play [.forwardErrors, .forwardOutput] =
      { r with outputOpen := false, errorsOpen := false } := by
  obtain ⟨⟨out, broken⟩, err, exit, t, oo, eo, q, c, ch, sh⟩ := r
  obtain ⟨rfl, hout⟩ : err = [] ∧ Transfer.outputArrivals ⟨out, broken⟩ = [] := by
    simpa [pending] using hp
  obtain ⟨rfl, rfl⟩ : out = [] ∧ broken = false := by
    simpa [Transfer.outputArrivals] using hout
  rfl

/-- A raised token is seen at the next check, whatever arrives. -/
theorem exists_play_of_cancelled {r : Reading} {a : Arrival} {hs : List Transfer.Happening}
    {items : List Transfer.Item} (hd : r.transfer.done = false) (hc : r.cancelled = true)
    (h : (Transfer.stream (.arrives a :: hs) r.transfer).Reads r.cancelled items) :
    ∃ moves, (r.play moves).transfer.done = true ∧ (r.play moves).shown = r.shown ++ items := by
  obtain ⟨raised, items', -, rfl, hrest⟩ := reads_arrives h
  rw [hc, look_true_done, if_pos rfl] at hrest
  have hcheck : (r.play [.check]).shown = r.shown ++ (r.transfer.look true a).1.toList := by
    simp [play, step, check, look, Transfer.look, hd, hc]
  rw [hrest, hc, List.append_nil]
  exact ⟨[.check], play_check_done hc, hcheck⟩

/-! ## Playing a stream -/

/-- The ways through the stream of `hs` can be played to the end from readings of a program that
ends like this, if the arrivals are still to be forwarded. -/
def Played (exit : Program.Exit) (arrivals : List Arrival) (hs : List Transfer.Happening) : Prop :=
  ∀ (r : Reading) (items : List Transfer.Item), r.exit = exit → r.pending = arrivals →
    r.queue = [] → r.transfer.done = false →
    (Transfer.stream hs r.transfer).Reads r.cancelled items →
    ∃ moves, (r.play moves).transfer.done = true ∧ (r.play moves).shown = r.shown ++ items

section
variable {exit : Program.Exit} {as : List Arrival} {hs : List Transfer.Happening}

/-- The token may have been raised just before. -/
theorem Played.raised (hp : Played exit as hs) {r : Reading} {items : List Transfer.Item}
    {raised : Bool} (he : r.exit = exit) (hpending : r.pending = as) (hq : r.queue = [])
    (hd : r.transfer.done = false) (hr : r.cancelled = true → raised = true)
    (h : (Transfer.stream hs r.transfer).Reads raised items) :
    ∃ moves, (r.play moves).transfer.done = true ∧ (r.play moves).shown = r.shown ++ items := by
  cases raised with
  | true =>
    obtain ⟨moves, hm⟩ := hp { r with cancelled := true } items he hpending hq hd h
    exact ⟨.interrupt :: moves, hm⟩
  | false =>
    have hc : r.cancelled = false := Bool.eq_false_iff.2 fun hc => Bool.false_ne_true (hr hc)
    exact hp r items he hpending hq hd (hc ▸ h)

theorem Played.interrupted (hp : Played exit as hs) (i : Interrupt) :
    Played exit as (.interrupted i :: hs) := by
  intro r items he hpending hq hd h
  rw [Transfer.stream] at h
  cases h with
  | interrupt h => exact hp.raised he hpending hq hd (fun _ => rfl) h

theorem Played.arrives (hp : Played exit as hs) (a : Arrival) :
    Played exit (a :: as) (.arrives a :: hs) := by
  intro r items he hpending hq hd h
  cases hc : r.cancelled with
  | true => exact exists_play_of_cancelled hd hc h
  | false =>
    rw [hc] at h
    obtain ⟨raised, items', hr, rfl, hrest⟩ := reads_arrives h
    obtain ⟨m, output, errors, hstep, hpending'⟩ := exists_forward hpending hq
    -- what arrives is forwarded, and the next look takes it
    have hplay : r.play [m, .check, .take] =
        { r with
          output
          errors
          transfer := (r.transfer.look false a).2
          queue := []
          checked := false
          shown := r.shown ++ (r.transfer.look false a).1.toList } := by
      change (r.step m).play [.check, .take] = _
      rw [hstep]
      exact play_check_take hd hc
    split at hrest
    · rename_i hdone
      rw [hrest, List.append_nil]
      exact ⟨[m, .check, .take], by rw [hplay]; exact hdone, by rw [hplay]⟩
    · rename_i hnd
      obtain ⟨moves, hdone, hm⟩ := hp.raised (r := r.play [m, .check, .take]) (by rw [hplay, he])
        (by rw [hplay]; exact hpending') (by rw [hplay]) (by rw [hplay]; simpa using hnd)
        (by rw [hplay, hc]; exact hr) (by rw [hplay]; exact hrest)
      refine ⟨[m, .check, .take] ++ moves, by rw [play_append]; exact hdone, ?_⟩
      rw [play_append, hm, hplay, List.append_assoc]

theorem Played.arriveAll (hp : Played exit [] hs) (as : List Arrival) :
    Played exit as (as.map .arrives ++ hs) := by
  induction as with
  | nil => exact hp
  | cons a as ih => exact ih.arrives a

/-- A program that is held is ended by the raised token. -/
theorem played_held (i : Interrupt) : Played exit [] [.interrupted i, .arrives .nothing] := by
  intro r items _ _ _ hd h
  rw [Transfer.stream] at h
  cases h with
  | interrupt h =>
    let raised : Reading := { r with cancelled := true }
    obtain ⟨moves, hdone, hm⟩ := exists_play_of_cancelled (r := raised) hd rfl h
    exact ⟨.interrupt :: moves, hdone, hm⟩

/-- When all was forwarded both pipes hang up, and the program is waited for. -/
theorem played_closed : Played exit [] [.arrives (.closed exit none)] := by
  intro r items he hpending hq hd h
  cases hc : r.cancelled with
  | true => exact exists_play_of_cancelled hd hc h
  | false =>
    rw [hc] at h
    obtain ⟨raised, items', -, rfl, hrest⟩ := reads_arrives h
    have hdone : (r.transfer.look false (.closed exit none)).2.done = true := by
      simp [Transfer.look, hd, Transfer.finish]
    rw [hdone, if_pos rfl] at hrest
    rw [hrest, List.append_nil]
    have harrival : ({ r with outputOpen := false, errorsOpen := false } : Reading).arrival =
        .closed exit none := by
      simp [arrival, hq, hc, he]
    have hplay := play_append r [.forwardErrors, .forwardOutput] [.check, .take]
    rw [play_hangUp hpending] at hplay
    refine ⟨[.forwardErrors, .forwardOutput] ++ [.check, .take], ?_, ?_⟩
    · rw [hplay]
      exact play_closed_done hq rfl rfl
    · rw [hplay, play_check_take (by exact hd) (by exact hc), harrival]

end

/-- Every way through the stream of a transfer can be played: what an engine hands out is a reading
that is done, with the pipes forwarded one after the other. -/
theorem exists_play_of_reads (run : Program.Run) (description : String) (hasDirectory : Bool)
    {raised : Bool} {items : List Transfer.Item}
    (h : (Transfer.stream (Transfer.happenings run) (.started description hasDirectory)).Reads
      raised items) :
    ∃ moves, ((start run (.started description hasDirectory)).play moves).transfer.done = true ∧
      ((start run (.started description hasDirectory)).play moves).shown = items := by
  have hp : Played run.exit (Transfer.errorArrivals run.errors ++
      Transfer.outputArrivals run.output) (Transfer.happenings run) := by
    refine Played.arriveAll ?_ _
    split
    · exact played_held .announced
    · cases run.interrupted with
      | true => exact played_closed.interrupted .announced
      | false => exact played_closed
  exact hp.raised (r := start run (.started description hasDirectory)) rfl rfl rfl rfl
    (fun h' => by cases h') h

/-- **What a transfer shows of its pipes**: under any moves these are messages of the lines of both
pipes, each in its order, and one error behind them at most. A reading that is done shows nothing
more; one move has ended it, without an error exactly if all lines were shown, all output was text,
the program succeeded and the token was not raised, and otherwise with the error of that end. From
wherever it is, a reading can be brought to its end, and it has come to it with a raised token at
the next check and without one at a look behind both pipes. The stream of a transfer shows what a
reading does that is done. -/
theorem transfer_shows (run : Program.Run) (description : String) (hasDirectory : Bool) :
    (∀ moves, ∃ lines error?,
      Outcome run description (start run (.started description hasDirectory)) moves lines error?) ∧
    (∀ moves, Concludes ((start run (.started description hasDirectory)).play moves)) ∧
    ∀ raised items,
      (Transfer.stream (Transfer.happenings run) (.started description hasDirectory)).Reads
        raised items →
      ∃ moves, ((start run (.started description hasDirectory)).play moves).transfer.done = true ∧
        ((start run (.started description hasDirectory)).play moves).shown = items :=
  ⟨exists_outcome run description hasDirectory, fun _ => concludes _,
    fun _ _ h => exists_play_of_reads run description hasDirectory h⟩

end ImageRelay.Reading
