import ImageRelay.Proofs.Engine.Pipes

/-!
# Readings come to their end

A reading ends at the next check of a token that is raised, at a look at something that is no text,
and at a look behind both pipes. In a round both pipes are forwarded and the transfer looks; each
round takes one arrival, and the first that finds none is the last.

* `Reading.Concludes`: when a reading is done, and that it can always be brought there.
* `Reading.remaining`: the number of arrivals that are still to be taken. Forwarding keeps it, and
  a round lowers it or ends the reading (`Reading.play_round`).
* `Reading.concludes`: all of this holds of every reading.
-/

set_option autoImplicit false

namespace ImageRelay.Reading

/-! ## Looks -/

theorem look_true_done (t : Transfer) (a : Arrival) : (t.look true a).2.done = true := by
  unfold Transfer.look
  split
  · assumption
  · rfl

theorem look_eq (r : Reading) (cancelled : Bool) (a : Arrival) : r.look cancelled a =
    { r with
      transfer := (r.transfer.look cancelled a).2
      checked := false
      shown := r.shown ++ (r.transfer.look cancelled a).1.toList } := rfl

theorem play_check_take {r : Reading} (hd : r.transfer.done = false) (hc : r.cancelled = false) :
    r.play [.check, .take] =
      { r with
        transfer := (r.transfer.look false r.arrival).2
        queue := r.queue.drop 1
        checked := false
        shown := r.shown ++ (r.transfer.look false r.arrival).1.toList } := by
  have hcheck : r.step .check = { r with checked := true } := by
    rw [step, check, if_neg (by simp [hd]), if_neg (by simp [hc])]
  change (r.step .check).step .take = _
  rw [hcheck, step, take, if_pos rfl, look_eq]
  rfl

theorem play_check_done {r : Reading} (hc : r.cancelled = true) :
    (r.play [.check]).transfer.done = true := by
  cases hd : r.transfer.done with
  | true => exact (play_done hd [.check]).1
  | false =>
    have hcheck : r.play [.check] = r.look true .nothing := by
      simp [play, step, check, hd, hc]
    rw [hcheck, look_eq]
    exact look_true_done r.transfer .nothing

/-- A look ends a reading that was not done before and whose token is not raised, or finds more. -/
theorem play_look_done {r : Reading}
    (h : r.transfer.done = false → r.cancelled = false →
      (r.transfer.look false r.arrival).2.done = true) :
    (r.play [.check, .take]).transfer.done = true := by
  cases hd : r.transfer.done with
  | true => exact (play_done hd [.check, .take]).1
  | false =>
    cases hc : r.cancelled with
    | true => exact (play_done (play_check_done hc) [.take]).1
    | false =>
      rw [play_check_take hd hc]
      exact h hd hc

theorem play_unreadable_done {r : Reading} (h : r.queue.head? = some .unreadable) :
    (r.play [.check, .take]).transfer.done = true := by
  obtain ⟨rest, hq⟩ := List.head?_eq_some_iff.1 h
  refine play_look_done fun hd _ => ?_
  simp [arrival, hq, Transfer.look, hd, Transfer.finish]

theorem play_closed_done {r : Reading} (hq : r.queue = []) (ho : r.outputOpen = false)
    (he : r.errorsOpen = false) : (r.play [.check, .take]).transfer.done = true := by
  refine play_look_done fun hd _ => ?_
  simp [arrival, hq, ho, he, Transfer.look, hd, Transfer.finish]

/-! ## Rounds -/

/-- The moves of some rounds: in each, both pipes are forwarded, and then the transfer looks. -/
def rounds : Nat → List Move
  | 0 => []
  | n + 1 => [.forwardOutput, .forwardErrors, .check, .take] ++ rounds n

/-- The number of arrivals that are still to be taken. -/
def remaining (r : Reading) : Nat :=
  r.queue.length + (Transfer.outputArrivals r.output).length + r.errors.length

theorem remaining_forwardOutput (r : Reading) : r.forwardOutput.remaining = r.remaining := by
  obtain ⟨⟨out, broken⟩, err, exit, t, oo, eo, q, c, ch, sh⟩ := r
  cases out with
  | cons l rest =>
    have hout : Transfer.outputArrivals ⟨l :: rest, broken⟩ =
        .line l :: Transfer.outputArrivals ⟨rest, broken⟩ := rfl
    simp only [forwardOutput, remaining, hout, List.length_append, List.length_cons,
      List.length_nil]
    omega
  | nil => cases broken <;> simp [forwardOutput, remaining, Transfer.outputArrivals]

theorem remaining_forwardErrors (r : Reading) : r.forwardErrors.remaining = r.remaining := by
  obtain ⟨out, err, exit, t, oo, eo, q, c, ch, sh⟩ := r
  cases err with
  | cons l rest =>
    simp only [forwardErrors, remaining, List.length_append, List.length_cons, List.length_nil]
    omega
  | nil => rfl

/-- If nothing is in the queue behind forwarding both pipes, both have hung up. -/
theorem closed_of_queue {r : Reading} (h : r.forwardOutput.forwardErrors.queue = []) :
    r.forwardOutput.forwardErrors.outputOpen = false ∧
      r.forwardOutput.forwardErrors.errorsOpen = false := by
  obtain ⟨⟨out, broken⟩, err, exit, t, oo, eo, q, c, ch, sh⟩ := r
  cases out with
  | cons l rest => cases err <;> simp [forwardOutput, forwardErrors] at h
  | nil => cases broken <;> cases err <;> simp_all [forwardOutput, forwardErrors]

/-- A round takes one arrival, or ends the reading. -/
theorem play_round (r : Reading) :
    (r.play [.forwardOutput, .forwardErrors, .check, .take]).transfer.done = true ∨
      (r.play [.forwardOutput, .forwardErrors, .check, .take]).remaining < r.remaining := by
  change (r.forwardOutput.forwardErrors.play [.check, .take]).transfer.done = true ∨
    (r.forwardOutput.forwardErrors.play [.check, .take]).remaining < r.remaining
  have hremaining : r.remaining = r.forwardOutput.forwardErrors.remaining := by
    rw [remaining_forwardErrors, remaining_forwardOutput]
  rw [hremaining]
  cases hq : r.forwardOutput.forwardErrors.queue with
  | nil =>
    obtain ⟨ho, he⟩ := closed_of_queue hq
    exact .inl (play_closed_done hq ho he)
  | cons a rest =>
    generalize r.forwardOutput.forwardErrors = r' at hq ⊢
    cases hd : r'.transfer.done with
    | true => exact .inl (play_done hd [.check, .take]).1
    | false =>
      cases hc : r'.cancelled with
      | true => exact .inl (play_done (play_check_done hc) [.take]).1
      | false =>
        rw [play_check_take hd hc]
        refine .inr ?_
        simp only [remaining, hq, List.drop_succ_cons, List.drop_zero, List.length_cons]
        omega

/-- As many rounds as there are arrivals, and one more, end a reading. -/
theorem play_rounds {r : Reading} {n : Nat} (h : r.remaining < n) :
    (r.play (rounds n)).transfer.done = true := by
  induction n generalizing r with
  | zero => exact absurd h (Nat.not_lt_zero _)
  | succ n ih =>
    rw [rounds, play_append]
    rcases play_round r with hd | hlt
    · exact (play_done hd _).1
    · exact ih (by omega)

/-! ## The end -/

/-- When a reading is done, and that it can be brought to its end. -/
structure Concludes (r : Reading) : Prop where
  raised : r.cancelled = true → (r.play [.check]).transfer.done = true
  unreadable : r.queue.head? = some .unreadable → (r.play [.check, .take]).transfer.done = true
  exited : r.queue = [] → r.outputOpen = false → r.errorsOpen = false →
    (r.play [.check, .take]).transfer.done = true
  exists_rounds : ∃ n, (r.play (rounds n)).transfer.done = true

theorem concludes (r : Reading) : Concludes r where
  raised := play_check_done
  unreadable := play_unreadable_done
  exited := play_closed_done
  exists_rounds := ⟨r.remaining + 1, play_rounds (Nat.lt_succ_self _)⟩

end ImageRelay.Reading
