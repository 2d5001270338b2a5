import ImageRelay.Engine.Pipes

/-!
# What a transfer shows of its pipes

Whatever order the two pipes are forwarded in and the transfer looks in, and whenever the token is
raised, what is shown are the lines of both pipes, each in its own order, and one error behind them
at most.

* `Mixes`: a sequence that is made of two others, each in its own order.
* `Reading.Live`: the invariant of a reading that is not done. All that was forwarded was taken or
  is in the queue, and what was taken is shown.
* `Reading.Live.step`: a move keeps the invariant, or the reading ends in one of three ways
  (`Reading.Ends`).
* `Reading.exists_outcome`: what is shown under any moves, and how a reading ended.
-/

set_option autoImplicit false

namespace ImageRelay

/-! ## Mixed sequences -/

/-- The third sequence is made of the first two, each of them in its order. -/
inductive Mixes {α : Type} : List α → List α → List α → Prop
  | nil : Mixes [] [] []
  | left {a : α} {as bs cs : List α} (h : Mixes as bs cs) : Mixes (a :: as) bs (a :: cs)
  | right {b : α} {as bs cs : List α} (h : Mixes as bs cs) : Mixes as (b :: bs) (b :: cs)

namespace Mixes

variable {α β : Type} {as bs cs ds : List α}

theorem append_left (h : Mixes as bs cs) (a : α) : Mixes (as ++ [a]) bs (cs ++ [a]) := by
  induction h with
  | nil => exact .left .nil
  | left _ ih => exact .left ih
  | right _ ih => exact .right ih

theorem append_right (h : Mixes as bs cs) (b : α) : Mixes as (bs ++ [b]) (cs ++ [b]) := by
  induction h with
  | nil => exact .right .nil
  | left _ ih => exact .left ih
  | right _ ih => exact .right ih

theorem mem (h : Mixes as bs cs) {c : α} (hc : c ∈ cs) : c ∈ as ∨ c ∈ bs := by
  induction h with
  | nil => cases hc
  | left _ ih =>
    rcases List.mem_cons.1 hc with rfl | hc
    · exact .inl List.mem_cons_self
    · exact (ih hc).imp_left (List.mem_cons_of_mem _)
  | right _ ih =>
    rcases List.mem_cons.1 hc with rfl | hc
    · exact .inr List.mem_cons_self
    · exact (ih hc).imp_right (List.mem_cons_of_mem _)

theorem mem_left (h : Mixes as bs cs) {a : α} (ha : a ∈ as) : a ∈ cs := by
  induction h with
  | nil => cases ha
  | left _ ih =>
    rcases List.mem_cons.1 ha with rfl | ha
    · exact List.mem_cons_self
    · exact List.mem_cons_of_mem _ (ih ha)
  | right _ ih => exact List.mem_cons_of_mem _ (ih ha)

theorem filterMap (f : α → Option β) (h : Mixes as bs cs) :
    Mixes (as.filterMap f) (bs.filterMap f) (cs.filterMap f) := by
  induction h with
  | nil => exact .nil
  | @left a _ _ _ _ ih =>
    cases hf : f a with
    | none => simpa [List.filterMap_cons, hf] using ih
    | some b => simpa [List.filterMap_cons, hf] using ih.left
  | @right b _ _ _ _ ih =>
    cases hf : f b with
    | none => simpa [List.filterMap_cons, hf] using ih
    | some b' => simpa [List.filterMap_cons, hf] using ih.right

theorem of_append (h : Mixes as bs (cs ++ ds)) :
    ∃ as' bs', as' <+: as ∧ bs' <+: bs ∧ Mixes as' bs' cs := by
  generalize hes : cs ++ ds = es at h
  induction h generalizing cs with
  | nil =>
    obtain ⟨rfl, -⟩ := List.append_eq_nil_iff.1 hes
    exact ⟨[], [], List.nil_prefix, List.nil_prefix, .nil⟩
  | @left a as bs es _ ih =>
    cases cs with
    | nil => exact ⟨[], [], List.nil_prefix, List.nil_prefix, .nil⟩
    | cons c cs =>
      obtain ⟨rfl, hes'⟩ := List.cons.inj hes
      obtain ⟨as', bs', ha, hb, hm⟩ := ih hes'
      exact ⟨c :: as', bs', List.cons_prefix_cons.2 ⟨rfl, ha⟩, hb, .left hm⟩
  | @right b as bs es _ ih =>
    cases cs with
    | nil => exact ⟨[], [], List.nil_prefix, List.nil_prefix, .nil⟩
    | cons c cs =>
      obtain ⟨rfl, hes'⟩ := List.cons.inj hes
      obtain ⟨as', bs', ha, hb, hm⟩ := ih hes'
      exact ⟨as', c :: bs', ha, List.cons_prefix_cons.2 ⟨rfl, hb⟩, .right hm⟩

end Mixes

namespace Reading

/-! ## Lines that are shown -/

/-- Whether a line is shown: blank lines are not. -/
def isShown (line : String) : Bool := line.toList.any (!Text.isBlank ·)

def shownLine? : Arrival → Option String
  | .line text => if isShown text then some text else none
  | .unreadable | .nothing | .closed _ _ => none

def itemOf (line : String) : Transfer.Item := .ok (.ofLine line)

theorem filterMap_line (lines : List String) :
    (lines.map Arrival.line).filterMap shownLine? = lines.filter isShown := by
  rw [List.filterMap_map, ← List.filterMap_eq_filter]
  rfl

theorem filterMap_outputArrivals (p : Program.Pipe) :
    (Transfer.outputArrivals p).filterMap shownLine? = p.lines.filter isShown := by
  rw [Transfer.outputArrivals, List.filterMap_append, filterMap_line]
  cases p.broken <;> simp [shownLine?]

theorem filterMap_errorArrivals (p : Program.Pipe) :
    (Transfer.errorArrivals p).filterMap shownLine? = p.lines.filter isShown :=
  filterMap_line p.lines

theorem unreadable_mem_outputArrivals {p : Program.Pipe} :
    Arrival.unreadable ∈ Transfer.outputArrivals p ↔ p.broken = true := by
  cases h : p.broken <;> simp [Transfer.outputArrivals, h]

theorem unreadable_not_mem_errorArrivals (p : Program.Pipe) :
    Arrival.unreadable ∉ Transfer.errorArrivals p := by
  simp [Transfer.errorArrivals]

theorem isEmpty_trim (line : String) : (Text.trim line.toList).isEmpty = !isShown line := by
  rw [Bool.eq_iff_iff, List.isEmpty_iff, Text.trim_eq_nil_iff]
  simp [isShown]

theorem look_line {t : Transfer} (hd : t.done = false) (text : String) :
    t.look false (.line text) = ((shownLine? (.line text)).map itemOf, t) := by
  cases h : isShown text <;> simp [Transfer.look, hd, isEmpty_trim, h, shownLine?, itemOf]

/-! ## The invariant -/

/-- A reading of a run that is not done, with what was forwarded from both pipes and what of it was
taken (module doc). -/
structure Live (run : Program.Run) (description : String) (r : Reading)
    (output errors taken : List Arrival) : Prop where
  done : r.transfer.done = false
  description_eq : r.transfer.description = description
  exit : r.exit = run.exit
  output_eq : Transfer.outputArrivals run.output = output ++ Transfer.outputArrivals r.output
  errors_eq : Transfer.errorArrivals run.errors = errors ++ r.errors.map .line
  mixes : Mixes output errors (taken ++ r.queue)
  lines : ∀ a ∈ taken, ∃ text, a = .line text
  shown : r.shown = (taken.filterMap shownLine?).map itemOf
  outputClosed : r.outputOpen = false → r.output = ⟨[], false⟩
  errorsClosed : r.errorsOpen = false → r.errors = []

theorem live_start (run : Program.Run) (description : String) (hasDirectory : Bool) :
    Live run description (start run (.started description hasDirectory)) [] [] [] where
  done := rfl
  description_eq := rfl
  exit := rfl
  output_eq := rfl
  errors_eq := rfl
  mixes := .nil
  lines := by simp
  shown := rfl
  outputClosed h := by cases h
  errorsClosed h := by cases h

/-! ## Ends -/

/-- How a run has failed: by what it wrote for errors, or by how it ended if that is blank. -/
def failureOf (run : Program.Run) (description : String) : Chain :=
  let detail := Text.trimmed (String.join (run.errors.lines.map (· ++ "\n")))
  .root <| if detail = "" then s!"{description} failed with {run.ending.text}"
    else s!"{description} failed: {detail}"

/-- The error at the end of a program: that the token was raised counts before the failure of the
run. -/
def exitError? (run : Program.Run) (description : String) (cancelled : Bool) : Option Chain :=
  if cancelled then some (.root s!"{description} cancelled")
  else if run.ending.isSuccess then none
  else some (failureOf run description)

theorem fault?_exit (run : Program.Run) (description : String) (cancelled : Bool) :
    run.exit.fault? description cancelled = exitError? run description cancelled := by
  rw [Program.Run.exit, Program.Exit.fault?, exitError?, failureOf]
  split
  · rfl
  · split
    · rfl
    · simp only [Program.joinLines, String.isEmpty_iff]
      split <;> rfl

theorem fault?_of_failed (run : Program.Run) (description : String)
    (h : run.ending.isSuccess = false) :
    run.exit.fault? description false = some (failureOf run description) := by
  simp [fault?_exit, exitError?, h]

theorem exitError?_eq_none_iff (run : Program.Run) (description : String) (cancelled : Bool) :
    exitError? run description cancelled = none ↔
      run.ending.isSuccess = true ∧ cancelled = false := by
  cases cancelled <;> simp [exitError?]

/-- The error behind output that is no text. -/
def unreadableError (description : String) : Chain :=
  ⟨s!"Failed to read output of {description}", ["stream did not contain valid UTF-8"]⟩

/-- How a reading of a run ends from a live one at a move, and with which error. -/
inductive Ends (run : Program.Run) (description : String) (r : Reading) :
    Move → Option Chain → Prop
  | cancelled (hc : r.cancelled = true) :
      Ends run description r .check (some (.root s!"{description} cancelled"))
  | unreadable {rest : List Arrival} (hq : r.queue = .unreadable :: rest)
      (hb : run.output.broken = true) :
      Ends run description r .take (some (unreadableError description))
  | exited (hq : r.queue = []) (ho : r.outputOpen = false) (he : r.errorsOpen = false) :
      Ends run description r .take (exitError? run description r.cancelled)

namespace Live

variable {run : Program.Run} {description : String} {r : Reading}
  {output errors taken : List Arrival}

theorem forwardOutput (l : Live run description r output errors taken) :
    ∃ output', Live run description r.forwardOutput output' errors taken := by
  obtain ⟨out, err, exit, t, oo, eo, q, c, ch, sh⟩ := r
  unfold Reading.forwardOutput
  split
  · rename_i line rest broken hout
    obtain rfl : out = ⟨line :: rest, broken⟩ := hout
    refine ⟨output ++ [.line line], { l with
      output_eq := ?_, mixes := ?_, outputClosed := fun h => by cases l.outputClosed h }⟩
    · rw [l.output_eq]
      simp [Transfer.outputArrivals]
    · rw [← List.append_assoc]
      exact l.mixes.append_left _
  · rename_i hout
    obtain rfl : out = ⟨[], true⟩ := hout
    refine ⟨output ++ [.unreadable], { l with
      output_eq := ?_, mixes := ?_, outputClosed := fun h => by cases l.outputClosed h }⟩
    · rw [l.output_eq]
      simp [Transfer.outputArrivals]
    · rw [← List.append_assoc]
      exact l.mixes.append_left _
  · rename_i hout
    exact ⟨output, { l with outputClosed := fun _ => hout }⟩

theorem forwardErrors (l : Live run description r output errors taken) :
    ∃ errors', Live run description r.forwardErrors output errors' taken := by
  obtain ⟨out, err, exit, t, oo, eo, q, c, ch, sh⟩ := r
  unfold Reading.forwardErrors
  split
  · rename_i line rest herr
    obtain rfl : err = line :: rest := herr
    refine ⟨errors ++ [.line line], { l with
      errors_eq := ?_, mixes := ?_, errorsClosed := fun h => by cases l.errorsClosed h }⟩
    · rw [l.errors_eq]
      simp
    · rw [← List.append_assoc]
      exact l.mixes.append_right _
  · rename_i herr
    exact ⟨errors, { l with errorsClosed := fun _ => herr }⟩

/-- What is in the queue was forwarded: it is a line or no text. -/
theorem queue_cases (l : Live run description r output errors taken) {a : Arrival}
    (ha : a ∈ r.queue) : (∃ text, a = .line text) ∨ a = .unreadable := by
  rcases l.mixes.mem (List.mem_append_right _ ha) with h | h
  · have hmem : a ∈ Transfer.outputArrivals run.output := by
      rw [l.output_eq]
      exact List.mem_append_left _ h
    rcases List.mem_append.1 hmem with hmem | hmem
    · obtain ⟨text, -, rfl⟩ := List.mem_map.1 hmem
      exact .inl ⟨text, rfl⟩
    · split at hmem
      · exact .inr (List.mem_singleton.1 hmem)
      · cases hmem
  · have hmem : a ∈ Transfer.errorArrivals run.errors := by
      rw [l.errors_eq]
      exact List.mem_append_left _ h
    obtain ⟨text, -, rfl⟩ := List.mem_map.1 hmem
    exact .inl ⟨text, rfl⟩

theorem broken_of_queue (l : Live run description r output errors taken) {rest : List Arrival}
    (hq : r.queue = .unreadable :: rest) : run.output.broken = true := by
  have hmem : Arrival.unreadable ∈ taken ++ r.queue := by simp [hq]
  rcases l.mixes.mem hmem with h | h
  · refine unreadable_mem_outputArrivals.1 ?_
    rw [l.output_eq]
    exact List.mem_append_left _ h
  · refine absurd ?_ (unreadable_not_mem_errorArrivals run.errors)
    rw [l.errors_eq]
    exact List.mem_append_left _ h

theorem look_nothing (l : Live run description r output errors taken) :
    r.look false .nothing = { r with checked := false } := by
  simp [look, Transfer.look, l.done]

theorem take_line (l : Live run description r output errors taken) {text : String}
    {rest : List Arrival} (hq : r.queue = .line text :: rest) :
    Live run description { r.look false (.line text) with queue := rest } output errors
      (taken ++ [.line text]) := by
  have hlook := look_line l.done text
  unfold look
  rw [hlook]
  refine { l with mixes := ?_, lines := fun a ha => ?_, shown := ?_ }
  · have hm := l.mixes
    rw [hq] at hm
    simpa using hm
  · rcases List.mem_append.1 ha with ha | ha
    · exact l.lines a ha
    · exact ⟨text, List.mem_singleton.1 ha⟩
  · rw [List.filterMap_append, List.map_append, ← l.shown]
    cases h : shownLine? (.line text) <;> simp [h]

/-- What a move comes to that ends a reading. -/
theorem step_of_ends (l : Live run description r output errors taken) {m : Move}
    {error? : Option Chain} (hc : r.checked = true ∨ m = .check)
    (e : Ends run description r m error?) :
    (r.step m).transfer.done = true ∧
      (r.step m).shown = r.shown ++ error?.toList.map .error := by
  have hd := l.done
  have hdesc := l.description_eq
  cases e with
  | cancelled hcan => simp [step, check, hd, hcan, look, Transfer.look, hdesc, Transfer.finish]
  | unreadable hq =>
    have hch : r.checked = true := hc.resolve_right (by simp)
    have herror : Transfer.unreadableFault description = unreadableError description := rfl
    simp [step, take, hch, arrival, hq, look, Transfer.look, hd, hdesc, herror, Transfer.finish]
  | exited hq ho he =>
    have hch : r.checked = true := hc.resolve_right (by simp)
    have harrival : r.arrival =
        .closed run.exit (if r.cancelled then some .silent else none) := by
      simp [arrival, hq, ho, he, l.exit]
    have hlate : (if r.cancelled = true then some Interrupt.silent else none).isSome =
        r.cancelled := by
      cases r.cancelled <;> rfl
    simp only [step, take, hch, if_true, harrival, look, Transfer.look, hd, hdesc, hlate,
      Bool.false_eq_true, if_false, fault?_exit]
    cases exitError? run description r.cancelled <;> simp [Transfer.finish]

/-- A move keeps a reading live, or ends it. -/
theorem step (l : Live run description r output errors taken) (m : Move) :
    (∃ output' errors' taken', Live run description (r.step m) output' errors' taken') ∨
      ∃ error?, Ends run description r m error? ∧
        (r.step m).transfer.done = true ∧
        (r.step m).shown = r.shown ++ error?.toList.map .error := by
  cases m with
  | forwardOutput =>
    obtain ⟨output', l'⟩ := l.forwardOutput
    exact .inl ⟨output', errors, taken, l'⟩
  | forwardErrors =>
    obtain ⟨errors', l'⟩ := l.forwardErrors
    exact .inl ⟨output, errors', taken, l'⟩
  | interrupt => exact .inl ⟨output, errors, taken, { l with }⟩
  | check =>
    cases hc : r.cancelled with
    | true =>
      have he : Ends run description r .check _ := .cancelled hc
      exact .inr ⟨_, he, l.step_of_ends (.inr rfl) he⟩
    | false =>
      refine .inl ⟨output, errors, taken, ?_⟩
      rw [Reading.step, check, if_neg (by simp [l.done]), if_neg (by simp [hc])]
      exact { l with }
  | take =>
    cases hch : r.checked with
    | false =>
      -- a look begins with a check, so without one nothing is taken
      refine .inl ⟨output, errors, taken, ?_⟩
      rw [Reading.step, take, if_neg (by simp [hch])]
      exact l
    | true =>
      have htake : r.step .take = { r.look false r.arrival with queue := r.queue.drop 1 } :=
        if_pos hch
      cases hq : r.queue with
      | nil =>
        by_cases hopen : r.outputOpen = false ∧ r.errorsOpen = false
        · have he : Ends run description r .take _ := .exited hq hopen.1 hopen.2
          exact .inr ⟨_, he, l.step_of_ends (.inl hch) he⟩
        · have harrival : r.arrival = .nothing := by
            cases ho : r.outputOpen <;> cases he : r.errorsOpen <;> simp_all [arrival]
          refine .inl ⟨output, errors, taken, ?_⟩
          rw [htake, harrival, l.look_nothing, hq]
          exact { l with mixes := by simpa [hq] using l.mixes }
      | cons a rest =>
        have harrival : r.arrival = a := by simp [arrival, hq]
        rcases l.queue_cases (hq ▸ List.mem_cons_self) with ⟨text, rfl⟩ | rfl
        · refine .inl ⟨output, errors, taken ++ [.line text], ?_⟩
          rw [htake, harrival, hq]
          exact l.take_line hq
        · have he : Ends run description r .take _ := .unreadable hq (l.broken_of_queue hq)
          exact .inr ⟨_, he, l.step_of_ends (.inl hch) he⟩

end Live

/-! ## Readings that are done -/

theorem look_done {r : Reading} (hd : r.transfer.done = true) (cancelled : Bool) (a : Arrival) :
    r.look cancelled a = { r with checked := false } := by
  simp [look, Transfer.look_of_done hd]

/-- A reading that is done stays done and shows nothing more. -/
theorem step_done {r : Reading} (hd : r.transfer.done = true) (m : Move) :
    (r.step m).transfer.done = true ∧ (r.step m).shown = r.shown := by
  cases m with
  | forwardOutput =>
    rw [step, forwardOutput]
    split <;> exact ⟨hd, rfl⟩
  | forwardErrors =>
    rw [step, forwardErrors]
    split <;> exact ⟨hd, rfl⟩
  | interrupt => exact ⟨hd, rfl⟩
  | check =>
    rw [step, check, if_pos hd]
    exact ⟨hd, rfl⟩
  | take =>
    rw [step, take, look_done hd]
    split <;> exact ⟨hd, rfl⟩

theorem play_done {r : Reading} (hd : r.transfer.done = true) (moves : List Move) :
    (r.play moves).transfer.done = true ∧ (r.play moves).shown = r.shown := by
  induction moves generalizing r with
  | nil => exact ⟨hd, rfl⟩
  | cons m moves ih =>
    obtain ⟨hd', hs⟩ := step_done hd m
    obtain ⟨hdone, hshown⟩ := ih hd'
    exact ⟨hdone, hshown.trans hs⟩

/-- Under any moves a reading stays live, or there is one move that ends it. -/
theorem Live.play {run : Program.Run} {description : String} :
    ∀ {r : Reading} {output errors taken : List Arrival},
      Live run description r output errors taken → ∀ moves : List Move,
      (∃ output' errors' taken', Live run description (r.play moves) output' errors' taken') ∨
      ∃ before m after output' errors' taken' error?, moves = before ++ m :: after ∧
        Live run description (r.play before) output' errors' taken' ∧
        Ends run description (r.play before) m error? ∧
        (r.play (before ++ [m])).transfer.done = true ∧
        (r.play (before ++ [m])).shown = (r.play before).shown ++ error?.toList.map .error
  | _, output, errors, taken, l, [] => .inl ⟨output, errors, taken, l⟩
  | r, output, errors, taken, l, m :: moves => by
    rcases l.step m with ⟨output', errors', taken', l'⟩ | ⟨error?, he, hd, hs⟩
    · rcases l'.play moves with hlive | ⟨before, m', after, o, e, t, error?, rfl, hl, he, hd, hs⟩
      · exact .inl hlive
      · exact .inr ⟨m :: before, m', after, o, e, t, error?, rfl, hl, he, hd, hs⟩
    · exact .inr ⟨[], m, moves, output, errors, taken, error?, rfl, l, he, hd, hs⟩

/-! ## What is shown -/

/-- What a reading of a run has shown: these lines, and behind them this error. -/
structure Shows (run : Program.Run) (r : Reading) (lines : List String) (error? : Option Chain) :
    Prop where
  shown : r.shown = lines.map itemOf ++ error?.toList.map .error
  mixes : ∃ output errors, output <+: run.output.lines.filter isShown ∧
    errors <+: run.errors.lines.filter isShown ∧ Mixes output errors lines
  done : error? ≠ none → r.transfer.done = true

/-- All lines of both pipes that are shown. -/
def ShowsAll (run : Program.Run) (lines : List String) : Prop :=
  Mixes (run.output.lines.filter isShown) (run.errors.lines.filter isShown) lines

/-- A reading ended at the move `m`, which led from `last` to `next`: only then it is done, and what
it has shown are the lines and behind them the error, if there is one. -/
structure EndsAt (run : Program.Run) (description : String) (last : Reading) (m : Move)
    (next : Reading) (lines : List String) (error? : Option Chain) : Prop where
  live : last.transfer.done = false
  done : next.transfer.done = true
  shown : next.shown = lines.map itemOf ++ error?.toList.map .error
  ends : Ends run description last m error?
  error_iff : error? = none ↔ ShowsAll run lines ∧ run.output.broken = false ∧
    run.ending.isSuccess = true ∧ last.cancelled = false
  exited : m = .take → last.queue = [] → last.outputOpen = false → last.errorsOpen = false →
    run.ending.isSuccess = false → last.cancelled = false →
    ShowsAll run lines ∧ error? = some (failureOf run description)

theorem Live.shows {run : Program.Run} {description : String} {r : Reading}
    {output errors taken : List Arrival} (l : Live run description r output errors taken) :
    ∃ os es, os <+: run.output.lines.filter isShown ∧ es <+: run.errors.lines.filter isShown ∧
      Mixes os es (taken.filterMap shownLine?) := by
  obtain ⟨os, es, ho, he, hm⟩ := l.mixes.of_append
  refine ⟨os.filterMap shownLine?, es.filterMap shownLine?, ?_, ?_, hm.filterMap shownLine?⟩
  · rw [← filterMap_outputArrivals, l.output_eq]
    exact (ho.trans (List.prefix_append _ _)).filterMap shownLine?
  · rw [← filterMap_errorArrivals, l.errors_eq]
    exact (he.trans (List.prefix_append _ _)).filterMap shownLine?

/-- Where both pipes hung up and the queue is empty, all lines were taken and all of it was text. -/
theorem Live.showsAll {run : Program.Run} {description : String} {r : Reading}
    {output errors taken : List Arrival} (l : Live run description r output errors taken)
    (hq : r.queue = []) (ho : r.outputOpen = false) (he : r.errorsOpen = false) :
    ShowsAll run (taken.filterMap shownLine?) ∧ run.output.broken = false := by
  have hout : Transfer.outputArrivals run.output = output := by
    rw [l.output_eq, l.outputClosed ho]
    exact List.append_nil _
  have herr : Transfer.errorArrivals run.errors = errors := by
    rw [l.errors_eq, l.errorsClosed he]
    exact List.append_nil _
  have hm := l.mixes
  rw [hq, List.append_nil] at hm
  refine ⟨?_, Bool.eq_false_iff.2 fun hb => ?_⟩
  · rw [ShowsAll, ← filterMap_outputArrivals, ← filterMap_errorArrivals, hout, herr]
    exact hm.filterMap shownLine?
  · have hmem := hm.mem_left (hout ▸ unreadable_mem_outputArrivals.2 hb)
    obtain ⟨text, htext⟩ := l.lines _ hmem
    cases htext

theorem Ends.endsAt {run : Program.Run} {description : String} {r next : Reading}
    {output errors taken : List Arrival} {m : Move} {error? : Option Chain}
    (e : Ends run description r m error?) (l : Live run description r output errors taken)
    (hd : next.transfer.done = true) (hs : next.shown = r.shown ++ error?.toList.map .error) :
    EndsAt run description r m next (taken.filterMap shownLine?) error? where
  live := l.done
  done := hd
  shown := by rw [hs, l.shown]
  ends := e
  error_iff := by
    cases e with
    | cancelled hc => simp [hc]
    | unreadable hq hb => simp [hb]
    | exited hq ho he =>
      obtain ⟨hall, hbroken⟩ := l.showsAll hq ho he
      rw [exitError?_eq_none_iff]
      simp [hall, hbroken]
  exited hm hq ho he hfailed hc := by
    refine ⟨(l.showsAll hq ho he).1, ?_⟩
    cases e with
    | cancelled => cases hm
    | unreadable hq' => rw [hq] at hq'; cases hq'
    | exited => simp [exitError?, hc, hfailed]

/-- What moves come to from the reading `r`: what is shown then, that nothing more is shown once it
is done, and how it ended in that case. -/
structure Outcome (run : Program.Run) (description : String) (r : Reading) (moves : List Move)
    (lines : List String) (error? : Option Chain) : Prop where
  shows : Shows run (r.play moves) lines error?
  final : (r.play moves).transfer.done = true →
    ∀ more, (r.play (moves ++ more)).shown = (r.play moves).shown
  ended : (r.play moves).transfer.done = true → ∃ before m after, moves = before ++ m :: after ∧
    EndsAt run description (r.play before) m (r.play (before ++ [m])) lines error?

theorem exists_outcome (run : Program.Run) (description : String) (hasDirectory : Bool)
    (moves : List Move) : ∃ lines error?,
      Outcome run description (start run (.started description hasDirectory)) moves lines
        error? := by
  rcases (live_start run description hasDirectory).play moves with
    ⟨output, errors, taken, l⟩ |
    ⟨before, m, after, output, errors, taken, error?, rfl, l, he, hd, hs⟩
  · have hnot : ¬ ((start run (.started description hasDirectory)).play moves).transfer.done =
        true := by simp [l.done]
    refine ⟨taken.filterMap shownLine?, none, ⟨?_, l.shows, fun h => absurd rfl h⟩,
      fun hd => absurd hd hnot, fun hd => absurd hd hnot⟩
    rw [l.shown]
    simp
  · have hends := he.endsAt l hd hs
    -- what follows the move that ends it changes nothing
    have hplay := play_done hd after
    rw [← play_append, List.append_assoc, List.singleton_append] at hplay
    refine ⟨taken.filterMap shownLine?, error?, ⟨?_, l.shows, fun _ => hplay.1⟩, fun _ more => ?_,
      fun _ => ⟨before, m, after, rfl, hends⟩⟩
    · rw [hplay.2, hends.shown]
    · rw [play_append]
      exact (play_done hplay.1 more).2

end Reading

end ImageRelay
