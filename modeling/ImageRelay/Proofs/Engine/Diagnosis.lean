import ImageRelay.Proofs.Engine.Exports
import ImageRelay.Proofs.Engine.Streams
import ImageRelay.Proofs.Text.Lossy

/-!
# What is told of the diagnosis of a failed program

A tag or removal tells all that its program wrote for errors, whatever the bytes are. Transfers and
exports read it line by line and give up at the first line that is no text, so they tell the lines
before it (`Program.Run.readable_prefix`), which are all of them exactly if the bytes are a text
(`Program.Run.readable_eq_iff`).

* `Program.Pipe.exists_rest`: what of the lines of a pipe is read.
* `Reading.trailing_of_done`: the error behind which a reading of a failed run shows nothing more.
* `Export.Plays.failed`: the fault of an export of a failed run.
* `Container.failure_tells`: what is told of a failed run by every call.
-/

set_option autoImplicit false

namespace ImageRelay

open Text

/-! ## Lines that are read -/

namespace Program

/-- All lines of a pipe are read, or those before the first one that is no text. -/
theorem Pipe.exists_rest (ls : List (List UInt8)) : ∃ rest,
    ls = (Pipe.ofLines ls).lines.map Utf8.encode ++ rest ∧
    ((Pipe.ofLines ls).broken = false ∧ rest = [] ∨
      (Pipe.ofLines ls).broken = true ∧ ∃ l after, rest = l :: after ∧ Utf8.decode? l = none) := by
  induction ls with
  | nil => exact ⟨[], rfl, .inl ⟨rfl, rfl⟩⟩
  | cons l ls ih =>
    rw [Pipe.ofLines]
    split
    · rename_i hl
      exact ⟨l :: ls, rfl, .inr ⟨rfl, l, ls, rfl, hl⟩⟩
    · rename_i s hl
      obtain ⟨rest, heq, hrest⟩ := ih
      refine ⟨rest, ?_, hrest⟩
      rw [List.map_cons, List.cons_append, ← heq, ← Utf8.eq_encode_of_decode? hl]

/-- Each line ends behind itself, so their joined text has just them. -/
theorem tightLines_joinLines {ls : List String} (h : ∀ s ∈ ls, '\n' ∉ s.toList) :
    tightLines (joinLines ls).toList = ls.filterMap fun s => tight? s.toList := by
  induction ls with
  | nil => rfl
  | cons s ls ih =>
    have hjoin : (joinLines (s :: ls)).toList = s.toList ++ '\n' :: (joinLines ls).toList := by
      simp [joinLines]
    rw [hjoin, tightLines_append, tightLines_of_not_mem (h s List.mem_cons_self),
      ih fun t ht => h t (List.mem_cons_of_mem _ ht), List.filterMap_cons]
    cases tight? s.toList <;> rfl

namespace Run

/-- The lines that a run writes for errors and that are not blank, read whatever their bytes are. -/
def diagnosis (r : Run) : List (List Char) := tightLines (Utf8.decodeLossy r.stderr).toList

/-- Those of them that can be read line by line. -/
def readable (r : Run) : List (List Char) := r.errors.lines.filterMap fun s => tight? s.toList

variable {r : Run}

/-- What is told of the lines that are read has just these lines. -/
theorem tightLines_detail :
    tightLines (trimmed (joinLines r.errors.lines)).toList = r.readable := by
  rw [toList_trimmed, tightLines_trim]
  refine tightLines_joinLines fun s hs hmem => ?_
  obtain ⟨rest, heq, -⟩ := Pipe.exists_rest (lines 10 13 r.stderr)
  have hline : Utf8.encode s ∈ lines 10 13 r.stderr := by
    rw [heq]
    exact List.mem_append_left _ (List.mem_map_of_mem hs)
  refine not_mem_of_mem_lines hline (Utf8.mem_of_lineFeed_mem_decodeLossy ?_)
  rwa [Utf8.decodeLossy_encode]

/-- A line that is no text is not blank. -/
theorem tight?_ne_none {line : List UInt8} (h : Utf8.decode? line = none) :
    tight? (Utf8.decodeLossy line).toList ≠ none := by
  have hmem : '\uFFFD' ∈ (Utf8.decodeLossy line).toList := by
    rw [Utf8.toList_decodeLossy]
    exact List.mem_map.2 ⟨none, Utf8.decode?_eq_none_iff.1 h, rfl⟩
  exact fun h' => absurd (trim_eq_nil_iff.1 (tight?_eq_none_iff.1 h') _ hmem) (by decide)

/-- The diagnosis are the lines that can be read, and behind them others exactly if the bytes are no
text. -/
theorem exists_unread (r : Run) : ∃ unread, r.diagnosis = r.readable ++ unread ∧
    (unread = [] ↔ (Utf8.decode? r.stderr).isSome = true) := by
  obtain ⟨rest, heq, hrest⟩ := Pipe.exists_rest (lines 10 13 r.stderr)
  refine ⟨rest.filterMap fun line => tight? (Utf8.decodeLossy line).toList, ?_, ?_⟩
  · rw [diagnosis, Utf8.tightLines_decodeLossy, heq, List.filterMap_append, List.filterMap_map]
    congr 1
    exact List.filterMap_congr fun s _ => by rw [Function.comp_apply, Utf8.decodeLossy_encode]
  · have hnone : Utf8.decode? r.stderr = none ↔ ∃ line ∈ rest, Utf8.decode? line = none := by
      rw [Utf8.decode?_eq_none_iff_exists_line, heq]
      simp [or_and_right, exists_or, Utf8.decode?_encode]
    rw [← Option.ne_none_iff_isSome, ne_eq, hnone]
    rcases hrest with ⟨-, rfl⟩ | ⟨-, l, after, rfl, hl⟩
    · simp
    · obtain ⟨t, ht⟩ := Option.ne_none_iff_exists'.1 (tight?_ne_none hl)
      simp [hl, ht]

theorem readable_prefix (r : Run) : r.readable <+: r.diagnosis := by
  obtain ⟨unread, heq, -⟩ := r.exists_unread
  exact ⟨unread, heq.symm⟩

/-- All of the diagnosis can be read line by line exactly if its bytes are a text. -/
theorem readable_eq_iff (r : Run) :
    r.readable = r.diagnosis ↔ (Utf8.decode? r.stderr).isSome = true := by
  obtain ⟨unread, heq, hunread⟩ := r.exists_unread
  rw [heq, ← hunread, List.self_eq_append_right]

end Run

end Program

/-! ## Transfers -/

namespace Reading

/-- The errors behind which a reading of a failed run shows nothing more: the failure of the run,
that the token was raised, or that the output is no text. -/
inductive Trailing (run : Program.Run) (description : String) (raised : Prop) : Chain → Prop
  | failed : Trailing run description raised (failureOf run description)
  | cancelled (h : raised) : Trailing run description raised (.root s!"{description} cancelled")
  | unreadable (h : run.output.broken = true) :
      Trailing run description raised (unreadableError description)

theorem cancelled_step (r : Reading) (m : Move) (h : (r.step m).cancelled = true) :
    r.cancelled = true ∨ m = .interrupt := by
  cases m with
  | forwardOutput =>
    rw [step, forwardOutput] at h
    split at h <;> exact .inl h
  | forwardErrors =>
    rw [step, forwardErrors] at h
    split at h <;> exact .inl h
  | interrupt => exact .inr rfl
  | check =>
    rw [step, check] at h
    split at h
    · exact .inl h
    · split at h <;> exact .inl h
  | take =>
    rw [step, take] at h
    split at h <;> exact .inl h

/-- The token is raised by an interrupt only. -/
theorem cancelled_play (r : Reading) (moves : List Move) (h : (r.play moves).cancelled = true) :
    r.cancelled = true ∨ .interrupt ∈ moves := by
  induction moves generalizing r with
  | nil => exact .inl h
  | cons m moves ih =>
    rcases ih (r.step m) h with h | h
    · exact (cancelled_step r m h).imp_right fun hm => List.mem_cons.2 (.inl hm.symm)
    · exact .inr (List.mem_cons_of_mem m h)

/-- A reading of a failed run that is done has shown one of these errors last. -/
theorem trailing_of_done {run : Program.Run} (hfailed : run.ending.isSuccess = false)
    (description : String) (hasDirectory : Bool) (moves : List Move) :
    let r := (start run (.started description hasDirectory)).play moves
    r.transfer.done = true → ∃ items fault, r.shown = items ++ [.error fault] ∧
      Trailing run description (.interrupt ∈ moves) fault := by
  intro r hdone
  obtain ⟨lines, error?, houtcome⟩ := exists_outcome run description hasDirectory moves
  obtain ⟨before, m, after, heq, hends⟩ := houtcome.ended hdone
  have hraised (hc : ((start run (.started description hasDirectory)).play before).cancelled =
      true) : .interrupt ∈ moves := by
    rcases cancelled_play _ before hc with h | h
    · cases h
    · exact heq ▸ List.mem_append_left _ h
  have htrailing : ∃ fault, error? = some fault ∧
      Trailing run description (.interrupt ∈ moves) fault := by
    cases hends.ends with
    | cancelled hc => exact ⟨_, rfl, .cancelled (hraised hc)⟩
    | unreadable hq hb => exact ⟨_, rfl, .unreadable hb⟩
    | exited =>
      rw [exitError?]
      split
      · rename_i hc
        exact ⟨_, rfl, .cancelled (hraised hc)⟩
      · rw [if_neg (by simp [hfailed])]
        exact ⟨_, rfl, .failed⟩
  obtain ⟨fault, rfl, hfault⟩ := htrailing
  exact ⟨_, fault, houtcome.shows.shown, hfault⟩

end Reading

/-- Where nothing arrives but the end of a failed program, its failure is all that is shown. -/
theorem Transfer.reads_closed {t : Transfer} {exit : Program.Exit} {fault : Chain}
    (ht : t.done = false) (h : exit.fault? t.description false = some fault) :
    (stream [.arrives (.closed exit none)] t).Reads false [.error fault] := by
  have hlook : t.look false (.closed exit none) = (some (.error fault), t.await.finish) := by
    simp [look, ht, h]
  refine .poll ?_
  rw [if_neg Bool.false_ne_true, lateInterrupt, lookStream, hlook]
  · exact .item id .done
  · intro _ _ h
    cases h

/-! ## Exports -/

/-- An export of a failed program ends with its failure, if no look finds the token raised. -/
theorem Export.Plays.failed {exit : Program.Exit} {output : List UInt8} {hs : List Happening}
    (p : Plays exit output hs) {description : String} {fault : Chain}
    (hfault : exit.fault? description false = some fault) {raised : Bool}
    (hlooks : true ∉ looks raised hs) :
    Archive.fault? (Archive.drained raised (stream description hs)).1 = some fault := by
  induction p generalizing raised with
  | ended late =>
    cases raised with
    | true => exact absurd (List.mem_singleton.2 rfl) hlooks
    | false =>
      cases late with
      | none =>
        have hlast : lastRead description exit false = failure fault := by rw [lastRead, hfault]
        change Archive.fault? (Archive.drained false (lastRead description exit false)).1 = _
        rw [hlast]
        rfl
      | some i => exact absurd (List.mem_cons_of_mem _ (List.mem_singleton.2 rfl)) hlooks
  | held output i => exact absurd (List.mem_singleton.2 rfl) hlooks
  | @bytes chunk output hs hc p ih =>
    cases raised with
    | true => exact absurd (List.mem_singleton.2 rfl) hlooks
    | false =>
      obtain ⟨b, bs, rfl⟩ := List.exists_cons_of_ne_nil hc
      exact ih fun h => hlooks (List.mem_cons_of_mem _ h)
  | @retry output hs p ih =>
    cases raised with
    | true => exact absurd (List.mem_singleton.2 rfl) hlooks
    | false => exact ih fun h => hlooks (List.mem_cons_of_mem _ h)
  | interrupted i p ih => exact ih hlooks

/-! ## Calls -/

/-- The text of the fault is this beginning and behind it these lines, with nothing but blanks
around them, so it contains all of them. -/
structure Chain.Tells (fault : Chain) (beginning : String) (told : List (List Char)) : Prop where
  exists_detail : ∃ detail, fault = .root (beginning ++ detail) ∧ tightLines detail.toList = told
  contains : ∀ l ∈ told, l <:+: fault.top.toList

theorem Chain.tells (beginning detail : String) :
    (Chain.root (beginning ++ detail)).Tells beginning (tightLines detail.toList) where
  exists_detail := ⟨detail, rfl, rfl⟩
  contains l hl := by
    have htext : (Chain.root (beginning ++ detail)).top.toList =
        beginning.toList ++ detail.toList := String.toList_append
    rw [htext]
    exact (infix_of_mem_tightLines hl).trans (List.suffix_append _ _).isInfix

/-- The failure of a run tells the lines that can be read, or how the run ended if there is none. -/
theorem Reading.failureOf_tells (run : Program.Run) (description : String) :
    (failureOf run description).Tells
      (if run.readable = [] then s!"{description} failed with {run.ending.text}"
        else s!"{description} failed: ") run.readable := by
  have hdetail : run.readable = [] ↔ trimmed (Program.joinLines run.errors.lines) = "" := by
    rw [← Program.Run.tightLines_detail, tightLines_eq_nil_iff, toList_trimmed, trim_trim, trimmed]
    simp
  rw [failureOf]
  split
  · rename_i h
    have htells := Chain.tells s!"{description} failed with {run.ending.text}" ""
    rw [String.append_empty] at htells
    rw [if_pos (hdetail.2 h), hdetail.2 h]
    exact htells
  · rename_i h
    rw [if_neg fun hnil => h (hdetail.1 hnil), ← Program.Run.tightLines_detail]
    exact Chain.tells s!"{description} failed: " _

theorem Container.fault_tells (c : Container) (name : String) {run : Program.Run}
    (hfailed : run.ending.isSuccess = false) : ∃ fault, c.outputFault? name run = some fault ∧
      fault.Tells (c.command ++ s!" {name} failed: ") run.diagnosis := by
  have hlines : tightLines (trimmed (Utf8.decodeLossy run.stderr)).toList = run.diagnosis := by
    rw [toList_trimmed, tightLines_trim, Program.Run.diagnosis]
  refine ⟨_, by rw [outputFault?, hfailed]; rfl, ?_⟩
  have htells := Chain.tells (c.command ++ s!" {name} failed: ")
    (trimmed (Utf8.decodeLossy run.stderr))
  rw [hlines] at htells
  simp only [String.append_assoc] at htells ⊢
  exact htells

/-- **The diagnosis of failed programs**: a failed tag or removal is reported with all lines that
its program wrote for errors, whatever their bytes are. A transfer of a failed run that is done has
shown its failure last, unless the token was raised or the output is no text, and every way through
its stream is such a transfer; an export ends with the failure, if no look finds the token raised.
This failure has the lines before the first that is no text, or tells how the run ended if there is
none: all lines exactly if the bytes are a text. -/
theorem Container.failure_tells {run : Program.Run} (hfailed : run.ending.isSuccess = false) :
    (∀ (c : Container) (s : Started),
      (∀ source target, ∃ fault, c.answer s run (.tag source target) = .error fault ∧
        fault.Tells (c.command ++ " tag failed: ") run.diagnosis) ∧
      ∀ reference, ∃ fault, c.answer s run (.remove reference) = .error fault ∧
        fault.Tells (c.command ++ " rmi failed: ") run.diagnosis) ∧
    (∀ description hasDirectory moves,
      let r := (Reading.start run (.started description hasDirectory)).play moves
      r.transfer.done = true → ∃ items fault, r.shown = items ++ [.error fault] ∧
        Reading.Trailing run description (.interrupt ∈ moves) fault) ∧
    (∀ description hasDirectory raised items,
      (Transfer.stream (Transfer.happenings run) (.started description hasDirectory)).Reads raised
        items →
      ∃ moves, let r := (Reading.start run (.started description hasDirectory)).play moves
        r.transfer.done = true ∧ r.shown = items) ∧
    (∀ description happenings raised, Export.Plays run.exit run.stdout happenings →
      true ∉ Export.looks raised happenings →
      Archive.fault? (Archive.drained raised (Export.stream description happenings)).1 =
        some (Reading.failureOf run description)) ∧
    (∀ description, (Reading.failureOf run description).Tells
      (if run.readable = [] then s!"{description} failed with {run.ending.text}"
        else s!"{description} failed: ") run.readable) ∧
    run.readable <+: run.diagnosis ∧
    (run.readable = run.diagnosis ↔ (Utf8.decode? run.stderr).isSome = true) := by
  refine ⟨fun c s => ⟨fun source target => ?_, fun reference => ?_⟩,
    Reading.trailing_of_done hfailed,
    fun description hasDirectory raised items h =>
      Reading.exists_play_of_reads run description hasDirectory h,
    fun description happenings raised hp hlooks =>
      hp.failed (Reading.fault?_of_failed run description hfailed) hlooks,
    Reading.failureOf_tells run, run.readable_prefix, run.readable_eq_iff⟩
  · obtain ⟨fault, hfault, htells⟩ := c.fault_tells "tag" hfailed
    exact ⟨fault, by rw [answer, hfault], htells⟩
  · obtain ⟨fault, hfault, htells⟩ := c.fault_tells "rmi" hfailed
    exact ⟨fault, by rw [answer, hfault], htells⟩

/-- A tag that writes one line and fails. -/
theorem Container.denied_tag_tells :
    let run : Program.Run :=
      { stderr := [0x64, 0x65, 0x6E, 0x69, 0x65, 0x64, 0x0A], ending := .exited 1 }
    run.ending.isSuccess = false ∧ ∃ fault,
      docker.answer ⟨⟨"docker", ["tag", "a", "b"]⟩, none⟩ run (.tag "a" "b") = .error fault ∧
      fault.Tells "docker tag failed: " ["denied".toList] := by
  intro run
  have hfailed : run.ending.isSuccess = false := rfl
  have hdiagnosis : run.diagnosis = ["denied".toList] := by
    rw [Program.Run.diagnosis, Utf8.toList_decodeLossy]
    decide
  obtain ⟨hcalls, -⟩ := failure_tells hfailed
  obtain ⟨fault, hfault, htells⟩ :=
    (hcalls docker ⟨⟨"docker", ["tag", "a", "b"]⟩, none⟩).1 "a" "b"
  exact ⟨hfailed, fault, hfault, hdiagnosis ▸ htells⟩

/-- Behind a line that is no text, no line of the diagnosis is told, be it by a pull or an
export. -/
theorem Container.undecodable_line_conceals :
    let run : Program.Run :=
      { stderr := [0xFF, 0x0A, 0x64, 0x65, 0x6E, 0x69, 0x65, 0x64, 0x0A], ending := .exited 1 }
    run.ending.isSuccess = false ∧ "denied".toList ∈ run.diagnosis ∧
    (∃ shown fault, docker.answer ⟨⟨"docker", ["pull", "a"]⟩, none⟩ run (.pull "a") = .ok shown ∧
      shown.Reads false [.error fault] ∧ ¬ "denied".toList <:+: fault.top.toList) ∧
    ∃ exported fault,
      docker.answer ⟨⟨"docker", ["save", "a"]⟩, none⟩ run (.save ["a"]) = .ok exported ∧
      Archive.fault? (Archive.drained false exported).1 = some fault ∧
      ¬ "denied".toList <:+: fault.top.toList := by
  intro run
  have hfailed : run.ending.isSuccess = false := rfl
  have hundecodable : Utf8.decode? [0xFF] = none := Utf8.decode?_eq_none_iff.2 (by decide)
  have hlines : lines 10 13 run.stderr = [[0xFF], [0x64, 0x65, 0x6E, 0x69, 0x65, 0x64]] := by decide
  have herrors : run.errors = { broken := true } := by
    rw [Program.Run.errors, Program.Pipe.ofBytes, hlines, Program.Pipe.ofLines, hundecodable]
  have hpull : Reading.failureOf run (docker.describe (.pull "a")) =
      .root "pull a failed with exit status: 1" := by
    rw [Reading.failureOf, herrors]
    decide
  have hsave : Reading.failureOf run (docker.describe (.save ["a"])) =
      .root "docker save failed with exit status: 1" := by
    rw [Reading.failureOf, herrors]
    decide
  have hshown : (Transfer.stream (Transfer.happenings run)
      (.started (docker.describe (.pull "a")) false)).Reads false
      [.error (.root "pull a failed with exit status: 1")] := by
    have hhappenings : Transfer.happenings run = [.arrives (.closed run.exit none)] := by
      rw [Transfer.happenings, herrors]
      rfl
    have hfault := Reading.fault?_of_failed run (docker.describe (.pull "a")) hfailed
    rw [hpull] at hfault
    rw [hhappenings]
    exact Transfer.reads_closed rfl hfault
  -- no text of a failure without a detail has an n in it
  have hn : 'n' ∈ "denied".toList := by decide
  refine ⟨hfailed, ?_, ⟨Transfer.stream (Transfer.happenings run)
      (.started (docker.describe (.pull "a")) false), .root "pull a failed with exit status: 1",
      rfl, hshown, fun h => absurd (h.subset hn) (by decide)⟩,
    Export.stream (docker.describe (.save ["a"])) (Export.happenings run),
    .root "docker save failed with exit status: 1", rfl, ?_,
    fun h => absurd (h.subset hn) (by decide)⟩
  · rw [Program.Run.diagnosis, Utf8.toList_decodeLossy]
    decide
  · rw [← hsave]
    exact (Export.plays_happenings run).failed (Reading.fault?_of_failed run _ hfailed) (by decide)

end ImageRelay
