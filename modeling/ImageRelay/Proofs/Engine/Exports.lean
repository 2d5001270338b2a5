import ImageRelay.Engine.Container
import ImageRelay.Proofs.Archive.FileSink
import Mathlib.Data.List.Pairwise

/-!
# Copies of what a container engine exports

`Export.Plays exit output hs`: while `hs` happens, a program that ends with `exit` writes `output`,
and the pipe gives it in any reads. `Export.looks` is what the looks at the token find on the way.

* `Export.Plays.drained`: an export is read without a fault exactly if the program succeeds and no
  look finds the token raised, and then all of the output is read.
* `Archive.reads_eq`: however often it is read, what comes behind the last read of a copy is nothing.
* `Export.export_copied`: what follows for a copy into a sink that does not fail.
-/

set_option autoImplicit false

namespace ImageRelay

/-! ## Reading on -/

namespace Archive

/-- One read of a stream: what comes of it, the token behind it, and what is left of the stream. -/
def read : (raised : Bool) → ExportStream → Reading × Bool × ExportStream
  | raised, .eof => (.bytes [], raised, .eof)
  | raised, .bytes chunk rest => (.bytes chunk, raised, rest)
  | raised, .interrupted rest => (.interrupted, raised, rest)
  | raised, .failed fault rest => (.failed fault, raised, rest)
  | _, .interrupt _ rest => read true rest
  | raised, .poll live cancelled => if raised then read raised cancelled else read raised live

/-- The next `n` reads of a stream, whatever comes of them. -/
def reads : (n : Nat) → (raised : Bool) → ExportStream → List Reading
  | 0, _, _ => []
  | n + 1, raised, stream =>
    match read raised stream with
    | (r, raised, rest) => r :: reads n raised rest

theorem reads_eof (n : Nat) (raised : Bool) :
    reads n raised .eof = List.replicate n (.bytes []) := by
  induction n with
  | zero => rfl
  | succ n ih =>
    rw [List.replicate_succ, ← ih]
    rfl

/-- Two streams of which the next read is the same. -/
theorem reads_congr {raised raised' : Bool} {stream stream' : ExportStream}
    (h : read raised stream = read raised' stream') (n : Nat) :
    reads n raised stream = reads n raised' stream' := by
  cases n with
  | zero => rfl
  | succ n => rw [reads, reads, h]

/-- Where nothing is left behind the first read that stops, every further read gives nothing. -/
theorem reads_eq : ∀ (raised : Bool) (stream : ExportStream), (drained raised stream).2 = .eof →
    ∀ n m, n ≤ m → reads n raised stream =
      ((drained raised stream).1 ++ List.replicate m (Reading.bytes [])).take n
  | raised, stream, _, 0, _, _ => by rw [reads, List.take_zero]
  | raised, .eof, _, n + 1, m, hm => by
    rw [reads_eof, drained, List.singleton_append, List.take_succ_cons, List.take_replicate,
      Nat.min_eq_left (by omega), List.replicate_succ]
  | raised, .bytes [] rest, h, n + 1, m, hm => by
    obtain rfl : rest = .eof := h
    show _ :: reads n raised .eof = _
    rw [reads_eof, drained, List.singleton_append, List.take_succ_cons, List.take_replicate,
      Nat.min_eq_left (by omega)]
  | raised, .bytes (b :: bs) rest, h, n + 1, m, hm => by
    have ih := reads_eq raised rest h n m (by omega)
    rw [reads, read, drained]
    dsimp only
    rw [ih, List.cons_append, List.take_succ_cons]
  | raised, .interrupted rest, h, n + 1, m, hm => by
    have ih := reads_eq raised rest h n m (by omega)
    rw [reads, read, drained]
    dsimp only
    rw [ih, List.cons_append, List.take_succ_cons]
  | raised, .failed fault rest, h, n + 1, m, hm => by
    obtain rfl : rest = .eof := h
    show _ :: reads n raised .eof = _
    rw [reads_eof, drained, List.singleton_append, List.take_succ_cons, List.take_replicate,
      Nat.min_eq_left (by omega)]
  | raised, .interrupt i rest, h, n + 1, m, hm => by
    have ih := reads_eq true rest h (n + 1) m hm
    rw [reads_congr (show read raised (.interrupt i rest) = read true rest from rfl), ih]
    rfl
  | raised, .poll live cancelled, h, n + 1, m, hm => by
    cases raised with
    | true =>
      have ih := reads_eq true cancelled h (n + 1) m hm
      rw [reads_congr (show read true (.poll live cancelled) = read true cancelled from rfl), ih]
      rfl
    | false =>
      have ih := reads_eq false live h (n + 1) m hm
      rw [reads_congr (show read false (.poll live cancelled) = read false live from rfl), ih]
      rfl

/-- One read at most stops with something else than nothing, and nothing comes behind it. -/
theorem pairwise_reads {raised : Bool} {stream : ExportStream}
    (h : (drained raised stream).2 = .eof) (n : Nat) :
    (reads n raised stream).Pairwise fun a b => a.stops = true → b = .bytes [] := by
  obtain ⟨before, last, heq, hbefore, -⟩ := drained_stops raised stream
  rw [reads_eq raised stream h n n (Nat.le_refl n), heq]
  refine List.Pairwise.sublist (List.take_sublist _ _) ?_
  rw [List.append_assoc, List.pairwise_append]
  refine ⟨?_, ?_, ?_⟩
  · refine List.pairwise_of_forall_mem_list fun a ha b _ hstops => ?_
    rw [hbefore a ha] at hstops
    cases hstops
  · rw [List.singleton_append, List.pairwise_cons]
    refine ⟨fun b hb _ => List.eq_of_mem_replicate hb, ?_⟩
    exact List.pairwise_replicate.2 (.inr fun _ => rfl)
  · intro a ha b hb hstops
    rw [hbefore a ha] at hstops
    cases hstops

end Archive

/-! ## What a program writes -/

namespace Export

open Archive

/-- While this happens a program that ends like this writes this output. The pipe gives it in any
reads, a read may be interrupted, and the token may be raised anywhere. A program that does not end
by itself is read until the token is raised. -/
inductive Plays (exit : Program.Exit) : (output : List UInt8) → List Happening → Prop
  | ended (late : Option Interrupt) : Plays exit [] [.ended exit late]
  | held (output : List UInt8) (i : Interrupt) : Plays exit output [.interrupted i, .retry]
  | bytes {chunk output : List UInt8} {hs : List Happening} (hc : chunk ≠ [])
      (h : Plays exit output hs) : Plays exit (chunk ++ output) (.bytes chunk :: hs)
  | retry {output : List UInt8} {hs : List Happening} (h : Plays exit output hs) :
      Plays exit output (.retry :: hs)
  | interrupted {output : List UInt8} {hs : List Happening} (i : Interrupt)
      (h : Plays exit output hs) : Plays exit output (.interrupted i :: hs)

/-- What the looks at the token find: one before each read, up to the first that finds it raised,
and one more when the program has been waited for. -/
def looks : (raised : Bool) → List Happening → List Bool
  | _, [] => []
  | _, .interrupted _ :: rest => looks true rest
  | true, _ :: _ => [true]
  | false, .bytes _ :: rest | false, .retry :: rest => false :: looks false rest
  | false, .ended _ late :: _ => [false, late.isSome]

/-- What is read of an export. -/
structure Given (exit : Program.Exit) (output : List UInt8) (found : List Bool)
    (reads : List Archive.Reading × ExportStream) : Prop where
  rest : reads.2 = .eof
  data_prefix : data reads.1 <+: output
  fault_iff : Archive.fault? reads.1 = none ↔ exit.ending.isSuccess = true ∧ true ∉ found
  data_eq : Archive.fault? reads.1 = none → data reads.1 = output

theorem given_failure (exit : Program.Exit) (output : List UInt8) {found : List Bool}
    (hf : true ∈ found) (raised : Bool) (fault : Chain) :
    Given exit output found (drained raised (failure fault)) where
  rest := rfl
  data_prefix := List.nil_prefix
  fault_iff := by simp [failure, Archive.drained, Archive.fault?, Archive.Reading.fault?, hf]
  data_eq h := by simp [failure, Archive.drained, Archive.fault?, Archive.Reading.fault?] at h

theorem given_lastRead (description : String) (exit : Program.Exit) (raised late : Bool) :
    Given exit [] [false, late] (drained raised (lastRead description exit late)) := by
  have hiff := exit.fault?_eq_none_iff description late
  have hfound : true ∉ [false, late] ↔ late = false := by cases late <;> simp
  unfold lastRead
  cases hf : exit.fault? description late with
  | some fault =>
    have hbad : ¬ (exit.ending.isSuccess = true ∧ true ∉ [false, late]) := by
      rw [hfound, ← hiff, hf]
      exact fun h => nomatch h
    exact {
      rest := rfl
      data_prefix := List.nil_prefix
      fault_iff := ⟨fun h => (nomatch h), fun h => absurd h hbad⟩
      data_eq := fun h => nomatch h }
  | none =>
    have hgood : exit.ending.isSuccess = true ∧ true ∉ [false, late] := by
      rw [hfound, ← hiff, hf]
    exact {
      rest := rfl
      data_prefix := List.nil_prefix
      fault_iff := ⟨fun _ => hgood, fun _ => rfl⟩
      data_eq := fun _ => rfl }

/-- A read of some bytes in front. -/
theorem Given.cons {exit : Program.Exit} {output : List UInt8} {found : List Bool}
    {reads : List Archive.Reading × ExportStream} (g : Given exit output found reads)
    {r : Archive.Reading} (hr : r.fault? = none) :
    Given exit (r.data ++ output) (false :: found) (r :: reads.1, reads.2) where
  rest := g.rest
  data_prefix := List.prefix_append_right_inj _ |>.2 g.data_prefix
  fault_iff := by
    have hsame : Archive.fault? (r :: reads.1) = Archive.fault? reads.1 := by
      simp [Archive.fault?, hr]
    rw [hsame, g.fault_iff]
    simp
  data_eq h := by
    have hsame : Archive.fault? (r :: reads.1) = Archive.fault? reads.1 := by
      simp [Archive.fault?, hr]
    rw [hsame] at h
    show r.data ++ data reads.1 = _
    rw [g.data_eq h]

theorem Plays.drained {exit : Program.Exit} {output : List UInt8} {hs : List Happening}
    (p : Plays exit output hs) (description : String) (raised : Bool) :
    Given exit output (looks raised hs) (drained raised (stream description hs)) := by
  have hraised : true ∈ [true] := List.mem_singleton.2 rfl
  induction p generalizing raised with
  | ended late =>
    cases late with
    | none =>
      cases raised with
      | true => exact given_failure exit [] hraised true _
      | false => exact given_lastRead description exit false false
    | some i =>
      cases raised with
      | true => exact given_failure exit [] hraised true _
      | false => exact given_lastRead description exit true true
  | held output i => exact given_failure exit output hraised true _
  | @bytes chunk output hs hc p ih =>
    cases raised with
    | true => exact given_failure exit _ hraised true _
    | false =>
      obtain ⟨b, bs, rfl⟩ := List.exists_cons_of_ne_nil hc
      exact (ih false).cons (r := .bytes (b :: bs)) rfl
  | @retry output hs p ih =>
    cases raised with
    | true => exact given_failure exit _ hraised true _
    | false => exact (ih false).cons (r := .interrupted) rfl
  | interrupted i p ih => exact ih true

/-- The reads of some bytes, each as large as it can be. -/
theorem plays_readsIn {exit : Program.Exit} {tail : List Happening} (ht : Plays exit [] tail) :
    ∀ (n : Nat) (output : List UInt8), output.length ≤ n * ExportStream.readSize →
      Plays exit output (readsIn n output ++ tail)
  | 0, output, h => by
    have hnil : output = [] := List.length_eq_zero_iff.1 (by omega)
    rw [hnil]
    exact ht
  | n + 1, output, h => by
    rw [readsIn]
    split
    · rename_i he
      rw [List.isEmpty_iff.1 he]
      exact ht
    · rename_i he
      have hsize : ExportStream.readSize = 65536 := rfl
      have hne : output ≠ [] := fun h0 => he (by rw [h0]; rfl)
      have htake : output.take ExportStream.readSize ≠ [] := by
        rw [ne_eq, List.take_eq_nil_iff]
        rintro (h0 | h0)
        · rw [hsize] at h0
          cases h0
        · exact hne h0
      have hdrop : (output.drop ExportStream.readSize).length ≤ n * ExportStream.readSize := by
        have hpos := List.length_pos_iff.2 hne
        rw [List.length_drop]
        rw [hsize] at h ⊢
        omega
      have hrest := (plays_readsIn ht n _ hdrop).bytes htake
      rwa [List.take_append_drop] at hrest

/-- What an export of a run is made of. -/
theorem plays_happenings (r : Program.Run) : Plays r.exit r.stdout (happenings r) := by
  have hsize : r.stdout.length ≤
      (r.stdout.length / ExportStream.readSize + 1) * ExportStream.readSize := by
    rw [show ExportStream.readSize = 65536 from rfl]
    omega
  refine plays_readsIn ?_ _ r.stdout hsize
  split
  · exact .held [] .announced
  · cases r.interrupted with
    | true => exact .interrupted .announced (.ended none)
    | false => exact .ended none

/-- The program that is started for an export; it is given no directory. -/
theorem started_of_save {c : Container} {m : Machine} {references : List String} {cancelled : Bool}
    {started : Container.Started} (h : c.begin m ⟨.save references, cancelled⟩ = .ok started) :
    started = ⟨⟨c.command, "save" :: references⟩, none⟩ := by
  simp only [Container.begin, Container.opening, Container.callDirectory] at h
  split at h
  · cases h
  · exact (Except.ok.inj h).symm

/-! ## Copies -/

/-- **Copies of exports**: a copy of what a program writes into a sink that does not fail gives the
number of all its bytes, and these are what the sink has accepted, exactly if the program has ended
well and no look has found the token raised; else the copy results in a failed read. The export
fails in one read at most, and behind that or its end every further read gives nothing. What a
container engine exports is such an export, of the run of the program that it starts with the
references. -/
theorem export_copied {τ : Type} {s : Sink τ} {P : τ → Prop} (hs : s.Unfailing P) {t : τ}
    (ht : P t) {exit : Program.Exit} {output : List UInt8} {happenings : List Happening}
    (hp : Plays exit output happenings) (path description : String) (raised : Bool) :
    let stream := Export.stream description happenings
    let result := (copy s path stream { sink := t, cancelled := raised }).1.1
    let journal := (copy s.recorded path stream { sink := (t, []), cancelled := raised }).1.2.sink.2
    (∀ n, result = .ok n ↔ exit.ending.isSuccess = true ∧ true ∉ looks raised happenings ∧
      n = output.length) ∧
    ((∃ n, result = .ok n) ∨ ∃ reason, result = .error (.streamDrain reason)) ∧
    (accepted journal <+: output ∧ ∀ n, result = .ok n → accepted journal = output) ∧
    (∀ n, (reads n raised stream).Pairwise fun a b => a.stops = true → b = .bytes []) ∧
    ∀ (c : Container) (m : Machine) past references cancelled exported,
      (c.engine m past ⟨.save references, cancelled⟩).answer = .ok exported →
      let r := m.programs past ⟨c.command, "save" :: references⟩
      Plays r.exit r.stdout (Export.happenings r) ∧
        exported = Export.stream (c.describe (.save references)) (Export.happenings r) := by
  intro stream result journal
  have hgiven := hp.drained description raised
  have hresult : result = readsResult 0 (Archive.drained raised stream).1 :=
    copy_unfailing hs path stream { sink := t, cancelled := raised } rfl ht
  obtain ⟨-, -, -, -, hcopied, -⟩ := copy_follows_reads s path stream t raised
  have haccepted : accepted journal = data (Archive.drained raised stream).1 := by
    change Copied path 0 _ journal result at hcopied
    rw [hresult] at hcopied
    exact hcopied.accepted_eq
  refine ⟨fun n => ?_, ?_, ⟨?_, fun n hn => ?_⟩, pairwise_reads hgiven.rest, ?_⟩
  · rw [hresult, readsResult_eq_ok_iff, Nat.zero_add, ← and_assoc, ← hgiven.fault_iff]
    constructor
    · rintro ⟨hfault, rfl⟩
      exact ⟨hfault, by rw [hgiven.data_eq hfault]⟩
    · rintro ⟨hfault, rfl⟩
      exact ⟨hfault, by rw [hgiven.data_eq hfault]⟩
  · rw [hresult, readsResult]
    cases Archive.fault? (Archive.drained raised stream).1 with
    | none => exact .inl ⟨_, rfl⟩
    | some fault => exact .inr ⟨_, rfl⟩
  · rw [haccepted]
    exact hgiven.data_prefix
  · rw [hresult, readsResult_eq_ok_iff] at hn
    rw [haccepted, hgiven.data_eq hn.1]
  · intro c m past references cancelled exported hanswer r
    unfold Container.engine at hanswer
    cases hbegin : c.begin m ⟨.save references, cancelled⟩ with
    | error fault =>
      rw [hbegin] at hanswer
      cases hanswer
    | ok started =>
      rw [hbegin, started_of_save hbegin] at hanswer
      exact ⟨plays_happenings r, (Except.ok.inj hanswer).symm⟩

/-- An export of three bytes in two reads, with an interrupted one between them, into a file. -/
theorem interrupted_export_copied :
    let exit : Program.Exit := ⟨.exited 0, ""⟩
    let happenings : List Happening := [.bytes [1, 2], .retry, .bytes [3], .ended exit none]
    let file : FileSink := .ofHandle (.file ["images.tar"] false)
    file.handle ≠ .device .full ∧ Plays exit [1, 2, 3] happenings ∧
      (copy FileSink.sink "images.tar" (stream "docker save" happenings) { sink := file }).1.1 =
        .ok 3 := by
  intro exit happenings file
  have hf : file.handle ≠ .device .full := nofun
  have hp : Plays exit [1, 2, 3] happenings :=
    @Plays.bytes exit [1, 2] [3] _ nofun (.retry (@Plays.bytes exit [3] [] _ nofun (.ended none)))
  obtain ⟨hok, -⟩ :=
    export_copied FileSink.unfailing hf hp "images.tar" "docker save" false
  exact ⟨hf, hp, (hok 3).2 ⟨rfl, by decide, rfl⟩⟩

end Export

end ImageRelay
