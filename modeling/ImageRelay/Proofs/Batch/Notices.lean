import ImageRelay.Proofs.Batch.Duty
import Mathlib.Data.List.Basic
import Mathlib.Tactic.Choose

/-!
# What a batch tells

Over every image a batch tells its error if it fails, and behind the last image how it has ended.
All else that is told over the images is an `Aside`: it comes from the surroundings, or it is
neither an error nor the end of a batch.

* `Murmurs w s s'`: from `s` to `s'` there are asides only. Every operation on an image keeps to
  this (`murmurs_parts`); the loop adds the errors (`told_run`).
* `Account`: what is told of a batch, in its parts (`Duty.account`).
-/

set_option autoImplicit false

namespace ImageRelay

/-- The surroundings of a batch tell something: the engine, the observer, or what happens during a
wait. -/
inductive Surroundings.Tells (w : Surroundings) (e : Emission) : Prop
  | engine {past : List Request} {now : Request} (h : .tell e ∈ (w.engine past now).effects)
  | observer {past : List Event} {now : Event} (h : .tell e ∈ w.observer past now)
  | waiting {past : List Request} (h : .tell e ∈ w.waiting past)

namespace Batch

open Moment

/-! ## Asides -/

/-- Something that is told over the images of a batch beside their errors. -/
inductive Aside (w : Surroundings) (e : Emission) : Prop
  | outside (h : w.Tells e)
  | inside (herror : ∀ text, e ≠ .error text) (hclosing : ∀ r : Report, e ≠ r.closing)

/-- The first character of a log line. -/
def initial? : Emission → Option Char
  | .log _ text => text.toList.head?
  | .clientLog _ _ | .out _ | .err _ => none

theorem head?_append {c : Char} {s t : String} (h : s.toList.head? = some c) :
    (s ++ t).toList.head? = some c := by
  rw [String.toList_append, List.head?_append, h, Option.some_or]

/-- The first characters of the names of operations. -/
def initials : List Char := ['p', 't', 'd', 's']

theorem head?_name (o : Operation) : ∃ c ∈ initials, o.name.toList.head? = some c := by
  cases o <;> exact ⟨_, by decide, rfl⟩

/-- The end of a batch is told by the name of its operation. -/
theorem initial?_closing (r : Report) : ∃ c ∈ initials, initial? r.closing = some c := by
  obtain ⟨c, hc, h⟩ := head?_name r.operation
  refine ⟨c, hc, ?_⟩
  unfold Report.closing
  split
  · exact head?_append (head?_append (head?_append h))
  · change r.text.toList.head? = some c
    unfold Report.text
    -- the name stands in front of a failure count and of the counts behind it
    exact head?_append <| head?_append <| head?_append <| head?_append <| head?_append <|
      head?_append <| head?_append h

/-- Log lines that begin otherwise and are no errors. -/
theorem aside_of_head? {w : Surroundings} {level : Level} {text : String} {c : Char}
    (hlevel : level ≠ .error) (h : text.toList.head? = some c) (hc : c ∉ initials) :
    Aside w (.log level text) := by
  refine .inside (fun t ht => hlevel (Emission.log.inj ht).1) fun r hr => hc ?_
  obtain ⟨c', hc', h'⟩ := initial?_closing r
  rw [← hr] at h'
  rwa [Option.some.inj (h.symm.trans h')]

theorem aside_announcement {w : Surroundings} {cancelled : Bool} {i : Interrupt} {e : Emission}
    (h : e ∈ i.emissions cancelled) : Aside w e := by
  have herr : ∃ text, e = .err text := by
    cases i with
    | silent => cases h
    | announced =>
      cases cancelled with
      | true => cases h
      | false => exact ⟨_, List.mem_singleton.1 h⟩
  obtain ⟨text, rfl⟩ := herr
  refine .inside (fun t ht => by cases ht) fun r hr => ?_
  obtain ⟨c, -, h'⟩ := initial?_closing r
  rw [← hr] at h'
  cases h'

theorem aside_skipped {w : Surroundings} {source destination : ImageSet} {e : Emission}
    (h : e ∈ skipped source destination) : Aside w e := by
  obtain ⟨i, -, rfl⟩ := List.mem_map.1 h
  have hhead : (s!"No destination for image '{i.name}', skipping").toList.head? = some 'N' :=
    head?_append (head?_append rfl)
  exact aside_of_head? (by decide) hhead (by decide)

theorem aside_retryNotice {w : Surroundings} (o : Options) (attempt : Nat) (operation : Operation)
    (reference : String) (source : Chain) :
    Aside w (retryNotice o attempt (.engineCall operation reference source)) := by
  have hmessage : (TransferError.engineCall operation reference source).message.toList.head? =
      some 'e' :=
    head?_append (head?_append (head?_append (head?_append (head?_append rfl))))
  exact aside_of_head? (by decide)
    (head?_append (head?_append (head?_append (head?_append hmessage)))) (by decide)

theorem aside_removed {w : Surroundings} {items : List Removed} {e : Emission}
    (h : e ∈ items.flatMap fun i =>
      (i.untagged.toList.map fun u => Emission.info s!"Untagged: {u}") ++
        i.deleted.toList.map fun d => Emission.info s!"Deleted: {d}") : Aside w e := by
  obtain ⟨i, -, he⟩ := List.mem_flatMap.1 h
  rcases List.mem_append.1 he with he | he
  · obtain ⟨u, -, rfl⟩ := List.mem_map.1 he
    exact aside_of_head? (c := 'U') (by decide) (head?_append rfl) (by decide)
  · obtain ⟨d, -, rfl⟩ := List.mem_map.1 he
    exact aside_of_head? (c := 'D') (by decide) (head?_append rfl) (by decide)

/-! ## Steps with asides only -/

/-- From `s` to `s'` nothing is told but asides. -/
def Murmurs (w : Surroundings) (s s' : Session) : Prop :=
  ∃ h, s.Leads h s' ∧ ∀ e ∈ emissions h, Aside w e

theorem Murmurs.refl (w : Surroundings) (s : Session) : Murmurs w s s := ⟨[], .refl s, by simp⟩

theorem Murmurs.trans {w : Surroundings} {s t u : Session} (a : Murmurs w s t)
    (b : Murmurs w t u) : Murmurs w s u := by
  obtain ⟨h, hl, ha⟩ := a
  obtain ⟨h', hl', hb⟩ := b
  refine ⟨h ++ h', hl.trans hl', fun e he => ?_⟩
  rw [emissions_append] at he
  exact (List.mem_append.1 he).elim (ha e) (hb e)

section
variable (w : Surroundings) (s : Session)

theorem murmurs_tellAll {es : List Emission} (h : ∀ e ∈ es, Aside w e) :
    Murmurs w s (s.tellAll es) :=
  ⟨_, Session.leads_tellAll s es, by rwa [emissions_told]⟩

theorem Murmurs.of_leads {w : Surroundings} {s s' : Session} {m : Moment} (l : s.Leads [m] s')
    (hm : m.emission? = none) : Murmurs w s s' :=
  ⟨_, l, by rw [emissions_cons, hm]; simp⟩

theorem murmurs_interrupt (i : Interrupt) : Murmurs w s (s.interrupt i) := by
  refine ⟨_, Session.leads_interrupt s i, fun e he => ?_⟩
  rw [emissions_cons, emissions_told] at he
  exact aside_announcement he

theorem murmurs_applyAll {es : List Effect} (h : ∀ e, .tell e ∈ es → w.Tells e) :
    Murmurs w s (s.applyAll es) := by
  induction es generalizing s with
  | nil => exact .refl w s
  | cons e es ih =>
    refine Murmurs.trans ?_ (ih (s.apply e) fun e' he => h e' (List.mem_cons_of_mem _ he))
    cases e with
    | tell e =>
      refine murmurs_tellAll w s fun e' he => .outside ?_
      rw [List.mem_singleton.1 he]
      exact h e List.mem_cons_self
    | interrupt i => exact murmurs_interrupt w s i

theorem murmurs_observe (e : Event) : Murmurs w s (s.observe w e) :=
  .trans (.of_leads (m := .seen e) (by constructor <;> simp [Session.record]) rfl)
    (murmurs_applyAll w _ fun _ h => .observer h)

theorem murmurs_request (c : Call) : Murmurs w s (s.request w c).2 :=
  .trans (.of_leads (m := .called ⟨c, s.cancelled⟩ (s.request w c).1)
    (by constructor <;> simp [Session.record, Session.request]) rfl)
    (murmurs_applyAll w _ fun _ h => .engine h)

theorem murmurs_wait (delay : Duration) : Murmurs w s (s.wait w delay) :=
  .trans (.of_leads (m := .waited delay) (by constructor <;> simp [Session.record]) rfl)
    (murmurs_applyAll w _ fun _ h => .waiting h)

end

/-! ## Images -/

section
variable (w : Surroundings)

theorem murmurs_drain (reference : String) :
    ∀ (stream : ProgressStream) (last : Option Chain) (s : Session),
      Murmurs w s (drain w reference stream last s).2
  | .done, _, s => .of_leads (Session.leads_ended s) rfl
  | .item (.ok m) rest, last, s =>
    ((Murmurs.of_leads (Session.leads_read s (.ok m)) rfl).trans (murmurs_observe w _ _)).trans
      (murmurs_drain reference rest _ _)
  | .item (.error e) rest, _, s =>
    (Murmurs.of_leads (Session.leads_read s (.error e)) rfl).trans
      (murmurs_drain reference rest _ _)
  | .interrupt i rest, last, s =>
    (murmurs_interrupt w s i).trans (murmurs_drain reference rest last _)
  | .poll live cancelled, last, s => by
    rw [drain]
    split
    · exact murmurs_drain reference cancelled last s
    · exact murmurs_drain reference live last s

theorem murmurs_settle (operation : Operation) (reference : String)
    (answer : Except Chain ProgressStream) (s : Session) :
    Murmurs w s (settle w operation reference answer s).2 := by
  cases answer with
  | error source => exact .refl w s
  | ok stream =>
    rw [settle_ok]
    exact murmurs_drain w reference stream none s

theorem murmurs_tryPull (reference : String) (s : Session) :
    Murmurs w s (tryPull w reference s).2 :=
  (murmurs_request w s _).trans (murmurs_settle w _ _ _ _)

theorem murmurs_tryPush (reference header : String) (s : Session) :
    Murmurs w s (tryPush w reference header s).2 :=
  (murmurs_request w s _).trans (murmurs_settle w _ _ _ _)

theorem murmurs_deleteImage (i : Image) (s : Session) : Murmurs w s (deleteImage w i s).2 := by
  have hcall := murmurs_request w s (.remove i.reference)
  unfold deleteImage
  split
  · rename_i ht
    rw [ht] at hcall
    exact hcall.trans (murmurs_tellAll w _ fun _ he => aside_removed he)
  · rename_i ht
    rwa [ht] at hcall

/-- What is told of a failed attempt is no error. -/
theorem murmurs_again (o : Options) (reference header : String) (attempt : Nat) {s : Session}
    {e : TransferError} (hr : (tryPush w reference header s).1 = .error e) :
    Murmurs w (tryPush w reference header s).2
      (((tryPush w reference header s).2.tell (retryNotice o attempt e)).wait w
        (o.backoff.retryDelay attempt)) := by
  -- an attempt fails with the fault of its exchange only
  obtain ⟨_, a, -, -, -, -, hv⟩ := tryPush_leads w reference header s
  rw [hr] at hv
  have hnotice : ∀ e' ∈ [retryNotice o attempt e], Aside w e' := by
    intro e' he
    rw [List.mem_singleton.1 he]
    cases ha : a.error? with
    | none =>
      rw [ha] at hv
      cases hv
    | some source =>
      rw [ha] at hv
      rw [Except.error.inj hv]
      exact aside_retryNotice o attempt _ _ _
  exact (murmurs_tellAll w _ hnotice).trans (murmurs_wait w _ _)

theorem murmurs_parts (o : Options) : Parts w o (Murmurs w) where
  trans := .trans
  observe := murmurs_observe w
  tag s _ _ := murmurs_request w s _
  remove s i := murmurs_deleteImage w i s
  pull s reference := murmurs_tryPull w reference s
  push s reference header := murmurs_tryPush w reference header s
  again attempt := murmurs_again w o _ _ attempt

end

/-! ## Batches -/

/-- What is told of a failed image. -/
def errorsOf (r : ImageResult) : List Emission := r.error?.toList.map fun e => .error e.message

/-- What is told of a batch: its opening, then over each result some asides and its error, and
behind them how the batch has ended. -/
structure Account (w : Surroundings) (d : Duty) (r : Report) (told : List Emission)
    (parts : List (List Emission × ImageResult)) : Prop where
  results : parts.map (·.2) = r.results
  opening : ∀ e ∈ d.opening, Aside w e
  aside : ∀ p ∈ parts, ∀ e ∈ p.1, Aside w e
  told : told = d.opening ++ parts.flatMap (fun p => p.1 ++ errorsOf p.2) ++ [r.closing]

theorem told_run {α : Type} {w : Surroundings} {f : α → Job}
    (hf : ∀ a s, Murmurs w s (f a s).2) (operation : Operation) (as : List α) (s : Session) :
    ∃ parts : List (List Emission × ImageResult),
      parts.map (·.2) = (run operation (as.map f) s).1.results ∧
      (∀ p ∈ parts, ∀ e ∈ p.1, Aside w e) ∧
      (run operation (as.map f) s).2.output = s.output ++
        (parts.flatMap (fun p => p.1 ++ errorsOf p.2) ++
          [(run operation (as.map f) s).1.closing]) := by
  obtain ⟨visits, -, hresults, hleads, hvisits⟩ := (runs_runJobs (as.map f) s).visits
    (P := fun _ r h => ∃ es, emissions h = es ++ errorsOf r ∧ ∀ e ∈ es, Aside w e) fun a s _ => by
      obtain ⟨h, hl, hm⟩ := hf a s
      refine ⟨_, hl.trans (Session.leads_tellAll _ _), emissions h, ?_, hm⟩
      rw [emissions_append, emissions_told]
      rfl
  have hend := hleads.trans (Session.leads_tellAll _ [(run operation (as.map f) s).1.closing])
  choose! asides hasides using hvisits
  refine ⟨visits.map fun v => (asides v, v.result), ?_, fun p hp => ?_, hend.output.trans ?_⟩
  · rw [List.map_map]
    exact hresults
  · obtain ⟨v, hv, rfl⟩ := List.mem_map.1 hp
    exact (hasides v hv).2
  · have hparts : emissions (visits.flatMap (·.history)) =
        visits.flatMap fun v => asides v ++ errorsOf v.result := by
      rw [emissions_flatMap]
      exact List.flatMap_congr fun v hv => (hasides v hv).1
    rw [emissions_append, hparts, emissions_told, List.flatMap_map]

theorem Duty.account (w : Surroundings) (o : Options) (d : Duty) (s : Session) :
    ∃ told parts, (d.run w o s).2.output = s.output ++ told ∧
      Account w d (d.run w o s).1 told parts := by
  rw [run_eq]
  obtain ⟨parts, hresults, hasides, houtput⟩ :=
    told_run (murmurs_parts w o |>.job d) d.operation d.items (s.tellAll d.opening)
  refine ⟨_, parts, houtput.trans (List.append_assoc _ _ _), hresults, fun e he => ?_, hasides, ?_⟩
  · cases d with
    | pull set | delete set => cases he
    | push source destination c => exact aside_skipped he
  · rw [List.append_assoc]

end Batch

end ImageRelay
