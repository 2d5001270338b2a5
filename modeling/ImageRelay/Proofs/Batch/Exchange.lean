import ImageRelay.Proofs.Batch.Attempts
import ImageRelay.Proofs.Batch.Runs

/-!
# The exchange of a batch with its engine and its observer

What a pull or push batch asks of the engine, reads of the streams and shows to the observer, in
order (`Moment.exchange`).

* `ReadThrough`: every stream that is handed out is read to its end before the next call.
* `transferred`: an image begins for the observer, then come the attempts, then it ends.
* `Pulled`, `Pushed`: the exchange over one image with this result.
* `batches_exchange`: the exchange of a batch is that of its results, one after the other.
-/

set_option autoImplicit false

namespace ImageRelay.Batch

open Moment

/-! ## Streams are read to their ends -/

/-- Behind every call that hands out a stream, the items of the stream are read up to its end before
there is another call. -/
def ReadThrough (xs : List Moment) : Prop :=
  ∀ (before after : List Moment) (r : Request) (answer : r.call.Answer) (stream : ProgressStream),
    xs = before ++ .called r answer :: after → r.call.stream? answer = some (.ok stream) →
    ∃ during rest raised, after = during ++ .ended :: rest ∧ calls during = [] ∧
      (r.cancelled = true → raised = true) ∧ stream.Reads raised (items during)

theorem readThrough_of_calls_nil {xs : List Moment} (h : calls xs = []) : ReadThrough xs := by
  rintro before after r answer stream rfl
  simp at h

theorem ReadThrough.append {xs ys : List Moment} (hx : ReadThrough xs) (hy : ReadThrough ys) :
    ReadThrough (xs ++ ys) := by
  intro before after r answer stream heq hs
  rcases cut_append heq with ⟨mid, hmid, rfl⟩ | ⟨mid, rfl, hmid⟩
  · obtain ⟨during, rest, raised, rfl, hc, hr, hreads⟩ := hx before mid r answer stream hmid hs
    exact ⟨during, rest ++ ys, raised, by simp, hc, hr, hreads⟩
  · exact hy mid after r answer stream hmid hs

theorem readThrough_flatMap {α : Type} {f : α → List Moment} :
    ∀ {as : List α}, (∀ a ∈ as, ReadThrough (f a)) → ReadThrough (as.flatMap f)
  | [], _ => readThrough_of_calls_nil rfl
  | a :: as, h => by
    rw [List.flatMap_cons]
    exact (h a List.mem_cons_self).append
      (readThrough_flatMap fun b hb => h b (List.mem_cons_of_mem _ hb))

/-- A call that hands out no stream. -/
theorem readThrough_called {r : Request} {answer : r.call.Answer}
    (h : ∀ stream, r.call.stream? answer ≠ some (.ok stream)) :
    ReadThrough [.called r answer] := by
  intro before after r' answer' stream heq hs
  cases before with
  | nil =>
    obtain ⟨h1, -⟩ := List.cons.inj heq
    cases h1
    exact absurd hs (h stream)
  | cons m before => simp at heq

theorem readThrough_attempt {a : Attempt} (h : a.Complete) (reference : String) :
    ReadThrough (a.moments reference) := by
  intro before after r answer stream heq hs
  cases before with
  | nil =>
    obtain ⟨h1, rfl⟩ := List.cons.inj heq
    cases h1
    change a.stream? = _ at hs
    rw [Attempt.Complete, hs] at h
    obtain ⟨raised, hr, hreads⟩ := h
    refine ⟨readings reference a.items, [], raised, ?_, ImageRelay.calls_readings _ _, hr, ?_⟩
    · rw [Attempt.readings, hs]
    · rwa [items_readings]
  | cons m before =>
    obtain ⟨-, h2⟩ := List.cons.inj heq
    have hc := a.calls_readings reference
    rw [h2] at hc
    simp at hc

/-! ## The exchange over one image -/

/-- An image begins for the observer, some attempts are made, and it ends. -/
def transferred (reference : String) (attempts : List Attempt) (success : Bool) : List Moment :=
  .seen (.begin reference) :: attempts.flatMap (Attempt.moments reference) ++
    [.seen (.finish reference success)]

/-- The outcome of an image whose last attempt has this error. -/
def outcomeOf (operation : Operation) (reference : String) : Option Chain → Outcome
  | none => .done
  | some source => .failed (.engineCall operation reference source)

/-- A result comes of failed attempts and a last one, all of them at this call. -/
structure Settles (operation : Operation) (call : Call) (r : ImageResult) (failed : List Attempt)
    (a : Attempt) : Prop where
  operation_eq : r.operation = operation
  complete : ∀ b ∈ failed ++ [a], b.Complete ∧ b.request.call = call
  repeated : ∀ b ∈ failed, b.Fails
  fails_iff : a.Fails ↔ r.isSuccess = false
  outcome_eq : r.outcome = outcomeOf operation r.reference a.error?

/-- The exchange over an image that was pulled. -/
inductive Pulled (r : ImageResult) : List Moment → Prop
  | pulled {a : Attempt} (h : Settles .pull (.pull r.reference) r [] a) :
      Pulled r (transferred r.reference [a] r.isSuccess)

/-- The exchange over an image that was tagged and pushed, or of which the tag failed. -/
inductive Pushed (header : String) (r : ImageResult) : List Moment → Prop
  | untagged {source : String} {cancelled : Bool} {fault : Chain} (ho : r.operation = .tag)
      (hf : r.outcome = .failed (.engineCall .tag r.reference fault)) :
      Pushed header r [.called ⟨.tag source r.reference, cancelled⟩ (.error fault)]
  | tagged {source : String} {cancelled : Bool} {failed : List Attempt} {a : Attempt}
      (h : Settles .push (.push r.reference header) r failed a) :
      Pushed header r (.called ⟨.tag source r.reference, cancelled⟩ (.ok ()) ::
        transferred r.reference (failed ++ [a]) r.isSuccess)

theorem readThrough_transferred {reference : String} {attempts : List Attempt} {success : Bool}
    (h : ∀ a ∈ attempts, a.Complete) : ReadThrough (transferred reference attempts success) :=
  ((readThrough_of_calls_nil (show calls [.seen (.begin reference)] = [] from rfl)).append
    (readThrough_flatMap fun a ha => readThrough_attempt (h a ha) reference)).append
    (readThrough_of_calls_nil rfl)

theorem Pulled.readThrough {r : ImageResult} {xs : List Moment} (p : Pulled r xs) :
    ReadThrough xs := by
  obtain ⟨h⟩ := p
  exact readThrough_transferred fun a ha => (h.complete a ha).1

theorem Pushed.readThrough {header : String} {r : ImageResult} {xs : List Moment}
    (p : Pushed header r xs) : ReadThrough xs := by
  cases p with
  | untagged => exact readThrough_called fun _ h => by cases h
  | tagged h =>
    exact (readThrough_called fun _ h => by cases h).append
      (readThrough_transferred fun a ha => (h.complete a ha).1)

/-- The result of an image whose attempts end like this. -/
theorem settles_resultOf {i : Image} {operation : Operation} {call : Call} {failed : List Attempt}
    {a : Attempt} (hc : ∀ b ∈ failed ++ [a], b.Complete ∧ b.request.call = call)
    (hf : ∀ b ∈ failed, b.Fails) :
    Settles operation call
      (resultOf i operation ((verdict operation i.reference a.error?).map fun _ => .done))
      failed a where
  operation_eq := rfl
  complete := hc
  repeated := hf
  fails_iff := by
    rw [← a.isSome_error?_iff]
    cases a.error? <;> simp [verdict, resultOf, ImageResult.isSuccess, ImageResult.error?,
      Except.map]
  outcome_eq := by cases a.error? <;> rfl

theorem isSuccess_resultOf (i : Image) (operation : Operation) (r : Except TransferError Unit) :
    (resultOf i operation (r.map fun _ => .done)).isSuccess = r.toBool := by
  cases r <;> rfl

/-- An image begins and ends for the observer, whatever is done between. -/
theorem framed_leads (w : Surroundings) (reference : String)
    {body : Session → Except TransferError Unit × Session} {s : Session} {h : List Moment}
    (hl : (s.observe w (.begin reference)).Leads h (body (s.observe w (.begin reference))).2) :
    ∃ h', s.Leads h' (framed w reference body s).2 ∧
      exchange h' = .seen (.begin reference) :: exchange h ++
        [.seen (.finish reference (framed w reference body s).1.toBool)] := by
  obtain ⟨q, hq, hquiet⟩ := Session.leads_observe w s (.begin reference)
  obtain ⟨q', hq', hquiet'⟩ := Session.leads_observe w (body (s.observe w (.begin reference))).2
    (.finish reference (body (s.observe w (.begin reference))).1.toBool)
  refine ⟨_, (hq.trans hl).trans hq', ?_⟩
  simp [hquiet.exchange, hquiet'.exchange, framed]

/-- The attempts of a push are between the begin and the end of its image. -/
theorem framed_pushFrom_leads (w : Surroundings) (o : Options) (reference header : String)
    (left attempt : Nat) (s : Session) :
    ∃ h' h failed a,
      s.Leads h' (framed w reference (pushFrom w o reference header left attempt) s).2 ∧
      PushHistory reference header left
        (framed w reference (pushFrom w o reference header left attempt) s).1 h failed a ∧
      exchange h' = .seen (.begin reference) :: exchange h ++ [.seen (.finish reference
        (framed w reference (pushFrom w o reference header left attempt) s).1.toBool)] := by
  obtain ⟨h, failed, a, hl, hp⟩ := (tries_pushFrom w o reference header left attempt
    (s.observe w (.begin reference))).leads
  obtain ⟨h', hl', hx'⟩ := framed_leads w reference hl
  exact ⟨h', h, failed, a, hl', hp, hx'⟩

theorem pullImage_eq (w : Surroundings) (i : Image) (s : Session) :
    pullImage w i s =
      (resultOf i .pull ((framed w i.reference (tryPull w i.reference) s).1.map fun _ => .done),
        (framed w i.reference (tryPull w i.reference) s).2) := rfl

theorem pullImage_leads (w : Surroundings) (i : Image) (s : Session) :
    ∃ h, s.Leads h (pullImage w i s).2 ∧ Pulled (pullImage w i s).1 (exchange h) := by
  obtain ⟨h, a, hl, hx, hc, hreq, hv⟩ :=
    tryPull_leads w i.reference (s.observe w (.begin i.reference))
  obtain ⟨h', hl', hx'⟩ := framed_leads w i.reference hl
  refine ⟨h', hl', ?_⟩
  change (framed w i.reference (tryPull w i.reference) s).1 = _ at hv
  rw [pullImage_eq, hx', hv, ← isSuccess_resultOf i .pull]
  have hcall : a.Complete ∧ a.request.call = .pull i.reference := ⟨hc, by rw [hreq]⟩
  have hset : Settles .pull (.pull i.reference)
      (resultOf i .pull ((verdict .pull i.reference a.error?).map fun _ => .done)) [] a :=
    settles_resultOf (by simpa using hcall) (by simp)
  have hp : Pulled (resultOf i .pull ((verdict .pull i.reference a.error?).map fun _ => .done))
      (transferred i.reference [a] _) := .pulled hset
  simpa [transferred, Attempt.moments, hx] using hp

theorem pushImage_of_error (w : Surroundings) (o : Options) (c : Credentials) (i t : Image)
    (s : Session) {fault : Chain}
    (h : (s.request w (.tag i.reference t.reference)).1 = .error fault) :
    pushImage w o c i t s =
      (resultOf t .tag (.error (.engineCall .tag t.reference fault)),
        (s.request w (.tag i.reference t.reference)).2) := by
  unfold pushImage
  split <;> simp_all

theorem pushImage_of_ok (w : Surroundings) (o : Options) (c : Credentials) (i t : Image)
    (s : Session) (h : (s.request w (.tag i.reference t.reference)).1 = .ok ()) :
    pushImage w o c i t s =
      (resultOf t .push ((framed w t.reference
          (pushFrom w o t.reference (headerOf c) o.retries 0)
          (s.request w (.tag i.reference t.reference)).2).1.map fun _ => .done),
        (framed w t.reference (pushFrom w o t.reference (headerOf c) o.retries 0)
          (s.request w (.tag i.reference t.reference)).2).2) := by
  unfold pushImage
  split <;> simp_all

theorem pushImage_leads (w : Surroundings) (o : Options) (c : Credentials) (i t : Image)
    (s : Session) : ∃ h, s.Leads h (pushImage w o c i t s).2 ∧
      Pushed (headerOf c) (pushImage w o c i t s).1 (exchange h) := by
  obtain ⟨q, hq, hquiet⟩ := Session.leads_request w (.tag i.reference t.reference) s
  cases htag : (s.request w (.tag i.reference t.reference)).1 with
  | error fault =>
    rw [pushImage_of_error w o c i t s htag]
    refine ⟨_, hq, ?_⟩
    have hpushed : Pushed (headerOf c)
        (resultOf t .tag (.error (.engineCall .tag t.reference fault)))
        [.called ⟨.tag i.reference t.reference, s.cancelled⟩ (.error fault)] := .untagged rfl rfl
    simpa [htag, hquiet.exchange] using hpushed
  | ok =>
    rw [pushImage_of_ok w o c i t s htag]
    obtain ⟨h', h, failed, a, hl', hp, hx'⟩ := framed_pushFrom_leads w o t.reference (headerOf c)
      o.retries 0 (s.request w (.tag i.reference t.reference)).2
    refine ⟨_, hq.trans hl', ?_⟩
    rw [htag, hp.result, exchange_append, hx', hp.exchange, hp.result, ← isSuccess_resultOf t .push]
    have hpushed : Pushed (headerOf c)
        (resultOf t .push ((verdict .push t.reference a.error?).map fun _ => .done))
        (.called ⟨.tag i.reference t.reference, s.cancelled⟩ (.ok ()) ::
          transferred t.reference (failed ++ [a]) _) :=
      .tagged (settles_resultOf hp.complete hp.fails)
    simpa [transferred, hquiet.exchange] using hpushed

/-! ## The exchange of a batch -/

/-- The exchange between two sessions is that of some results, one after the other; each of them
satisfies `P` with its part. -/
def Exchanges (P : ImageResult → List Moment → Prop) (results : List ImageResult)
    (s s' : Session) : Prop :=
  ∃ (h : List Moment) (parts : List (ImageResult × List Moment)),
    s'.history = s.history ++ h ∧ parts.map (·.1) = results ∧ (∀ p ∈ parts, P p.1 p.2) ∧
    exchange h = parts.flatMap (·.2) ∧ s'.events = s.events ++ events (parts.flatMap (·.2)) ∧
    ReadThrough (exchange h)

/-- What is quiet in front of an exchange does not belong to it. -/
theorem Exchanges.of_quiet {P : ImageResult → List Moment → Prop} {results : List ImageResult}
    {s t s' : Session} {q : List Moment} (e : Exchanges P results t s') (l : s.Leads q t)
    (hq : Quiet q) : Exchanges P results s s' := by
  obtain ⟨h, parts, hh, hr, hp, hx, he, hread⟩ := e
  refine ⟨q ++ h, parts, ?_, hr, hp, ?_, ?_, ?_⟩
  · rw [hh, l.history, List.append_assoc]
  · rw [exchange_append, hq.exchange, hx, List.nil_append]
  · rw [he, l.events, hq.events, List.append_nil]
  · rwa [exchange_append, hq.exchange, List.nil_append]

/-- A batch of jobs whose exchange is known. -/
theorem exchanges_run {α : Type} {f : α → Job} {P : ImageResult → List Moment → Prop}
    (operation : Operation) (hP : ∀ {r xs}, P r xs → ReadThrough xs)
    (hf : ∀ a s, ∃ h, s.Leads h (f a s).2 ∧ P (f a s).1 (exchange h)) (as : List α) (s : Session) :
    Exchanges P (run operation (as.map f) s).1.results s (run operation (as.map f) s).2 := by
  obtain ⟨visits, -, hr, hl, hv⟩ := (runs_runJobs (as.map f) s).visits
    (P := fun _ r h => P r (exchange h)) fun a s _ => by
      obtain ⟨h, hl, hp⟩ := hf a s
      obtain ⟨told, hl', hq⟩ := runJob_leads hl
      exact ⟨_, hl', by simpa [hq.exchange, runJob] using hp⟩
  have hend := hl.trans (Session.leads_tellAll _ [(run operation (as.map f) s).1.closing])
  have hx : exchange (visits.flatMap (·.history) ++
      [(run operation (as.map f) s).1.closing].map .told) =
        (visits.map fun v => (v.result, exchange v.history)).flatMap (·.2) := by
    simp [exchange_flatMap, List.flatMap_map]
  have hp : ∀ p ∈ visits.map fun v => (v.result, exchange v.history), P p.1 p.2 := by
    simpa using hv
  refine ⟨_, visits.map fun v => (v.result, exchange v.history), hend.history, ?_, hp, hx, ?_, ?_⟩
  · rw [List.map_map]
    exact hr
  · rw [← hx, events_exchange]
    exact hend.events
  · rw [hx]
    exact readThrough_flatMap fun p h => hP (hp p h)

/-- **The exchange of pull and push batches**: it is that of the results in their order, and every
stream in it is read to its end before the next call. -/
theorem batches_exchange (w : Surroundings) (o : Options) (set source destination : ImageSet)
    (c : Credentials) (s : Session) :
    Exchanges Pulled (pullAll w set s).1.results s (pullAll w set s).2 ∧
    Exchanges (Pushed (headerOf c)) (pushAll w o source destination c s).1.results s
      (pushAll w o source destination c s).2 := by
  refine ⟨exchanges_run .pull Pulled.readThrough (pullImage_leads w) set.images s, ?_⟩
  have htold := Session.leads_tellAll s <| (unpaired source destination).map fun i =>
    .warn s!"No destination for image '{i.name}', skipping"
  exact (exchanges_run .push Pushed.readThrough
    (fun p => pushImage_leads w o c p.1 p.2) _ _).of_quiet htold (quiet_told _)

end ImageRelay.Batch
