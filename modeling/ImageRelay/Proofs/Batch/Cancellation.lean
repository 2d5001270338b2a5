import ImageRelay.Proofs.Batch.Exchange
import ImageRelay.Proofs.Batch.Saving

/-!
# What a raised token stops

`Spared h`: behind every raise of the token in `h` there is one call at most, and it is one that
was `Pending` when the token was raised. The token is looked at before an image, behind a failed
image and behind a failed attempt, but neither between a tag and its push nor behind a wait; these
gaps are where a call is still pending.

Histories are put together by `Spared.append`, where no call follows a raise, and by `spared_act`,
where one may. `Heeds late s s'` adds which calls are still made if the token is raised from the
start: one in an attempt and what is around it (`Tries.heeds`, `heeds_framed`), none in a batch
(`Runs.heeds`), a save, and a whole sequence of them (`errands_stop`).
-/

set_option autoImplicit false

namespace ImageRelay.Batch

open Moment

/-! ## Pending calls -/

/-- The last act of a history: what is going on behind it. -/
def current? (h : List Moment) : Option Moment := (acts h).getLast?

/-- The calls that may still be made if the token is raised behind `before`: the push of the image
whose tag is going on, the next push of the image for which a failed attempt is waited on, and what
an image begins with if it is the observer who raises the token as the image begins. -/
inductive Pending (before : List Moment) : Call → Prop
  | tagging {source reference header : String} {cancelled : Bool}
      {answer : (Call.tag source reference).Answer}
      (h : current? before = some (.called ⟨.tag source reference, cancelled⟩ answer)) :
      Pending before (.push reference header)
  | waiting {reference header : String} {delay : Duration} {a : Attempt}
      (h : current? before = some (.waited delay)) (hx : a.moments reference <:+ exchange before)
      (hp : a.request.call = .push reference header) (hc : a.Complete) (hf : a.Fails) :
      Pending before (.push reference header)
  | pulling {reference : String} (h : current? before = some (.seen (.begin reference))) :
      Pending before (.pull reference)
  | pushing {reference header : String} (h : current? before = some (.seen (.begin reference))) :
      Pending before (.push reference header)

/-- Behind every raise of the token there is no call, or a single one that was pending. -/
def Spared (h : List Moment) : Prop :=
  ∀ (before after : List Moment) (i : Interrupt), h = before ++ .raised i :: after →
    calls after = [] ∨ ∃ c, calls after = [⟨c, true⟩] ∧ Pending before c

theorem current?_append_quiet {h q : List Moment} (hq : Quiet q) :
    current? (h ++ q) = current? h := by
  rw [current?, acts_append, hq, List.append_nil, current?]

theorem current?_append {h h' : List Moment} {m : Moment} (hm : current? h' = some m) :
    current? (h ++ h') = some m := by
  rw [current?] at hm
  rw [current?, acts_append, List.getLast?_append, hm, Option.some_or]

theorem Pending.append_quiet {h q : List Moment} {c : Call} (p : Pending h c) (hq : Quiet q) :
    Pending (h ++ q) c := by
  have hcur := current?_append_quiet (h := h) hq
  cases p with
  | tagging h1 => exact .tagging (hcur.trans h1)
  | waiting h1 hx hp hc hf =>
    exact .waiting (hcur.trans h1) (by rwa [exchange_append, hq.exchange, List.append_nil]) hp hc hf
  | pulling h1 => exact .pulling (hcur.trans h1)
  | pushing h1 => exact .pushing (hcur.trans h1)

/-- What is pending does not depend on what was before. -/
theorem Pending.prepend {h' : List Moment} {c : Call} (p : Pending h' c) (h : List Moment) :
    Pending (h ++ h') c := by
  cases p with
  | tagging h1 => exact .tagging (current?_append h1)
  | waiting h1 hx hp hc hf =>
    refine .waiting (current?_append h1) ?_ hp hc hf
    rw [exchange_append]
    exact hx.trans (List.suffix_append _ _)
  | pulling h1 => exact .pulling (current?_append h1)
  | pushing h1 => exact .pushing (current?_append h1)

/-! ## Spared histories -/

theorem calls_nil_of_cut {before after : List Moment} {m : Moment}
    (h : calls (before ++ m :: after) = []) : calls after = [] := by
  rw [calls_append, calls_cons] at h
  exact (List.append_eq_nil_iff.1 (List.append_eq_nil_iff.1 h).2).2

theorem Spared.of_calls_nil {h : List Moment} (hc : calls h = []) : Spared h := by
  rintro before after i rfl
  exact .inl (calls_nil_of_cut hc)

theorem Spared.of_raises {h : List Moment} (hr : raises h = false) : Spared h := by
  rintro before after i rfl
  rw [raises_cut] at hr
  cases hr

/-- Behind a raise in the first part there is no call in the second, or there is one that was
pending and no other. -/
theorem Spared.append_of {h h' : List Moment} (a : Spared h) (b : Spared h')
    (hc : ∀ before after i, h = before ++ .raised i :: after →
      calls h' = [] ∨ calls after = [] ∧ ∃ c, calls h' = [⟨c, true⟩] ∧ Pending before c) :
    Spared (h ++ h') := by
  intro before after i heq
  rcases cut_append heq with ⟨mid, hmid, rfl⟩ | ⟨mid, rfl, hmid⟩
  · rw [calls_append]
    rcases hc before mid i hmid with hno | ⟨hno, c, hcalls, pend⟩
    · rw [hno, List.append_nil]
      exact a before mid i hmid
    · rw [hno, List.nil_append]
      exact .inr ⟨c, hcalls, pend⟩
  · exact (b mid after i hmid).imp_right fun ⟨c, hcalls, pend⟩ => ⟨c, hcalls, pend.prepend h⟩

/-- No call behind a raise in the first part. -/
theorem Spared.append {h h' : List Moment} (a : Spared h) (b : Spared h')
    (hc : raises h = true → calls h' = []) : Spared (h ++ h') :=
  a.append_of b fun _ _ _ heq => .inl (hc (heq ▸ raises_cut))

/-- An act with quiet behind it: a raise is in what is quiet, and a call that follows was pending
when the act was done. -/
theorem spared_act {p q h' : List Moment} {m : Moment} (hp : raises (p ++ [m]) = false)
    (hq : Quiet q) (hs : Spared h')
    (hn : raises q = true → calls h' = [] ∨ ∃ c, calls h' = [⟨c, true⟩] ∧ Pending (p ++ [m]) c) :
    Spared (p ++ [m] ++ q ++ h') := by
  refine Spared.append_of ?_ hs fun before after i heq => ?_
  · exact Spared.append (.of_raises hp) (.of_calls_nil hq.calls) fun _ => hq.calls
  · rcases cut_append heq with ⟨mid, hmid, -⟩ | ⟨mid, rfl, rfl⟩
    · rw [hmid, raises_cut] at hp
      cases hp
    · refine (hn raises_cut).imp_right fun ⟨c, hcalls, pend⟩ =>
        ⟨calls_nil_of_cut hq.calls, c, hcalls, pend.append_quiet ?_⟩
      exact (List.append_eq_nil_iff.1 ((acts_append _ _).symm.trans hq)).1

/-- A call with no other behind it. -/
theorem spared_called {r : Request} {answer : r.call.Answer} {h : List Moment}
    (hc : calls h = []) : Spared (.called r answer :: h) :=
  Spared.append (h := [_]) (.of_raises rfl) (.of_calls_nil hc) fun _ => hc

/-! ## Steps that heed the token -/

/-- From `s` to `s'` the engine is spared; if the token is raised from the start, the `late` calls
are made and no other. -/
def Heeds (late : List Call) (s s' : Session) : Prop :=
  ∃ h, s.Leads h s' ∧ Spared h ∧ (s.cancelled = true → calls h = late.map (⟨·, true⟩))

theorem Heeds.refl (s : Session) : Heeds [] s s := ⟨[], .refl s, .of_calls_nil rfl, fun _ => rfl⟩

theorem Heeds.trans {late : List Call} {s t u : Session} (a : Heeds late s t) (b : Heeds [] t u) :
    Heeds late s u := by
  obtain ⟨h, hl, hs, hc⟩ := a
  obtain ⟨h', hl', hs', hc'⟩ := b
  refine ⟨h ++ h', hl.trans hl', hs.append hs' fun hr => hc' (hl.cancelled_of_raises hr), ?_⟩
  intro hcan
  rw [calls_append, hc hcan, hc' (hl.cancelled_of hcan)]
  exact List.append_nil _

/-- Steps without a call. -/
theorem Heeds.of_calls_nil {s s' : Session} {h : List Moment} (l : s.Leads h s')
    (hc : calls h = []) : Heeds [] s s' := ⟨h, l, .of_calls_nil hc, fun _ => hc⟩

theorem heeds_tellAll (s : Session) (es : List Emission) : Heeds [] s (s.tellAll es) :=
  .of_calls_nil (Session.leads_tellAll s es) (quiet_told es).calls

/-- Where the token is not raised at the start, it does not matter what would be made late. -/
theorem Heeds.of_not_cancelled {late : List Call} {s s' : Session} {h : List Moment}
    (hs : s.cancelled = false) (l : s.Leads h s') (a : Spared h) : Heeds late s s' :=
  ⟨h, l, a, fun hcan => by rw [hs] at hcan; cases hcan⟩

/-! ## Attempts and images -/

/-- A call with the reading of its stream behind it. -/
theorem heeds_attempt {s s' : Session} {a : Attempt} {h : List Moment} {reference : String}
    {c : Call} (hl : s.Leads (.called a.request a.answer :: h) s')
    (hx : exchange h = a.readings reference) (hreq : a.request = ⟨c, s.cancelled⟩) :
    Heeds [c] s s' := by
  have hcalls : calls h = [] := by rw [← calls_exchange, hx, a.calls_readings]
  refine ⟨_, hl, spared_called hcalls, fun hcan => ?_⟩
  rw [calls_cons, hcalls]
  change [a.request] = [⟨c, true⟩]
  rw [hreq, hcan]

theorem heeds_tryPull (w : Surroundings) (reference : String) (s : Session) :
    Heeds [.pull reference] s (tryPull w reference s).2 := by
  obtain ⟨h, a, hl, hx, -, hreq, -⟩ := tryPull_leads w reference s
  exact heeds_attempt hl hx hreq

theorem heeds_tryPush (w : Surroundings) (reference header : String) (s : Session) :
    Heeds [.push reference header] s (tryPush w reference header s).2 := by
  obtain ⟨h, a, hl, hx, -, hreq, -⟩ := tryPush_leads w reference header s
  exact heeds_attempt hl hx hreq

/-- If the token is raised before a push, there is one attempt only. -/
theorem Tries.heeds {w : Surroundings} {o : Options} {reference header : String}
    {left attempt : Nat} {s s' : Session} {r : Except TransferError Unit}
    (t : Tries w o reference header left attempt s r s') : Heeds [.push reference header] s s' := by
  induction t with
  | last | succeeded | barred => exact heeds_tryPush w reference header _
  | @again left attempt s s' e r hr hc _ ih =>
    obtain ⟨h, a, hl, hx, hcomplete, hreq, hv⟩ := tryPush_leads w reference header s
    obtain ⟨q, hq, hquiet⟩ := Session.leads_wait w (o.backoff.retryDelay attempt)
      ((tryPush w reference header s).2.tell (retryNotice o attempt e))
    obtain ⟨h', hl', hs', hc'⟩ := ih
    have hfirst := hl.trans (Session.leads_tellAll _ [retryNotice o attempt e])
    -- the token was not raised during the failed attempt, or there would be no wait
    obtain ⟨hs, hraises⟩ := hfirst.of_not_cancelled hc
    have hpend : Pending ((.called a.request a.answer :: h ++ [.told (retryNotice o attempt e)]) ++
        [.waited (o.backoff.retryDelay attempt)]) (.push reference header) := by
      refine .waiting (a := a) (current?_append rfl) ?_ (by rw [hreq]) hcomplete
        (a.isSome_error?_iff.1 (isSome_of_verdict (hv.symm.trans hr)))
      simp [Attempt.moments, hx]
    have hspared := spared_act (by simpa using hraises) hquiet hs' fun hraise =>
      .inr ⟨_, hc' (hq.cancelled_of_raises (by simp [hraise])), hpend⟩
    exact .of_not_cancelled hs ((hfirst.trans hq).trans hl') (by simpa using hspared)

/-- An image that begins with this call. -/
theorem heeds_framed (w : Surroundings) (reference : String) {c : Call}
    {body : Session → Except TransferError Unit × Session}
    (hc : ∀ before, current? before = some (.seen (.begin reference)) → Pending before c)
    (hb : ∀ s : Session, Heeds [c] s (body s).2) (s : Session) :
    Heeds [c] s (framed w reference body s).2 := by
  obtain ⟨q, hq, hquiet⟩ := Session.leads_observe w s (.begin reference)
  obtain ⟨h, hl, hs, hcalls⟩ := hb (s.observe w (.begin reference))
  obtain ⟨q', hq', hquiet'⟩ := Session.leads_observe w (body (s.observe w (.begin reference))).2
    (.finish reference (body (s.observe w (.begin reference))).1.toBool)
  have hbegun : Heeds [c] s (body (s.observe w (.begin reference))).2 := by
    refine ⟨_, hq.trans hl, spared_act (p := []) rfl hquiet hs fun hraise => ?_, fun hcan => ?_⟩
    · exact .inr ⟨c, hcalls (hq.cancelled_of_raises (by simp [hraise])), hc _ rfl⟩
    · rw [calls_append, hcalls (hq.cancelled_of hcan), calls_cons, hquiet.calls]
      rfl
  exact hbegun.trans (.of_calls_nil hq' hquiet'.calls)

/-- A job that is spared. -/
def SparedJob (j : Job) : Prop := ∀ s : Session, ∃ h, s.Leads h (j s).2 ∧ Spared h

theorem spared_pullImage (w : Surroundings) (i : Image) : SparedJob (pullImage w i) := fun s => by
  obtain ⟨h, hl, hs, -⟩ :=
    heeds_framed w i.reference (fun _ h => .pulling h) (heeds_tryPull w i.reference) s
  exact ⟨h, hl, hs⟩

theorem spared_deleteImage (w : Surroundings) (i : Image) : SparedJob (deleteImage w i) := by
  intro s
  obtain ⟨q, hq, hquiet⟩ := Session.leads_request w (.remove i.reference) s
  unfold deleteImage
  split
  · rename_i ht
    rw [ht] at hq
    exact ⟨_, hq.trans (Session.leads_tellAll _ _),
      spared_called (hquiet.append (quiet_told _)).calls⟩
  · rename_i ht
    rw [ht] at hq
    exact ⟨_, hq, spared_called hquiet.calls⟩

theorem spared_pushImage (w : Surroundings) (o : Options) (c : Credentials) (i t : Image) :
    SparedJob (pushImage w o c i t) := by
  intro s
  obtain ⟨q, hq, hquiet⟩ := Session.leads_request w (.tag i.reference t.reference) s
  cases htag : (s.request w (.tag i.reference t.reference)).1 with
  | error fault =>
    rw [pushImage_of_error w o c i t s htag]
    exact ⟨_, hq, spared_called hquiet.calls⟩
  | ok =>
    rw [pushImage_of_ok w o c i t s htag]
    obtain ⟨h, hl, hs, hcalls⟩ := heeds_framed w t.reference (fun _ h => .pushing h)
      (fun s => (tries_pushFrom w o t.reference (headerOf c) o.retries 0 s).heeds)
      (s.request w (.tag i.reference t.reference)).2
    -- the token is not looked at between the tag and the push
    exact ⟨_, hq.trans hl, spared_act (p := []) rfl hquiet hs fun hraise =>
      .inr ⟨_, hcalls (hq.cancelled_of_raises (by simp [hraise])), .tagging rfl⟩⟩

/-! ## Batches -/

theorem SparedJob.runJob {j : Job} (hj : SparedJob j) : SparedJob (runJob j) := fun s => by
  obtain ⟨h, hl, hs⟩ := hj s
  obtain ⟨told, hl', hq⟩ := runJob_leads hl
  exact ⟨_, hl', hs.append (.of_calls_nil hq.calls) fun _ => hq.calls⟩

/-- A batch of spared jobs makes no call if the token is raised before it. -/
theorem Runs.heeds {jobs : List Job} {s s' : Session} {rs : List ImageResult} {stopped : Bool}
    (r : Runs jobs s rs stopped s') (hj : ∀ j ∈ jobs, SparedJob j) : Heeds [] s s' := by
  induction r with
  | done | barred => exact .refl _
  | @interrupted j rest s hs _ _ =>
    obtain ⟨h, hl, hspared⟩ := (hj j List.mem_cons_self).runJob s
    exact .of_not_cancelled hs hl hspared
  | @next j rest s s' rs stopped hs _ _ ih =>
    obtain ⟨h, hl, hspared⟩ := (hj j List.mem_cons_self).runJob s
    exact (Heeds.of_not_cancelled hs hl hspared).trans
      (ih fun j' hj' => hj j' (List.mem_cons_of_mem _ hj'))

theorem heeds_run {jobs : List Job} (hj : ∀ j ∈ jobs, SparedJob j) (operation : Operation)
    (s : Session) : Heeds [] s (run operation jobs s).2 :=
  ((runs_runJobs jobs s).heeds hj).trans (heeds_tellAll _ _)

theorem heeds_save (w : Surroundings) (references : List String) (destination : String)
    (s : Session) : Heeds [] s (save w references destination s).2 := by
  obtain ⟨h, hl, rfl | ⟨hs, r, answer, q, -, rfl, hq⟩⟩ := save_leads w references destination s
  · exact .of_calls_nil hl rfl
  · exact .of_not_cancelled hs hl (spared_called hq.calls)

/-- A batch behind a raised token has no results; it is cancelled if there is something to do. -/
theorem run_of_cancelled {α : Type} (operation : Operation) (f : α → Job) (as : List α)
    {s : Session} (hs : s.cancelled = true) :
    (run operation (as.map f) s).1 = ⟨operation, [], !as.isEmpty⟩ ∧
      (run operation (as.map f) s).2.files = s.files := by
  obtain ⟨hr, ht, hstop⟩ := (runs_runJobs (as.map f) s).of_cancelled hs
  rw [List.isEmpty_map] at hstop
  refine ⟨?_, ?_⟩
  · rw [← hr, ← hstop]
    rfl
  · change (runJobs (as.map f) s).2.files = s.files
    rw [ht]

/-! ## Sequences of batches and saves -/

/-- What can be asked for with one token: a batch, with the observer of it, or a save. -/
inductive Errand
  | pull (observer : Observer) (set : ImageSet)
  | push (observer : Observer) (source destination : ImageSet) (credentials : Credentials)
  | delete (set : ImageSet)
  | save (references : List String) (destination : String)

namespace Errand

/-- What comes of an errand. -/
inductive Answer
  | report (r : Report)
  | saved (r : Saved)

/-- Does an errand. -/
def run (w : Surroundings) (o : Options) : Errand → Session → Answer × Session
  | .pull observer set, s => (pullAll { w with observer } set s).map .report id
  | .push observer source destination credentials, s =>
    (pushAll { w with observer } o source destination credentials s).map .report id
  | .delete set, s => (deleteAll w set s).map .report id
  | .save references destination, s => (Batch.save w references destination s).map .saved id

/-- What comes of an errand behind a raised token: a report without results, cancelled if there are
images, and for a save nothing but that it was cancelled. -/
def declined : Errand → Answer
  | .pull _ set => .report ⟨.pull, [], !set.images.isEmpty⟩
  | .push _ source destination _ =>
    .report ⟨.push, [], !(counterparts source destination).isEmpty⟩
  | .delete set => .report ⟨.delete, [], !set.images.isEmpty⟩
  | .save _ _ => .saved ⟨.error .cancelled, none⟩

/-- The session behind several errands, done in order. -/
def runAll (w : Surroundings) (o : Options) (es : List Errand) (s : Session) : Session :=
  es.foldl (fun s e => (e.run w o s).2) s

theorem heeds (w : Surroundings) (o : Options) (e : Errand) (s : Session) :
    Heeds [] s (e.run w o s).2 := by
  cases e with
  | pull observer set =>
    refine heeds_run (fun j hj => ?_) .pull s
    obtain ⟨i, -, rfl⟩ := List.mem_map.1 hj
    exact spared_pullImage _ i
  | push observer source destination credentials =>
    refine (heeds_tellAll s _).trans (heeds_run (fun j hj => ?_) .push _)
    obtain ⟨p, -, rfl⟩ := List.mem_map.1 hj
    exact spared_pushImage _ o credentials p.1 p.2
  | delete set =>
    refine heeds_run (fun j hj => ?_) .delete s
    obtain ⟨i, -, rfl⟩ := List.mem_map.1 hj
    exact spared_deleteImage w i
  | save references destination => exact heeds_save w references destination s

theorem heeds_runAll (w : Surroundings) (o : Options) :
    ∀ (es : List Errand) (s : Session), Heeds [] s (runAll w o es s)
  | [], s => .refl s
  | e :: es, s => (e.heeds w o s).trans (heeds_runAll w o es (e.run w o s).2)

/-- An errand behind a raised token is declined, and neither files nor the engine know of it. -/
theorem run_of_cancelled (w : Surroundings) (o : Options) (e : Errand) {s : Session}
    (hs : s.cancelled = true) : (e.run w o s).1 = e.declined ∧
      (e.run w o s).2.files = s.files ∧ (e.run w o s).2.requests = s.requests := by
  obtain ⟨h, hl, -, hc⟩ := e.heeds w o s
  have hreq : (e.run w o s).2.requests = s.requests := by
    rw [hl.requests, hc hs]
    exact List.append_nil _
  suffices h : (e.run w o s).1 = e.declined ∧ (e.run w o s).2.files = s.files from
    ⟨h.1, h.2, hreq⟩
  cases e with
  | pull observer set =>
    obtain ⟨hr, hf⟩ := Batch.run_of_cancelled .pull (pullImage { w with observer }) set.images hs
    exact ⟨congrArg Answer.report hr, hf⟩
  | push observer source destination credentials =>
    let told := (unpaired source destination).map fun i =>
      Emission.warn s!"No destination for image '{i.name}', skipping"
    obtain ⟨hr, hf⟩ := Batch.run_of_cancelled (s := s.tellAll told) .push
      (fun p => pushImage { w with observer } o credentials p.1 p.2) (pairs source destination) hs
    have hempty :
        (pairs source destination).isEmpty = (counterparts source destination).isEmpty := by
      rw [← map_snd_pairs, List.isEmpty_map]
    exact ⟨congrArg Answer.report (hempty ▸ hr), hf⟩
  | delete set =>
    obtain ⟨hr, hf⟩ := Batch.run_of_cancelled .delete (deleteImage w) set.images hs
    exact ⟨congrArg Answer.report hr, hf⟩
  | save references destination =>
    change Answer.saved (Batch.save w references destination s).1 = _ ∧
      (Batch.save w references destination s).2.files = _
    rw [save_of_cancelled w references destination hs]
    exact ⟨rfl, rfl⟩

end Errand

/-- **Cancellation**: over a whole sequence of batches and saves with one token, behind a raise of
the token at most one call is made, and it was pending when the token was raised; every errand
behind a raised token is declined, without a call and without a change to the files. -/
theorem errands_stop (w : Surroundings) (o : Options) (es : List Errand) (s : Session) :
    Heeds [] s (Errand.runAll w o es s) ∧
    ∀ done e rest, es = done ++ e :: rest → (Errand.runAll w o done s).cancelled = true →
      (e.run w o (Errand.runAll w o done s)).1 = e.declined ∧
      (e.run w o (Errand.runAll w o done s)).2.files = (Errand.runAll w o done s).files ∧
      (e.run w o (Errand.runAll w o done s)).2.requests = (Errand.runAll w o done s).requests :=
  ⟨Errand.heeds_runAll w o es s, fun _ e _ _ hs => e.run_of_cancelled w o hs⟩

end ImageRelay.Batch
