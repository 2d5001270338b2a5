import ImageRelay.Proofs.Batch.Notices

/-!
# Batches whose token is never raised

Where the token is not raised in the end it was never raised, so every stream is read along its
live way, and what comes of an image is decided by the answers to its calls alone.

* `ProgressStream.liveFault?`: the last error on the live way through a stream.
* `tryPull_live`, `tryPush_live`, `framed_live`: attempts, and what is around them.
* `Runs.live`: the loop goes on to its end, each job on what the jobs before it have left.
-/

set_option autoImplicit false

namespace ImageRelay

/-- The last error on the way through a stream on which the token is never raised. -/
def ProgressStream.liveFault? : ProgressStream → Option Chain
  | .done => none
  | .item it rest => rest.liveFault?.or (fault? it)
  | .interrupt _ rest => rest.liveFault?
  | .poll live _ => live.liveFault?

/-- Why an attempt fails that is answered like this: its rejection, or the last error of the
stream. -/
def answerFault? : Except Chain ProgressStream → Option Chain
  | .error source => some source
  | .ok stream => stream.liveFault?

namespace Batch

open Moment

theorem Murmurs.not_cancelled {w : Surroundings} {s s' : Session} (m : Murmurs w s s')
    (hs : s'.cancelled = false) : s.cancelled = false := by
  obtain ⟨h, hl, -⟩ := m
  exact (hl.of_not_cancelled hs).1

/-! ## Attempts -/

theorem drain_live (w : Surroundings) (reference : String) :
    ∀ (stream : ProgressStream) (last : Option Chain) (s : Session),
      (drain w reference stream last s).2.cancelled = false →
        (drain w reference stream last s).1 = stream.liveFault?.or last
  | .done, _, _, _ => rfl
  | .item (.ok m) rest, last, s, hs => by
    rw [drain, drain_live w reference rest _ _ hs, ProgressStream.liveFault?, Option.or_assoc]
    rfl
  | .item (.error e) rest, last, s, hs => by
    rw [drain, drain_live w reference rest _ _ hs, ProgressStream.liveFault?, Option.or_assoc]
    rfl
  | .interrupt i rest, last, s, hs => by
    rw [drain, drain_live w reference rest last _ hs]
    rfl
  | .poll live cancelled, last, s, hs => by
    have hlive : s.cancelled = false := (murmurs_drain w reference _ last s).not_cancelled hs
    have heq : drain w reference (.poll live cancelled) last s = drain w reference live last s := by
      rw [drain, if_neg (by simp [hlive])]
    rw [heq] at hs ⊢
    exact drain_live w reference live last s hs

theorem settle_live (w : Surroundings) (operation : Operation) (reference : String)
    (answer : Except Chain ProgressStream) (s : Session)
    (hs : (settle w operation reference answer s).2.cancelled = false) :
    (settle w operation reference answer s).1 =
      verdict operation reference (answerFault? answer) := by
  cases answer with
  | error source => rfl
  | ok stream =>
    rw [settle_ok] at hs ⊢
    have hdrain := drain_live w reference stream none s hs
    rw [Option.or_none] at hdrain
    rw [hdrain]
    rfl

/-- From `s` to `s'` these calls are made, each with the token not raised. -/
def Makes (calls : List Call) (s s' : Session) : Prop :=
  s'.requests = s.requests ++ calls.map (⟨·, false⟩)

theorem Makes.trans {cs cs' : List Call} {s t u : Session} (a : Makes cs s t) (b : Makes cs' t u) :
    Makes (cs ++ cs') s u := by
  rw [Makes] at a b ⊢
  rw [b, a, List.map_append, List.append_assoc]

theorem Makes.requests_eq {s s' : Session} (m : Makes [] s s') : s'.requests = s.requests := by
  rw [Makes] at m
  rw [m, List.map_nil, List.append_nil]

theorem Makes.of_leads {s s' : Session} {h : List Moment} (l : s.Leads h s') (hc : calls h = []) :
    Makes [] s s' := by
  rw [Makes, l.requests, hc]
  rfl

/-- A call that is made with the token not raised is answered by the engine as such. -/
theorem request_live (w : Surroundings) (c : Call) {s : Session} (hs : s.cancelled = false) :
    (s.request w c).1 = (w.engine s.requests ⟨c, false⟩).answer ∧
      Makes [c] s (s.request w c).2 := by
  have hasked := Session.requests_request w c s
  rw [hs] at hasked
  refine ⟨?_, hasked⟩
  rw [← hs]
  rfl

theorem makes_observe (w : Surroundings) (s : Session) (e : Event) :
    Makes [] s (s.observe w e) := by
  obtain ⟨q, hq, hquiet⟩ := Session.leads_observe w s e
  exact .of_leads hq (by simp [hquiet.calls])

theorem makes_tellAll (s : Session) (es : List Emission) : Makes [] s (s.tellAll es) :=
  .of_leads (Session.leads_tellAll s es) (quiet_told es).calls

/-- No call is made between two attempts. -/
theorem makes_pause (w : Surroundings) (s : Session) (e : Emission) (delay : Duration) :
    Makes [] s ((s.tell e).wait w delay) := by
  obtain ⟨q, hq, hquiet⟩ := Session.leads_wait w delay (s.tell e)
  exact (makes_tellAll s [e]).trans (.of_leads hq (by simp [hquiet.calls]))

/-- No call is made while an answer is settled. -/
theorem leads_settle (w : Surroundings) (operation : Operation) (reference : String)
    (answer : Except Chain ProgressStream) (s : Session) :
    ∃ h, s.Leads h (settle w operation reference answer s).2 ∧ calls h = [] := by
  cases answer with
  | error source => exact ⟨[], .refl s, rfl⟩
  | ok stream =>
    obtain ⟨h, items, hl, -, hx, -⟩ := drain_leads w reference stream none s
    rw [settle_ok]
    refine ⟨h, hl, ?_⟩
    rw [← calls_exchange, hx, calls_append, ImageRelay.calls_readings]
    rfl

theorem makes_settle (w : Surroundings) (operation : Operation) (reference : String)
    (answer : Except Chain ProgressStream) (s : Session) :
    Makes [] s (settle w operation reference answer s).2 := by
  obtain ⟨h, hl, hcalls⟩ := leads_settle w operation reference answer s
  exact .of_leads hl hcalls

theorem attempt_live (w : Surroundings) (operation : Operation) (reference : String) (c : Call)
    (hand : c.Answer → Except Chain ProgressStream) (s : Session)
    (hs : (settle w operation reference (hand (s.request w c).1) (s.request w c).2).2.cancelled =
      false) :
    (settle w operation reference (hand (s.request w c).1) (s.request w c).2).1 =
        verdict operation reference (answerFault? (hand (w.engine s.requests ⟨c, false⟩).answer)) ∧
      Makes [c] s (settle w operation reference (hand (s.request w c).1) (s.request w c).2).2 := by
  have hcalled := (murmurs_settle w operation reference _ _).not_cancelled hs
  have hbefore := (murmurs_request w s c).not_cancelled hcalled
  obtain ⟨hanswer, hmakes⟩ := request_live w c hbefore
  have hsettled := settle_live w operation reference _ _ hs
  rw [hanswer] at hsettled
  refine ⟨?_, hmakes.trans (makes_settle w operation reference _ _)⟩
  rw [hanswer]
  exact hsettled

theorem tryPull_live (w : Surroundings) (reference : String) (s : Session)
    (hs : (tryPull w reference s).2.cancelled = false) :
    (tryPull w reference s).1 = verdict .pull reference
        (answerFault? (w.engine s.requests ⟨.pull reference, false⟩).answer) ∧
      Makes [.pull reference] s (tryPull w reference s).2 :=
  attempt_live w .pull reference (.pull reference) id s hs

theorem tryPush_live (w : Surroundings) (reference header : String) (s : Session)
    (hs : (tryPush w reference header s).2.cancelled = false) :
    (tryPush w reference header s).1 = verdict .push reference
        (answerFault? (w.engine s.requests ⟨.push reference header, false⟩).answer) ∧
      Makes [.push reference header] s (tryPush w reference header s).2 :=
  attempt_live w .push reference (.push reference header) id s hs

/-- A body in its frame is run behind the same requests. -/
theorem framed_live {w : Surroundings} {reference : String}
    {body : Session → Except TransferError Unit × Session} {s : Session}
    (hs : (framed w reference body s).2.cancelled = false) :
    ∃ t, Makes [] s t ∧ (body t).2.cancelled = false ∧
      (framed w reference body s).1 = (body t).1 ∧
      Makes [] (body t).2 (framed w reference body s).2 :=
  ⟨s.observe w (.begin reference), makes_observe w s _,
    (murmurs_observe w _ _).not_cancelled hs, rfl, makes_observe w _ _⟩

/-! ## Images -/

/-- The entry of an image whose pull is answered like this. -/
def pulled (i : Image) (answer : Except Chain ProgressStream) : ImageResult :=
  resultOf i .pull ((verdict .pull i.reference (answerFault? answer)).map fun _ => .done)

/-- The entry of an image whose removal is answered like this. -/
def removal (i : Image) : Except Chain (List Removed) → ImageResult
  | .ok items => resultOf i .delete (.ok (.removed items))
  | .error source => resultOf i .delete (.error (.engineCall .delete i.reference source))

section
variable (w : Surroundings) (s : Session)

theorem pullImage_live (i : Image) (hs : (pullImage w i s).2.cancelled = false) :
    (pullImage w i s).1 = pulled i (w.engine s.requests ⟨.pull i.reference, false⟩).answer ∧
      Makes [.pull i.reference] s (pullImage w i s).2 := by
  have hframed : (framed w i.reference (tryPull w i.reference) s).2.cancelled = false := hs
  obtain ⟨t, ht, hend, hr, hback⟩ := framed_live hframed
  obtain ⟨hresult, hmakes⟩ := tryPull_live w i.reference t hend
  rw [ht.requests_eq] at hresult
  refine ⟨?_, (ht.trans hmakes).trans hback⟩
  rw [pullImage_eq, hr, hresult]
  rfl

theorem deleteImage_live (i : Image) (hs : (deleteImage w i s).2.cancelled = false) :
    (deleteImage w i s).1 = removal i (w.engine s.requests ⟨.remove i.reference, false⟩).answer ∧
      Makes [.remove i.reference] s (deleteImage w i s).2 := by
  have hbefore := (murmurs_deleteImage w i s).not_cancelled hs
  obtain ⟨hanswer, hmakes⟩ := request_live w (.remove i.reference) hbefore
  rw [← hanswer]
  unfold deleteImage
  split
  · rename_i ht
    rw [ht] at hmakes ⊢
    exact ⟨rfl, hmakes.trans (makes_tellAll _ _)⟩
  · rename_i ht
    rw [ht] at hmakes ⊢
    exact ⟨rfl, hmakes⟩

/-- An image whose tag is rejected is done; behind a tag that is accepted it is pushed. -/
theorem pushImage_live (o : Options) (c : Credentials) (i t : Image)
    (hs : (pushImage w o c i t s).2.cancelled = false) :
    (∃ fault, (w.engine s.requests ⟨.tag i.reference t.reference, false⟩).answer = .error fault ∧
      (pushImage w o c i t s).1 = resultOf t .tag (.error (.engineCall .tag t.reference fault)) ∧
      Makes [.tag i.reference t.reference] s (pushImage w o c i t s).2) ∨
    ((w.engine s.requests ⟨.tag i.reference t.reference, false⟩).answer = .ok () ∧
      ∃ u, Makes [.tag i.reference t.reference] s u ∧
        (pushFrom w o t.reference (headerOf c) o.retries 0 u).2.cancelled = false ∧
        (pushImage w o c i t s).1 = resultOf t .push
          ((pushFrom w o t.reference (headerOf c) o.retries 0 u).1.map fun _ => .done) ∧
        Makes [] (pushFrom w o t.reference (headerOf c) o.retries 0 u).2
          (pushImage w o c i t s).2) := by
  have hbefore := (murmurs_parts w o).job (.push .empty .empty c) (i, t) s |>.not_cancelled hs
  obtain ⟨hanswer, hmakes⟩ := request_live w (.tag i.reference t.reference) hbefore
  rw [← hanswer]
  cases htag : (s.request w (.tag i.reference t.reference)).1 with
  | error fault =>
    have heq := pushImage_of_error w o c i t s htag
    exact .inl ⟨fault, rfl, congrArg Prod.fst heq, heq ▸ hmakes⟩
  | ok =>
    have heq := pushImage_of_ok w o c i t s htag
    rw [heq] at hs ⊢
    obtain ⟨u, hu, hend, hr, hback⟩ := framed_live hs
    exact .inr ⟨rfl, u, hmakes.trans hu, hend, by rw [hr], hback⟩

end

/-! ## Batches -/

/-- The items `as` are done one after the other, the first of them behind the requests `past`; they
give the results `rs` and make the calls `cs`, and each of them satisfies `Q` with its part. -/
inductive Course {α : Type} (Q : List Request → α → ImageResult → List Call → Prop) :
    List Request → List α → List ImageResult → List Call → Prop
  | nil {past : List Request} : Course Q past [] [] []
  | cons {past : List Request} {a : α} {as : List α} {r : ImageResult} {rs : List ImageResult}
      {cs cs' : List Call} (h : Q past a r cs)
      (hrest : Course Q (past ++ cs.map (⟨·, false⟩)) as rs cs') :
      Course Q past (a :: as) (r :: rs) (cs ++ cs')

theorem Runs.leads {α : Type} {w : Surroundings} {f : α → Job} (hf : ∀ a s, Murmurs w s (f a s).2)
    {as : List α} {s s' : Session} {rs : List ImageResult} {stopped : Bool}
    (r : Runs (as.map f) s rs stopped s') : ∃ h, s.Leads h s' := by
  obtain ⟨visits, -, -, hl, -⟩ := r.visits (P := fun _ _ _ => True) fun a s _ => by
    obtain ⟨h, hl, -⟩ := hf a s
    obtain ⟨told, hl', -⟩ := runJob_leads hl
    exact ⟨_, hl', trivial⟩
  exact ⟨_, hl⟩

/-- A batch whose token is not raised in the end goes on to the end of its items. -/
theorem Runs.live {α : Type} {w : Surroundings} {f : α → Job}
    {Q : List Request → α → ImageResult → List Call → Prop} (hf : ∀ a s, Murmurs w s (f a s).2)
    (hQ : ∀ a s, (f a s).2.cancelled = false →
      ∃ cs, Makes cs s (f a s).2 ∧ Q s.requests a (f a s).1 cs) :
    ∀ {as : List α} {s s' : Session} {rs : List ImageResult} {stopped : Bool},
      Runs (as.map f) s rs stopped s' → s'.cancelled = false →
        ∃ cs, Makes cs s s' ∧ Course Q s.requests as rs cs
  | [], s, _, _, _, .done _, _ => ⟨[], .of_leads (.refl s) rfl, .nil⟩
  | _ :: _, _, _, _, _, .barred hc, hs => by
    rw [hc] at hs
    cases hs
  | _ :: _, _, _, _, _, .interrupted _ _ hc, hs => by
    rw [hc] at hs
    cases hs
  | a :: as, s, s', _, _, .next _ _ hrest, hs => by
    -- the other jobs do not take the token back, so it was not raised behind this one
    obtain ⟨h, hl⟩ := hrest.leads hf
    obtain ⟨cs, hmakes, hq⟩ := hQ a s (hl.of_not_cancelled hs).1
    obtain ⟨cs', hmakes', hcourse⟩ := Runs.live hf hQ hrest hs
    have hjob : Makes cs s (runJob (f a) s).2 := hmakes
    rw [hjob] at hcourse
    exact ⟨cs ++ cs', hjob.trans hmakes', .cons hq hcourse⟩

theorem Duty.leads (w : Surroundings) (o : Options) (d : Duty) (s : Session) :
    ∃ h, s.Leads h (d.run w o s).2 := by
  rw [d.run_eq]
  obtain ⟨h, hl⟩ := (runs_runJobs (d.items.map (d.job w o)) (s.tellAll d.opening)).leads
    ((murmurs_parts w o).job d)
  exact ⟨_, ((Session.leads_tellAll s d.opening).trans hl).trans (Session.leads_tellAll _ _)⟩

/-- The jobs of a batch whose token is not raised in the end, and the results and the calls of the
batch. -/
theorem Duty.live {w : Surroundings} {o : Options} {d : Duty}
    {Q : List Request → Image × Image → ImageResult → List Call → Prop}
    (hQ : ∀ p s, (d.job w o p s).2.cancelled = false →
      ∃ cs, Makes cs s (d.job w o p s).2 ∧ Q s.requests p (d.job w o p s).1 cs)
    {s : Session} (hs : (d.run w o s).2.cancelled = false) :
    ∃ cs, Makes cs s (d.run w o s).2 ∧
      Course Q s.requests d.items (d.run w o s).1.results cs := by
  rw [d.run_eq] at hs ⊢
  obtain ⟨cs, hmakes, hcourse⟩ :=
    (runs_runJobs (d.items.map (d.job w o)) (s.tellAll d.opening)).live
      ((murmurs_parts w o).job d) hQ hs
  exact ⟨cs, hmakes, hcourse⟩

end Batch

end ImageRelay
