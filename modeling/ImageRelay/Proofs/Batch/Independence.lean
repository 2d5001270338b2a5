import ImageRelay.Proofs.Batch.Live

/-!
# Images of a batch are independent

If the answers of an engine to a call depend only on the call and on how often it was made before
(`Engine.Follows`), and the references of a batch are distinct, what comes of an image depends on
nothing but the answers to its own calls: the calls over other images do not count as the same.

* `Script.behind`: what a script still answers behind some requests.
* `Duty.entry`: the entry of an image whose calls are answered by a script.
* `Duty.results_eq`: the results of a batch are these entries, each of them as if the batch did not
  contain the images before it.
* `images_independent`: an image gets the same result in two batches that both contain it, with
  engines that agree on its calls; so also in a batch that contains it alone.
-/

set_option autoImplicit false

namespace ImageRelay

/-! ## Scripts -/

/-- A call without the header of a push: its operation and its references. -/
def Call.plain : Call → Call
  | .push reference _ => .push reference ""
  | c => c

/-- How often a call was made: the same operation with the same references. -/
def tally (c : Call) (past : List Request) : Nat := past.countP (·.call.plain = c.plain)

/-- The answer to each call, by how often it was made before. -/
abbrev Script : Type := (c : Call) → Nat → c.Answer

/-- The answer to a call with the token not raised depends on the call and on how often it was made
before. -/
def Engine.Follows (e : Engine) (f : Script) : Prop :=
  ∀ (past : List Request) (c : Call), (e past ⟨c, false⟩).answer = f c (tally c past)

/-- What is left of a script behind some requests. -/
def Script.behind (f : Script) (past : List Request) : Script := fun c n => f c (tally c past + n)

theorem tally_append (c : Call) (past new : List Request) :
    tally c (past ++ new) = tally c past + tally c new := List.countP_append

theorem tally_singleton (c : Call) (token : Bool) : tally c [⟨c, token⟩] = 1 := by
  simp [tally]

/-- A call that is made takes its first answer away. -/
theorem Script.behind_made (f : Script) (past : List Request) (c : Call) (n : Nat) :
    f.behind (past ++ [⟨c, false⟩]) c n = f.behind past c (n + 1) := by
  have htally : tally c (past ++ [⟨c, false⟩]) + n = tally c past + (n + 1) := by
    rw [tally_append, tally_singleton]
    omega
  rw [behind, behind, htally]

/-- Other calls leave the answers to a call as they are. -/
theorem Script.behind_append (f : Script) (past : List Request) {new : List Request} {c : Call}
    (h : ∀ r ∈ new, r.call.plain ≠ c.plain) (n : Nat) :
    f.behind (past ++ new) c n = f.behind past c n := by
  have hnone : tally c new = 0 := List.countP_eq_zero.2 fun r hr => by simpa using h r hr
  rw [behind, behind, tally_append, hnone, Nat.add_zero]

namespace Batch

/-! ## Entries -/

/-- Why a push with these answers fails, if `left` repetitions are left. -/
def pushFault? : (left : Nat) → (answers : Nat → Except Chain ProgressStream) → Option Chain
  | 0, answers => answerFault? (answers 0)
  | left + 1, answers =>
    match answerFault? (answers 0) with
    | none => none
    | some _ => pushFault? left fun n => answers (n + 1)

namespace Duty

/-- The entry of a pair of images whose calls are answered by a script. -/
def entry (o : Options) (f : Script) : Duty → Image × Image → ImageResult
  | pull _, p => pulled p.2 (f (.pull p.2.reference) 0)
  | delete _, p => removal p.2 (f (.remove p.2.reference) 0)
  | push _ _ c, p =>
    match f (.tag p.1.reference p.2.reference) 0 with
    | .error fault => resultOf p.2 .tag (.error (.engineCall .tag p.2.reference fault))
    | .ok () =>
      resultOf p.2 .push
        ((verdict .push p.2.reference
          (pushFault? o.retries (f (.push p.2.reference (headerOf c))))).map fun _ => .done)

/-- An entry depends on the answers to the calls over its pair only. -/
theorem entry_congr {o : Options} {f f' : Script} {d d' : Duty} {p : Image × Image}
    (hop : d'.operation = d.operation) (hcalls : d'.calls p = d.calls p)
    (h : ∀ c ∈ d.calls p, ∀ n, f c n = f' c n) : d.entry o f p = d'.entry o f' p := by
  cases d with
  | pull set =>
    cases d' with
    | pull set' => rw [entry, entry, h _ List.mem_cons_self]
    | push | delete => cases hop
  | delete set =>
    cases d' with
    | delete set' => rw [entry, entry, h _ List.mem_cons_self]
    | pull | push => cases hop
  | push source destination c =>
    cases d' with
    | push source' destination' c' =>
      have hheader : headerOf c' = headerOf c := by simpa [calls] using hcalls
      have hpush : f (.push p.2.reference (headerOf c)) = f' (.push p.2.reference (headerOf c)) :=
        funext (h _ (List.mem_cons_of_mem _ List.mem_cons_self))
      rw [entry, entry, hheader, h _ List.mem_cons_self, hpush]
    | pull | delete => cases hop

end Duty

/-! ## Jobs -/

theorem Tries.follows {w : Surroundings} {f : Script} (hf : w.engine.Follows f) {o : Options}
    {reference header : String} {left attempt : Nat} {s s' : Session}
    {r : Except TransferError Unit}
    (t : Tries w o reference header left attempt s r s') (hs : s'.cancelled = false) :
    ∃ n, Makes (List.replicate n (.push reference header)) s s' ∧
      r = verdict .push reference
        (pushFault? left (f.behind s.requests (.push reference header))) := by
  -- the answer to the first attempt is the first that the script has left
  have hfirst : ∀ past : List Request, (w.engine past ⟨.push reference header, false⟩).answer =
      f.behind past (.push reference header) 0 := fun past => hf past _
  induction t with
  | last =>
    obtain ⟨hresult, hmakes⟩ := tryPush_live w reference header _ hs
    rw [hfirst] at hresult
    exact ⟨1, hmakes, hresult⟩
  | @succeeded left attempt s hr =>
    obtain ⟨hresult, hmakes⟩ := tryPush_live w reference header _ hs
    rw [hfirst, hr] at hresult
    refine ⟨1, hmakes, ?_⟩
    rw [pushFault?]
    cases hfault : answerFault? (f.behind s.requests (.push reference header) 0) with
    | none => rfl
    | some source =>
      rw [hfault] at hresult
      cases hresult
  | barred hr hc =>
    rw [hs] at hc
    cases hc
  | @again left attempt s s' e r hr hc _ ih =>
    obtain ⟨hresult, hmakes⟩ := tryPush_live w reference header s hc
    obtain ⟨n, hrest, hrepeated⟩ := ih hs
    have hpast := hmakes.trans (makes_pause w (tryPush w reference header s).2
      (retryNotice o attempt e) (o.backoff.retryDelay attempt))
    refine ⟨n + 1, hpast.trans hrest, ?_⟩
    rw [hfirst, hr] at hresult
    rw [pushFault?]
    cases hfault : answerFault? (f.behind s.requests (.push reference header) 0) with
    | none =>
      rw [hfault] at hresult
      cases hresult
    | some source =>
      rw [Makes] at hpast
      rw [hrepeated, hpast]
      congr 2
      exact funext (f.behind_made s.requests _)

namespace Duty

variable {w : Surroundings} {f : Script} {o : Options} {d : Duty}

/-- Every call over a pair has the reference that is reported on. -/
def target : Call → String
  | .pull reference | .push reference _ | .remove reference => reference
  | .tag _ reference => reference
  | .save references => ", ".intercalate references

theorem target_of_mem_calls {p : Image × Image} {c : Call} (h : c ∈ d.calls p) :
    target c.plain = p.2.reference := by
  cases d with
  | pull | delete =>
    rw [List.mem_singleton.1 h]
    rfl
  | push =>
    rcases List.mem_cons.1 h with rfl | h
    · rfl
    · rw [List.mem_singleton.1 h]
      rfl

theorem job_follows (hf : w.engine.Follows f) (p : Image × Image) (s : Session)
    (hs : (d.job w o p s).2.cancelled = false) : ∃ cs, Makes cs s (d.job w o p s).2 ∧
      (d.job w o p s).1 = d.entry o (f.behind s.requests) p ∧ ∀ c ∈ cs, c ∈ d.calls p := by
  cases d with
  | pull set =>
    obtain ⟨hresult, hmakes⟩ := pullImage_live w s p.2 hs
    refine ⟨_, hmakes, ?_, fun c hc => hc⟩
    rw [job, hresult, hf]
    rfl
  | delete set =>
    obtain ⟨hresult, hmakes⟩ := deleteImage_live w s p.2 hs
    refine ⟨_, hmakes, ?_, fun c hc => hc⟩
    rw [job, hresult, hf]
    rfl
  | push source destination c =>
    rcases pushImage_live w s o c p.1 p.2 hs with
      ⟨fault, hfault, hresult, hmakes⟩ | ⟨hok, u, hu, hend, hresult, hback⟩
    · have htag : f.behind s.requests (.tag p.1.reference p.2.reference) 0 = .error fault :=
        (hf _ _).symm.trans hfault
      refine ⟨_, hmakes, ?_, fun c hc => ?_⟩
      · rw [job, hresult, entry, htag]
      · rw [List.mem_singleton.1 hc]
        exact List.mem_cons_self
    · have htag : f.behind s.requests (.tag p.1.reference p.2.reference) 0 = .ok () :=
        (hf _ _).symm.trans hok
      obtain ⟨n, hmakes, hpushed⟩ :=
        (tries_pushFrom w o p.2.reference (headerOf c) o.retries 0 u).follows hf hend
      -- the tag does not count as the push
      have hanswers : f.behind u.requests (.push p.2.reference (headerOf c)) =
          f.behind s.requests (.push p.2.reference (headerOf c)) := by
        rw [Makes] at hu
        rw [hu]
        refine funext (f.behind_append s.requests fun r hr => ?_)
        rw [List.mem_singleton.1 hr]
        exact fun h => by cases h
      refine ⟨_, (hu.trans hmakes).trans hback, ?_, fun c' hc => ?_⟩
      · rw [job, hresult, entry, htag, hpushed, hanswers]
      · rw [List.append_nil] at hc
        rcases List.mem_append.1 hc with hc | hc
        · rw [List.mem_singleton.1 hc]
          exact List.mem_cons_self
        · rw [List.eq_of_mem_replicate hc]
          exact List.mem_cons_of_mem _ List.mem_cons_self

/-! ## Batches -/

/-- The references of a batch are distinct. -/
def Distinct (d : Duty) : Prop := (d.images.map (·.reference)).Nodup

/-- The calls of the jobs before a job do not change its entry. -/
theorem course_follows {past : List Request} {ps : List (Image × Image)} {rs : List ImageResult}
    {cs : List Call}
    (h : Course (fun past p r cs => r = d.entry o (f.behind past) p ∧ ∀ c ∈ cs, c ∈ d.calls p)
      past ps rs cs) (hd : (ps.map fun p => p.2.reference).Nodup) :
    rs = ps.map (d.entry o (f.behind past)) := by
  induction h with
  | nil => rfl
  | @cons past p ps r rs cs cs' hq _ ih =>
    obtain ⟨hentry, hcalls⟩ := hq
    obtain ⟨hnew, hrest⟩ := List.nodup_cons.1 hd
    rw [hentry, ih hrest, List.map_cons]
    refine congrArg _ (List.map_congr_left fun q hq => entry_congr rfl rfl fun c hc n => ?_)
    -- a call of this job that counts as one over `q` would be about the reference of `q`
    refine f.behind_append past (fun r hr hplain => hnew ?_) n
    obtain ⟨c', hc', rfl⟩ := List.mem_map.1 hr
    have href : p.2.reference = q.2.reference := by
      rw [← target_of_mem_calls (hcalls c' hc'), hplain, target_of_mem_calls hc]
    change p.2.reference ∈ _
    rw [href]
    exact List.mem_map_of_mem hq

/-- The result of each image is what the answers to its own calls come to. -/
theorem results_eq (hf : w.engine.Follows f) (hd : d.Distinct) {s : Session}
    (hs : (d.run w o s).2.cancelled = false) :
    (d.run w o s).1.results = d.items.map (d.entry o (f.behind s.requests)) := by
  obtain ⟨cs, -, hcourse⟩ := Duty.live (Q := fun past p r cs =>
    r = d.entry o (f.behind past) p ∧ ∀ c ∈ cs, c ∈ d.calls p) (job_follows hf) hs
  refine course_follows hcourse ?_
  rw [Distinct, images, List.map_map] at hd
  exact hd

/-- A pair of a batch has this result in a report of the batch, and no other. -/
def Gives (d : Duty) (report : Report) (p : Image × Image) (r : ImageResult) : Prop :=
  ∀ r', (p, r') ∈ d.items.zip report.results ↔ r' = r

theorem gives_entry (hf : w.engine.Follows f) (hd : d.Distinct) {s : Session}
    (hs : (d.run w o s).2.cancelled = false) {p : Image × Image} (hp : p ∈ d.items) :
    d.Gives (d.run w o s).1 p (d.entry o (f.behind s.requests) p) := by
  intro r'
  rw [results_eq hf hd hs, ← List.map_prod_left_eq_zip, List.mem_map]
  constructor
  · rintro ⟨q, -, heq⟩
    obtain ⟨rfl, rfl⟩ := Prod.mk.inj heq
    rfl
  · rintro rfl
    exact ⟨p, hp, rfl⟩

/-! ## Batches of one pair -/

/-- The set of one image. -/
def single (i : Image) : ImageSet := ⟨[i], List.pairwise_singleton _ _⟩

/-- The batch that contains a pair alone. -/
def alone (p : Image × Image) : Duty → Duty
  | pull _ => .pull (single p.2)
  | push _ _ c => .push (single p.1) (single p.2) c
  | delete _ => .delete (single p.2)

theorem items_alone {p : Image × Image} (hp : p ∈ d.items) : (d.alone p).items = [p] := by
  cases d with
  | pull set | delete set =>
    obtain ⟨i, -, rfl⟩ := List.mem_map.1 hp
    rfl
  | push source destination c =>
    have hname := (mem_pairs.1 hp).2.2
    simp [alone, items, pairs, single, ImageSet.get?, hname]

theorem calls_alone (p q : Image × Image) : (d.alone p).calls q = d.calls q := by
  cases d <;> rfl

theorem distinct_alone {p : Image × Image} (hp : p ∈ d.items) : (d.alone p).Distinct := by
  rw [Distinct, images, items_alone hp]
  simp

end Duty

/-- What the batches of two engines have in common that both work on a pair. -/
structure Shares (f f' : Script) (past past' : List Request) (d d' : Duty) (p : Image × Image) :
    Prop where
  left : p ∈ d.items
  right : p ∈ d'.items
  operation : d'.operation = d.operation
  calls : d'.calls p = d.calls p
  answers : ∀ c ∈ d.calls p, ∀ n, f.behind past c n = f'.behind past' c n

/-- **Images are independent**: let the answers of engines depend on the calls and on how often they
were made before only, let references be distinct in each batch, and let no token be raised. Then an
image has in a batch the result that it has in the batch that contains it alone; and in any two
batches that it has the same calls in, with engines that give them the same answers, it has the same
result, whatever the other images are and whatever comes of them. -/
theorem images_independent {w w' : Surroundings} {f f' : Script} (hf : w.engine.Follows f)
    (hf' : w'.engine.Follows f') (o : Options) (d : Duty) (s s' : Session) (hd : d.Distinct)
    (hs : (d.run w o s).2.cancelled = false) :
    (∀ p ∈ d.items, s'.requests = s.requests → ((d.alone p).run w o s').2.cancelled = false →
      ∃ r, ((d.alone p).run w o s').1.results = [r] ∧ d.Gives (d.run w o s).1 p r) ∧
    (∀ d' p, Shares f f' s.requests s'.requests d d' p → d'.Distinct →
      (d'.run w' o s').2.cancelled = false →
      ∃ r, d.Gives (d.run w o s).1 p r ∧ d'.Gives (d'.run w' o s').1 p r) := by
  constructor
  · intro p hp hpast hend
    refine ⟨d.entry o (f.behind s.requests) p, ?_, Duty.gives_entry hf hd hs hp⟩
    rw [Duty.results_eq hf (Duty.distinct_alone hp) hend, Duty.items_alone hp, hpast]
    have hop : d.operation = (d.alone p).operation := by cases d <;> rfl
    exact congrArg (fun r => [r])
      (Duty.entry_congr hop (Duty.calls_alone p p).symm fun _ _ _ => rfl)
  · intro d' p h hd' hend
    refine ⟨d.entry o (f.behind s.requests) p, Duty.gives_entry hf hd hs h.left, ?_⟩
    rw [Duty.entry_congr h.operation h.calls h.answers]
    exact Duty.gives_entry hf' hd' hend h.right

/-- A script by which the first push under each reference is rejected, and all of one. -/
def flaky : Script
  | .push reference _, n =>
    if reference = "mirror.local/proxy:v1" ∨ n = 0 then .error (.root "busy") else .ok .done
  | .pull _, _ => .ok .done
  | .tag _ _, _ => .ok ()
  | .remove _, _ => .ok []
  | .save _, _ => .ok .eof

/-- A push of two images, of which one fails for good. -/
def flakyPush : Duty :=
  .push
    ⟨[⟨"conformance", "k8s.gcr.io", "conformance", "v1", by decide +kernel⟩,
      ⟨"proxy", "k8s.gcr.io", "proxy", "v1", by decide +kernel⟩], by decide +kernel⟩
    ⟨[⟨"conformance", "mirror.local", "conformance", "v1", by decide +kernel⟩,
      ⟨"proxy", "mirror.local", "proxy", "v1", by decide +kernel⟩], by decide +kernel⟩
    .anonymous

/-- An image that is pushed on the second attempt has the same result beside one that fails as it
has alone. -/
theorem flaky_push_independent :
    let w : Surroundings :=
      { engine := fun past now => { answer := flaky now.call (tally now.call past) }
        observer := .lines }
    let s : Session := { files := ⟨[], []⟩ }
    (flakyPush.run w { retries := 1 } s).1.failures = 1 ∧
    ∀ p ∈ flakyPush.items, ∃ r, ((flakyPush.alone p).run w { retries := 1 } s).1.results = [r] ∧
      flakyPush.Gives (flakyPush.run w { retries := 1 } s).1 p r := by
  intro w s
  have hf : w.engine.Follows flaky := fun _ _ => rfl
  refine ⟨by decide +kernel, fun p hp => ?_⟩
  have hd : (flakyPush.images.map (·.reference)).Nodup := by decide +kernel
  have hend : (flakyPush.run w { retries := 1 } s).2.cancelled = false := by decide +kernel
  have halone : ∀ p ∈ flakyPush.items,
      ((flakyPush.alone p).run w { retries := 1 } s).2.cancelled = false := by decide +kernel
  exact (images_independent hf hf { retries := 1 } flakyPush s s hd hend).1 p hp rfl (halone p hp)

end Batch

end ImageRelay
