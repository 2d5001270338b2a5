import ImageRelay.Proofs.Batch.Exchange
import ImageRelay.Proofs.Credentials
import ImageRelay.Proofs.Registry.Sorted

/-!
# What a push batch asks of the engine

Over every image that is visited there is one tag, and behind a tag that succeeded one push or
several of the counterpart; nothing else is asked for.

* `Publishes`: the requests over one image with its counterpart, given all requests before.
* `mem_pairs`, `mem_unpaired`: which images have a counterpart.
* `headerOf_eq_empty_iff`, `ofHeader_headerOf`: the header that all pushes of a batch carry.
* `pushAll_publication`: the requests of a batch are those over its visits, in order, and images
  without a counterpart are told of before the first of them.
-/

set_option autoImplicit false

namespace ImageRelay.Batch

open Moment

/-! ## Counterparts -/

theorem mem_pairs {source destination : ImageSet} {i t : Image} :
    (i, t) ∈ pairs source destination ↔
      i ∈ source.images ∧ t ∈ destination.images ∧ t.name = i.name := by
  simp [pairs, ImageSet.get?_eq_some_iff]

theorem sorted_pairs (source destination : ImageSet) :
    (pairs source destination).Pairwise (·.1.name < ·.1.name) := by
  refine List.Pairwise.filterMap _ (fun i j hij p hp q hq => ?_) source.sorted
  obtain ⟨t, -, rfl⟩ := Option.map_eq_some_iff.1 hp
  obtain ⟨u, -, rfl⟩ := Option.map_eq_some_iff.1 hq
  exact hij

theorem mem_unpaired {source destination : ImageSet} {i : Image} :
    i ∈ unpaired source destination ↔
      i ∈ source.images ∧ ∀ t ∈ destination.images, t.name ≠ i.name := by
  simp [unpaired, ImageSet.get?_eq_none_iff]

/-- What is told of images without a counterpart. -/
def skipped (source destination : ImageSet) : List Emission :=
  (unpaired source destination).map fun i =>
    .warn s!"No destination for image '{i.name}', skipping"

/-! ## The header -/

theorem headerOf_eq_empty_iff (c : Credentials) : headerOf c = "" ↔ c.username = "" := by
  have hne := c.header_ne_empty
  rw [headerOf, ← Credentials.isAnonymous_iff]
  split <;> simp_all

/-- Every other header is read back as the credentials of the batch. -/
theorem ofHeader_headerOf {c : Credentials} (h : c.username ≠ "") :
    Credentials.ofHeader (headerOf c) = .ok c := by
  rw [headerOf, if_neg (mt Credentials.isAnonymous_iff.1 h), c.ofHeader_header]

/-! ## The requests over one image -/

/-- The requests over an image and its counterpart that were reported as `r`, behind the requests
`past`. -/
inductive Publishes (w : Surroundings) (o : Options) (header : String) (past : List Request)
    (p : Image × Image) (r : ImageResult) : List Request → Prop
  | untagged {fault : Chain}
      (ht : (w.engine past ⟨.tag p.1.reference p.2.reference, false⟩).answer = .error fault)
      (ho : r.operation = .tag) :
      Publishes w o header past p r [⟨.tag p.1.reference p.2.reference, false⟩]
  | tagged {pushes : List Request}
      (ht : (w.engine past ⟨.tag p.1.reference p.2.reference, false⟩).answer = .ok ())
      (ho : r.operation = .push) (hp : ∀ q ∈ pushes, q.call = .push p.2.reference header)
      (one_le : 1 ≤ pushes.length) (length_le : pushes.length ≤ o.retries + 1) :
      Publishes w o header past p r (⟨.tag p.1.reference p.2.reference, false⟩ :: pushes)

theorem calls_moments (reference : String) (as : List Attempt) :
    calls (as.flatMap (Attempt.moments reference)) = as.map (·.request) := by
  induction as with
  | nil => rfl
  | cons a as ih => simp [Attempt.moments, a.calls_readings, ih]

theorem PushHistory.calls_eq {reference header : String} {bound : Nat}
    {r : Except TransferError Unit} {h : List Moment} {failed : List Attempt} {a : Attempt}
    (p : PushHistory reference header bound r h failed a) :
    calls h = (failed ++ [a]).map (·.request) := by
  rw [← calls_exchange, p.exchange, calls_moments]

theorem pushImage_publishes (w : Surroundings) (o : Options) (c : Credentials) (i t : Image)
    (s : Session) (hs : s.cancelled = false) : ∃ h, s.Leads h (pushImage w o c i t s).2 ∧
      Publishes w o (headerOf c) s.requests (i, t) (pushImage w o c i t s).1 (calls h) := by
  obtain ⟨q, hq, hquiet⟩ := Session.leads_request w (.tag i.reference t.reference) s
  rw [hs] at hq
  have hanswer : (s.request w (.tag i.reference t.reference)).1 =
      (w.engine s.requests ⟨.tag i.reference t.reference, false⟩).answer := by
    rw [← hs]
    rfl
  cases htag : (s.request w (.tag i.reference t.reference)).1 with
  | error fault =>
    rw [pushImage_of_error w o c i t s htag]
    refine ⟨_, hq, ?_⟩
    rw [calls_cons, hquiet.calls]
    exact .untagged (hanswer.symm.trans htag) rfl
  | ok =>
    rw [pushImage_of_ok w o c i t s htag]
    obtain ⟨h', h, failed, a, hl', hp, hx'⟩ := framed_pushFrom_leads w o t.reference (headerOf c)
      o.retries 0 (s.request w (.tag i.reference t.reference)).2
    -- the observer is shown the begin and the end of the push, but is asked for no call
    have hcalls : calls h' = (failed ++ [a]).map (·.request) := by
      rw [← calls_exchange, hx', ← hp.calls_eq, calls_append, calls_cons, calls_exchange]
      exact List.append_nil _
    have hok : (w.engine s.requests ⟨.tag i.reference t.reference, false⟩).answer = .ok () :=
      hanswer.symm.trans htag
    have hlen : (failed ++ [a]).length ≤ o.retries + 1 := by
      have hle := hp.length_le
      rw [List.length_append, List.length_singleton]
      omega
    refine ⟨_, hq.trans hl', ?_⟩
    simp only [List.cons_append, calls_cons, calls_append, hquiet.calls, hcalls, request?,
      Option.toList_some, List.nil_append]
    refine .tagged hok rfl (fun r hr => ?_) ?_ ?_
    · obtain ⟨b, hb, rfl⟩ := List.mem_map.1 hr
      exact (hp.complete b hb).2
    · simp
    · rwa [List.length_map]

theorem runJob_publishes (w : Surroundings) (o : Options) (c : Credentials) (p : Image × Image)
    (s : Session) (hs : s.cancelled = false) :
    ∃ h, s.Leads h (runJob (pushImage w o c p.1 p.2) s).2 ∧
      Publishes w o (headerOf c) s.requests p (runJob (pushImage w o c p.1 p.2) s).1 (calls h) := by
  obtain ⟨h, hl, hp⟩ := pushImage_publishes w o c p.1 p.2 s hs
  obtain ⟨told, hl', hq⟩ := runJob_leads hl
  refine ⟨h ++ told, hl', ?_⟩
  rw [calls_append, hq.calls, List.append_nil]
  exact hp

/-! ## The requests of a batch -/

/-- The visits of a push batch from `s` to `s'` with this report. -/
structure Publications (w : Surroundings) (o : Options) (source destination : ImageSet)
    (c : Credentials) (s s' : Session) (r : Report) (visits : List (Visit (Image × Image))) :
    Prop where
  items : visits.map (·.item) = (pairs source destination).take visits.length
  results : visits.map (·.result) = r.results
  requests : s'.requests = s.requests ++ visits.flatMap fun v => calls v.history
  publishes : ∀ before v after, visits = before ++ v :: after →
    Publishes w o (headerOf c) (s.requests ++ before.flatMap fun u => calls u.history) v.item
      v.result (calls v.history)
  history : s'.history = s.history ++ (skipped source destination).map .told ++
    visits.flatMap (·.history) ++ [.told r.closing]

theorem pushAll_eq (w : Surroundings) (o : Options) (source destination : ImageSet)
    (c : Credentials) (s : Session) : pushAll w o source destination c s =
      run .push ((pairs source destination).map fun p => pushImage w o c p.1 p.2)
        (s.tellAll (skipped source destination)) := rfl

theorem publications_pushAll (w : Surroundings) (o : Options) (source destination : ImageSet)
    (c : Credentials) (s : Session) : ∃ visits, Publications w o source destination c s
      (pushAll w o source destination c s).2 (pushAll w o source destination c s).1 visits := by
  rw [pushAll_eq]
  have htold := Session.leads_tellAll s (skipped source destination)
  generalize s.tellAll (skipped source destination) = t at htold
  obtain ⟨visits, hi, hr, hl, hv⟩ :=
    (runs_runJobs ((pairs source destination).map fun p => pushImage w o c p.1 p.2) t).visits_from
      (P := fun past p r h => Publishes w o (headerOf c) past p r (calls h))
      (runJob_publishes w o c)
  have hreq : t.requests = s.requests := by
    rw [htold.requests, (quiet_told _).calls, List.append_nil]
  have hend := (htold.trans hl).trans (Session.leads_tellAll _ [(run .push
    ((pairs source destination).map fun p => pushImage w o c p.1 p.2) t).1.closing])
  have hlen := congrArg List.length hr
  rw [List.length_map] at hlen
  refine ⟨visits, hlen ▸ hi, hr, ?_, fun before v after heq => ?_, ?_⟩
  · refine hend.requests.trans ?_
    rw [calls_append, calls_append, (quiet_told _).calls, (quiet_told _).calls, calls_flatMap]
    simp
  · have hp := hv before v after heq
    rwa [hreq, calls_flatMap] at hp
  · refine hend.history.trans ?_
    simp [List.append_assoc]

/-- **What a push batch asks of the engine**: over the first of the pairs, in the order of their
names, there is a tag each, and behind a tag that succeeded from one push up to one more than the
retries, all with the one header of the credentials. Images without a counterpart are told of first,
in the order of their names, too. -/
theorem pushAll_publication (w : Surroundings) (o : Options) (source destination : ImageSet)
    (c : Credentials) (s : Session) :
    (∃ visits, Publications w o source destination c s (pushAll w o source destination c s).2
      (pushAll w o source destination c s).1 visits) ∧
    (pairs source destination).Pairwise (·.1.name < ·.1.name) ∧
    (∀ i t, (i, t) ∈ pairs source destination ↔
      i ∈ source.images ∧ t ∈ destination.images ∧ t.name = i.name) ∧
    (unpaired source destination).Pairwise (·.name < ·.name) ∧
    (∀ i, i ∈ unpaired source destination ↔
      i ∈ source.images ∧ ∀ t ∈ destination.images, t.name ≠ i.name) ∧
    (headerOf c = "" ↔ c.username = "") ∧
    (c.username ≠ "" → Credentials.ofHeader (headerOf c) = .ok c) :=
  ⟨publications_pushAll w o source destination c s, sorted_pairs source destination,
    fun _ _ => mem_pairs, source.sorted.filter _, fun _ => mem_unpaired, headerOf_eq_empty_iff c,
    ofHeader_headerOf⟩

end ImageRelay.Batch
