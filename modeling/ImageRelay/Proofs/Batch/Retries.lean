import ImageRelay.Proofs.Batch.Attempts
import Mathlib.Algebra.Group.Nat.Defs
import Mathlib.Order.Bounds.Defs

/-!
# How often a push is repeated

`trial k` is what attempt number `k` of a push comes to, counted from zero, if every failed attempt
before it is repeated. A push ends with the first of these that is `Final`: it succeeds, the token
is raised behind it, or it is the last that the options allow (`pushFrom_eq_trial`).

`Repeats n h r`: the history `h` is that of `n + 1` attempts with one header. Between two of them
the failed one is told, and there is a wait. `Repeats.calls_eq` and `Repeats.waits_eq` count both.
The waits double up to a limit and never decrease (`Duration.retryDelay_mono`).
-/

set_option autoImplicit false

namespace ImageRelay

/-! ## Waits before repeated attempts -/

namespace Duration

theorem retryFactor_eq (attempt : Nat) : retryFactor attempt = min (2 ^ attempt) (2 ^ 32 - 1) := by
  unfold retryFactor
  rw [Nat.pow_eq]
  split
  · rename_i h
    have hpow : 2 ^ attempt ≤ 2 ^ 31 := Nat.pow_le_pow_right (by decide) (by omega)
    omega
  · rename_i h
    have hpow : 2 ^ 32 ≤ 2 ^ attempt := Nat.pow_le_pow_right (by decide) (by omega)
    have hsize : UInt32.size = 2 ^ 32 := rfl
    omega

theorem retryFactor_mono {a b : Nat} (h : a ≤ b) : retryFactor a ≤ retryFactor b := by
  have hpow : 2 ^ a ≤ 2 ^ b := Nat.pow_le_pow_right (by decide) h
  rw [retryFactor_eq, retryFactor_eq]
  omega

theorem longest_eq : longest = 2 ^ 64 * 10 ^ 9 - 1 := rfl

theorem nanoseconds_retryDelay (d : Duration) (attempt : Nat) :
    (d.retryDelay attempt).nanoseconds =
      min (d.nanoseconds * min (2 ^ attempt) (2 ^ 32 - 1)) (2 ^ 64 * 10 ^ 9 - 1) := by
  rw [retryDelay, retryFactor_eq, longest_eq]

theorem retryDelay_mono (d : Duration) {a b : Nat} (h : a ≤ b) :
    (d.retryDelay a).nanoseconds ≤ (d.retryDelay b).nanoseconds := by
  have hfactor := Nat.mul_le_mul_left d.nanoseconds (retryFactor_mono h)
  unfold retryDelay
  dsimp only
  omega

end Duration

namespace Moment

/-- The length of a wait. -/
@[simp] def wait? : Moment → Option Duration
  | waited delay => some delay
  | called _ _ | read _ | ended | seen _ | raised _ | told _ => none

/-- The waits of a history. -/
def waits (h : List Moment) : List Duration := h.filterMap wait?

@[simp] theorem waits_nil : waits [] = [] := rfl

@[simp] theorem waits_cons (m : Moment) (h : List Moment) :
    waits (m :: h) = m.wait?.toList ++ waits h := by
  cases m <;> rfl

@[simp] theorem waits_append (h h' : List Moment) : waits (h ++ h') = waits h ++ waits h' :=
  List.filterMap_append

theorem Quiet.waits {h : List Moment} (q : Quiet h) : waits h = [] := by
  induction h with
  | nil => rfl
  | cons m h ih => cases m <;> simp_all [Quiet]

end Moment

namespace Batch

open Moment

/-! ## Attempts do not wait -/

/-- From `s` to `s'` nothing is waited for. -/
def Prompt (s s' : Session) : Prop := ∃ h, s.Leads h s' ∧ waits h = []

theorem Prompt.trans {s t u : Session} (a : Prompt s t) (b : Prompt t u) : Prompt s u := by
  obtain ⟨h, hl, ha⟩ := a
  obtain ⟨h', hl', hb⟩ := b
  exact ⟨h ++ h', hl.trans hl', by rw [waits_append, ha, hb, List.append_nil]⟩

theorem prompt_request (w : Surroundings) (c : Call) (s : Session) :
    Prompt s (s.request w c).2 := by
  obtain ⟨h, hl, hq⟩ := Session.leads_request w c s
  exact ⟨_, hl, by simp [hq.waits]⟩

theorem prompt_observe (w : Surroundings) (e : Event) (s : Session) :
    Prompt s (s.observe w e) := by
  obtain ⟨h, hl, hq⟩ := Session.leads_observe w s e
  exact ⟨_, hl, by simp [hq.waits]⟩

theorem prompt_interrupt (i : Interrupt) (s : Session) : Prompt s (s.interrupt i) :=
  ⟨_, Session.leads_interrupt s i, (quiet_raised i _).waits⟩

theorem prompt_read (item : Except Chain Message) (s : Session) :
    Prompt s (s.record (.read item)) :=
  ⟨_, Session.leads_read s item, rfl⟩

theorem prompt_drain (w : Surroundings) (reference : String) :
    ∀ (stream : ProgressStream) (last : Option Chain) (s : Session),
      Prompt s (drain w reference stream last s).2
  | .done, _, s => ⟨_, Session.leads_ended s, rfl⟩
  | .item (.ok m) rest, last, s => by
    have hitem := (prompt_read (.ok m) s).trans (prompt_observe w (.message reference m) _)
    exact hitem.trans (prompt_drain w reference rest _ _)
  | .item (.error e) rest, last, s =>
    (prompt_read (.error e) s).trans (prompt_drain w reference rest _ _)
  | .interrupt i rest, last, s =>
    (prompt_interrupt i s).trans (prompt_drain w reference rest last _)
  | .poll live cancelled, last, s => by
    rw [drain]
    split
    · exact prompt_drain w reference cancelled last s
    · exact prompt_drain w reference live last s

theorem prompt_tryPush (w : Surroundings) (reference header : String) (s : Session) :
    Prompt s (tryPush w reference header s).2 := by
  have hcall := prompt_request w (.push reference header) s
  change Prompt s (settle w .push reference (s.request w (.push reference header)).1
    (s.request w (.push reference header)).2).2
  cases (s.request w (.push reference header)).1 with
  | error source => exact hcall
  | ok stream =>
    rw [settle_ok]
    exact hcall.trans (prompt_drain w reference stream none _)

/-! ## Trials -/

section
variable (w : Surroundings) (o : Options) (reference header : String)

/-- What is done between failed attempt number `k` and the next one. -/
def pause (k : Nat) (e : TransferError) (s : Session) : Session :=
  (s.tell (retryNotice o k e)).wait w (o.backoff.retryDelay k)

/-- Attempt number `k` behind `attempt` failed ones, if every failed one on the way to it is
repeated; nothing follows one that succeeds. -/
def trial : (k attempt : Nat) → Session → Except TransferError Unit × Session
  | 0, _, s => tryPush w reference header s
  | k + 1, attempt, s =>
    match tryPush w reference header s with
    | (.ok (), t) => (.ok (), t)
    | (.error e, t) => trial k (attempt + 1) (pause w o attempt e t)

/-- Attempt number `k` is not repeated if `left` repetitions are allowed: it succeeds, the token is
raised behind it, or it is the last one. -/
def Final (left attempt : Nat) (s : Session) (k : Nat) : Prop :=
  (trial w o reference header k attempt s).1 = .ok () ∨
    (trial w o reference header k attempt s).2.cancelled = true ∨ k = left

end

section
variable {w : Surroundings} {o : Options} {reference header : String}

/-- The first attempt alone. -/
theorem isLeast_zero {left attempt : Nat} {s : Session}
    (h : Final w o reference header left attempt s 0) :
    IsLeast {k | Final w o reference header left attempt s k} 0 :=
  ⟨h, fun k _ => Nat.zero_le k⟩

theorem trial_succ_of_error {attempt : Nat} {s t : Session} {e : TransferError}
    (h : tryPush w reference header s = (.error e, t)) (k : Nat) :
    trial w o reference header (k + 1) attempt s =
      trial w o reference header k (attempt + 1) (pause w o attempt e t) := by
  rw [trial, h]

/-- Behind a first attempt that is repeated, the others are final as they are without it. -/
theorem final_succ_iff {left attempt : Nat} {s t : Session} {e : TransferError}
    (h : tryPush w reference header s = (.error e, t)) (k : Nat) :
    Final w o reference header (left + 1) attempt s (k + 1) ↔
      Final w o reference header left (attempt + 1) (pause w o attempt e t) k := by
  unfold Final
  rw [trial_succ_of_error h, Nat.add_right_cancel_iff]

/-- A push comes to its first final trial. -/
theorem pushFrom_eq_trial : ∀ (left attempt : Nat) (s : Session), ∃ n,
    IsLeast {k | Final w o reference header left attempt s k} n ∧
      pushFrom w o reference header left attempt s = trial w o reference header n attempt s
  | 0, attempt, s => ⟨0, isLeast_zero (.inr (.inr rfl)), rfl⟩
  | left + 1, attempt, s => by
    rw [pushFrom]
    split
    · rename_i t ht
      have hfinal : Final w o reference header (left + 1) attempt s 0 := .inl (by rw [trial, ht])
      exact ⟨0, isLeast_zero hfinal, by rw [trial, ht]⟩
    · rename_i e t ht
      split
      · rename_i hc
        have hfinal : Final w o reference header (left + 1) attempt s 0 :=
          .inr (.inl (by rw [trial, ht]; exact hc))
        exact ⟨0, isLeast_zero hfinal, by rw [trial, ht]⟩
      · rename_i hc
        obtain ⟨n, ⟨hn, hleast⟩, heq⟩ :=
          pushFrom_eq_trial left (attempt + 1) (pause w o attempt e t)
        refine ⟨n + 1, ⟨(final_succ_iff ht n).2 hn, fun k hk => ?_⟩, ?_⟩
        · cases k with
          | zero =>
            -- the first attempt has failed, the token is not raised, and more are allowed
            rcases hk with hk | hk | hk
            · rw [trial, ht] at hk
              cases hk
            · rw [trial, ht] at hk
              exact absurd hk hc
            · cases hk
          | succ k =>
            have hle := hleast ((final_succ_iff ht k).1 hk)
            omega
        · rw [trial_succ_of_error ht]
          exact heq

end

/-! ## Histories of repeated pushes -/

section
variable (o : Options) (reference header : String)

/-- The history of one attempt at a push: one call with the header, with which its stream is read to
the end, and no wait. -/
structure Attempted (r : Except TransferError Unit) (h : List Moment) (a : Attempt) : Prop where
  exchange : exchange h = a.moments reference
  call : a.request.call = .push reference header
  complete : a.Complete
  result : r = verdict .push reference a.error?
  waits : waits h = []

/-- The history of a push that is repeated `n` times (module doc). -/
inductive Repeats : (attempt n : Nat) → Except TransferError Unit → List Moment → Prop
  | once {attempt : Nat} {r : Except TransferError Unit} {h : List Moment} {a : Attempt}
      (ha : Attempted reference header r h a) : Repeats attempt 0 r h
  | again {attempt n : Nat} {e : TransferError} {r : Except TransferError Unit}
      {h q h' : List Moment} {a : Attempt} (ha : Attempted reference header (.error e) h a)
      (hq : Quiet q) (hr : Repeats (attempt + 1) n r h') :
      Repeats attempt (n + 1) r
        (h ++ .told (.warn (e.message ++ "; retrying in " ++ (o.backoff.retryDelay attempt).text ++
          " (" ++ toString (attempt + 1) ++ "/" ++ toString o.retries ++ ")")) ::
          .waited (o.backoff.retryDelay attempt) :: q ++ h')

end

section
variable {w : Surroundings} {o : Options} {reference header : String}

theorem tryPush_attempted (w : Surroundings) (reference header : String) (s : Session) :
    ∃ h a, s.Leads h (tryPush w reference header s).2 ∧
      Attempted reference header (tryPush w reference header s).1 h a := by
  obtain ⟨h, a, hl, hx, hcomplete, hreq, hv⟩ := tryPush_leads w reference header s
  obtain ⟨h', hl', hwaits⟩ := prompt_tryPush w reference header s
  -- both are the history behind that of `s`
  obtain rfl : _ = h' := List.append_cancel_left (hl.history.symm.trans hl'.history)
  refine ⟨_, a, hl, ?_, by rw [hreq], hcomplete, hv, hwaits⟩
  simp [Attempt.moments, hx]

theorem retryNotice_eq (o : Options) (k : Nat) (e : TransferError) : retryNotice o k e =
    .warn (e.message ++ "; retrying in " ++ (o.backoff.retryDelay k).text ++
      " (" ++ toString (k + 1) ++ "/" ++ toString o.retries ++ ")") := by
  have hjoin (x : String) : " " ++ ("(" ++ x) = " (" ++ x := by rw [← String.append_assoc]; rfl
  simp only [retryNotice, ToString.toString, String.append_assoc, hjoin]

theorem leads_pause (w : Surroundings) (o : Options) (k : Nat) (e : TransferError) (s : Session) :
    ∃ q, Quiet q ∧ s.Leads (.told (retryNotice o k e) :: .waited (o.backoff.retryDelay k) :: q)
      (pause w o k e s) := by
  obtain ⟨q, hq, hquiet⟩ := Session.leads_wait w (o.backoff.retryDelay k)
    (s.tell (retryNotice o k e))
  exact ⟨q, hquiet, (Session.leads_tellAll s [retryNotice o k e]).trans hq⟩

/-- The history of a trial, if all attempts before it have failed. -/
theorem trial_leads : ∀ (n attempt : Nat) (s : Session),
    (∀ k < n, (trial w o reference header k attempt s).1 ≠ .ok ()) →
    ∃ h, s.Leads h (trial w o reference header n attempt s).2 ∧
      Repeats o reference header attempt n (trial w o reference header n attempt s).1 h
  | 0, attempt, s, _ => by
    obtain ⟨h, a, hl, ha⟩ := tryPush_attempted w reference header s
    exact ⟨h, hl, .once ha⟩
  | n + 1, attempt, s, hfail => by
    obtain ⟨h, a, hl, ha⟩ := tryPush_attempted w reference header s
    have hfirst := hfail 0 (Nat.succ_pos n)
    rw [trial] at hfirst
    cases ht : tryPush w reference header s with
    | mk r t =>
      rw [ht] at hl ha hfirst
      cases r with
      | ok => exact absurd rfl hfirst
      | error e =>
        have hrest : ∀ k < n,
            (trial w o reference header k (attempt + 1) (pause w o attempt e t)).1 ≠ .ok () := by
          intro k hk
          have hnext := hfail (k + 1) (by omega)
          rwa [trial_succ_of_error ht] at hnext
        obtain ⟨q, hq, hpause⟩ := leads_pause w o attempt e t
        rw [retryNotice_eq] at hpause
        obtain ⟨h', hl', hr⟩ := trial_leads n (attempt + 1) (pause w o attempt e t) hrest
        rw [trial_succ_of_error ht]
        exact ⟨_, (hl.trans hpause).trans hl', .again ha hq hr⟩

namespace Repeats

variable {attempt n : Nat} {r : Except TransferError Unit} {h : List Moment}

theorem calls_eq (p : Repeats o reference header attempt n r h) :
    (calls h).map (·.call) = List.replicate (n + 1) (.push reference header) := by
  have hone {r : Except TransferError Unit} {h : List Moment} {a : Attempt}
      (ha : Attempted reference header r h a) :
      (calls h).map (·.call) = [.push reference header] := by
    rw [← calls_exchange, ha.exchange]
    simp [Attempt.moments, Attempt.calls_readings, ha.call]
  induction p with
  | once ha => exact hone ha
  | again ha hq _ ih =>
    simp only [calls_append, calls_cons, request?, Option.toList_none, List.nil_append, hq.calls,
      List.cons_append, List.map_append, hone ha, ih]
    rfl

theorem waits_eq (p : Repeats o reference header attempt n r h) :
    waits h = (List.range' attempt n).map o.backoff.retryDelay := by
  induction p with
  | once ha => exact ha.waits
  | again ha hq _ ih =>
    simp only [waits_append, waits_cons, wait?, Option.toList_none, Option.toList_some,
      List.nil_append, List.cons_append, hq.waits, ha.waits, ih, List.range'_succ, List.map_cons]

end Repeats

end

/-- **How often a push is repeated**: a push ends with its first attempt that succeeds, behind which
the token is raised, or that is the last allowed, and comes to what this attempt comes to. All
attempts have the same header. Before each repetition the failed attempt is told, with its error and
the number of the repetition, and there is a wait; the waits double up to a factor of 2³² - 1 and to
the longest span, which is one nanosecond less than 2⁶⁴ seconds, and never decrease. -/
theorem push_repeats (w : Surroundings) (o : Options) (reference header : String) (s : Session) :
    (∃ n h, IsLeast {k | Final w o reference header o.retries 0 s k} n ∧ n ≤ o.retries ∧
      pushFrom w o reference header o.retries 0 s = trial w o reference header n 0 s ∧
      s.Leads h (pushFrom w o reference header o.retries 0 s).2 ∧
      Repeats o reference header 0 n (pushFrom w o reference header o.retries 0 s).1 h ∧
      (calls h).map (·.call) = List.replicate (n + 1) (.push reference header) ∧
      waits h = (List.range n).map o.backoff.retryDelay) ∧
    (∀ k, (o.backoff.retryDelay k).nanoseconds =
      min (o.backoff.nanoseconds * min (2 ^ k) (2 ^ 32 - 1)) (2 ^ 64 * 10 ^ 9 - 1)) ∧
    ∀ k l, k ≤ l →
      (o.backoff.retryDelay k).nanoseconds ≤ (o.backoff.retryDelay l).nanoseconds := by
  refine ⟨?_, o.backoff.nanoseconds_retryDelay, fun k l => o.backoff.retryDelay_mono⟩
  obtain ⟨n, hleast, heq⟩ := @pushFrom_eq_trial w o reference header o.retries 0 s
  have hfail : ∀ k < n, (trial w o reference header k 0 s).1 ≠ .ok () := by
    intro k hk hok
    have hle : n ≤ k := hleast.2 (.inl hok)
    omega
  obtain ⟨h, hl, hr⟩ := trial_leads n 0 s hfail
  have hlast : n ≤ o.retries := hleast.2 (.inr (.inr rfl))
  rw [heq]
  refine ⟨n, h, hleast, hlast, rfl, hl, hr, hr.calls_eq, ?_⟩
  rw [List.range_eq_range']
  exact hr.waits_eq

end Batch

end ImageRelay
