import ImageRelay.Batch.Run
import ImageRelay.Proofs.Session

/-!
# Attempts

An attempt is a call that an engine answers with a stream, and the reading of that stream to its
end.

* `ProgressStream.Reads`: the items that are met on the way through a whole stream. Where the stream
  looks at the token, the way depends on it.
* `attempt_leads`: what comes of an answer is its rejection or the last error of its stream
  (`Attempt.error?`), and every message is shown to the observer right after it was read.
* `Tries`, `tries_pushFrom`: the attempts of a push, as a relation with one rule for each way on.
* `Tries.leads`: a push is one attempt or several, of which all but the last have failed.
-/

set_option autoImplicit false

namespace ImageRelay

open Moment

/-! ## Reading a stream -/

/-- A way through a whole stream and the items on it. The token is raised at the start if `raised`
says so; a raised token stays raised, and behind an item the observer may raise it. -/
inductive ProgressStream.Reads :
    (raised : Bool) → ProgressStream → List (Except Chain Message) → Prop
  | done {raised : Bool} : Reads raised .done []
  | item {raised raised' : Bool} {it : Except Chain Message} {rest : ProgressStream}
      {items : List (Except Chain Message)} (hr : raised = true → raised' = true)
      (h : Reads raised' rest items) : Reads raised (.item it rest) (it :: items)
  | interrupt {raised : Bool} {i : Interrupt} {rest : ProgressStream}
      {items : List (Except Chain Message)} (h : Reads true rest items) :
      Reads raised (.interrupt i rest) items
  | poll {raised : Bool} {live cancelled : ProgressStream} {items : List (Except Chain Message)}
      (h : Reads raised (if raised then cancelled else live) items) :
      Reads raised (.poll live cancelled) items

/-- The error of an item: an error item, or the error field of a message. -/
def fault? : Except Chain Message → Option Chain
  | .ok m => m.error.map Chain.root
  | .error e => some e

/-- The last error among items. -/
def lastFault? (items : List (Except Chain Message)) : Option Chain :=
  (items.filterMap fault?).getLast?

/-- An item is read, and a message is shown to the observer. -/
def reading (reference : String) : Except Chain Message → List Moment
  | .ok m => [.read (.ok m), .seen (.message reference m)]
  | .error e => [.read (.error e)]

/-- Items are read one after the other. -/
def readings (reference : String) (items : List (Except Chain Message)) : List Moment :=
  items.flatMap (reading reference)

theorem calls_readings (reference : String) (items : List (Except Chain Message)) :
    calls (readings reference items) = [] := by
  induction items with
  | nil => rfl
  | cons it items ih => cases it <;> simpa [readings, reading] using ih

theorem items_readings (reference : String) (its : List (Except Chain Message)) :
    items (readings reference its) = its := by
  induction its with
  | nil => rfl
  | cons it its ih => cases it <;> simpa [readings, reading] using ih

theorem lastFault?_cons (it : Except Chain Message) (items : List (Except Chain Message)) :
    lastFault? (it :: items) = (lastFault? items).or (fault? it) := by
  unfold lastFault?
  cases h : fault? it with
  | none => simp [h]
  | some f => cases hl : (items.filterMap fault?).getLast? <;> simp [h, List.getLast?_cons, hl]

theorem isSome_lastFault?_iff {items : List (Except Chain Message)} :
    (lastFault? items).isSome = true ↔ ∃ it ∈ items, (fault? it).isSome = true := by
  rw [lastFault?, List.getLast?_isSome, ne_eq, List.filterMap_eq_nil_iff]
  simp [Option.isSome_iff_ne_none]

namespace Batch

/-- A stream is read to its end, and the last error of it stays. -/
theorem drain_leads (w : Surroundings) (reference : String) :
    ∀ (stream : ProgressStream) (last : Option Chain) (s : Session), ∃ h items,
      s.Leads h (drain w reference stream last s).2 ∧ stream.Reads s.cancelled items ∧
        exchange h = readings reference items ++ [.ended] ∧
        (drain w reference stream last s).1 = (lastFault? items).or last
  | .done, last, s => ⟨[.ended], [], Session.leads_ended s, .done, rfl, rfl⟩
  | .item (.ok m) rest, last, s => by
    have hl := Session.leads_read s (.ok m)
    obtain ⟨q, hq, hquiet⟩ := Session.leads_observe w (s.record (.read (.ok m)))
      (.message reference m)
    have hlq := hl.trans hq
    obtain ⟨h, items, hh, hr, hx, hf⟩ := drain_leads w reference rest
      ((m.error.map Chain.root).or last)
      ((s.record (.read (.ok m))).observe w (.message reference m))
    refine ⟨_, .ok m :: items, hlq.trans hh, .item hlq.cancelled_of hr, ?_, ?_⟩
    · simp [hquiet.exchange, hx, readings, reading]
    · rw [drain, hf, lastFault?_cons, Option.or_assoc]
      rfl
  | .item (.error e) rest, last, s => by
    have hl := Session.leads_read s (.error e)
    obtain ⟨h, items, hh, hr, hx, hf⟩ := drain_leads w reference rest (some e)
      (s.record (.read (.error e)))
    refine ⟨_, .error e :: items, hl.trans hh, .item hl.cancelled_of hr, ?_, ?_⟩
    · simp [hx, readings, reading]
    · rw [drain, hf, lastFault?_cons, Option.or_assoc]
      rfl
  | .interrupt i rest, last, s => by
    obtain ⟨h, items, hh, hr, hx, hf⟩ := drain_leads w reference rest last (s.interrupt i)
    refine ⟨_, items, (Session.leads_interrupt s i).trans hh, .interrupt hr, ?_, hf⟩
    simp [(quiet_told _).exchange, hx]
  | .poll live cancelled, last, s => by
    cases hs : s.cancelled with
    | true =>
      obtain ⟨h, items, hh, hr, hx, hf⟩ := drain_leads w reference cancelled last s
      rw [hs] at hr
      exact ⟨h, items, by simpa [drain, hs] using hh, .poll hr, hx, by simpa [drain, hs] using hf⟩
    | false =>
      obtain ⟨h, items, hh, hr, hx, hf⟩ := drain_leads w reference live last s
      rw [hs] at hr
      exact ⟨h, items, by simpa [drain, hs] using hh, .poll hr, hx, by simpa [drain, hs] using hf⟩

end Batch

/-! ## One attempt -/

/-- The stream that a call hands out, or why it is rejected; other calls hand out none. -/
def Call.stream? : (c : Call) → c.Answer → Option (Except Chain ProgressStream)
  | .pull _, a => some a
  | .push _ _, a => some a
  | .tag _ _, _ | .remove _, _ | .save _, _ => none

/-- A request, the answer to it, and the items that were read of the stream in it. -/
structure Attempt where
  request : Request
  answer : request.call.Answer
  items : List (Except Chain Message)

namespace Attempt

/-- The stream that was handed out, or why the call was rejected. -/
def stream? (a : Attempt) : Option (Except Chain ProgressStream) := a.request.call.stream? a.answer

/-- The items are those of a stream that was handed out, read to its end, and there are none of a
call that was rejected. -/
def Complete (a : Attempt) : Prop :=
  match a.stream? with
  | some (.ok stream) => ∃ raised, (a.request.cancelled = true → raised = true) ∧
      stream.Reads raised a.items
  | _ => a.items = []

/-- Why an attempt failed: its rejection, or the last error of its stream. -/
def error? (a : Attempt) : Option Chain :=
  match a.stream? with
  | some (.error source) => some source
  | _ => lastFault? a.items

/-- What is read in an attempt, up to the end of the stream. -/
def readings (reference : String) (a : Attempt) : List Moment :=
  match a.stream? with
  | some (.ok _) => ImageRelay.readings reference a.items ++ [.ended]
  | _ => []

/-- The exchange in an attempt. -/
def moments (reference : String) (a : Attempt) : List Moment :=
  .called a.request a.answer :: a.readings reference

theorem calls_readings (reference : String) (a : Attempt) : calls (a.readings reference) = [] := by
  unfold readings
  split
  · simp [ImageRelay.calls_readings]
  · rfl

/-- An attempt fails if its call is rejected, or if an error item or a message with an error is in
its stream. -/
def Fails (a : Attempt) : Prop :=
  (∃ source, a.stream? = some (.error source)) ∨ ∃ it ∈ a.items, (fault? it).isSome = true

/-- There is an error exactly if an attempt fails. -/
theorem isSome_error?_iff (a : Attempt) : a.error?.isSome = true ↔ a.Fails := by
  unfold error? Fails
  split
  · rename_i source hs
    simp [hs]
  · rename_i hs
    rw [isSome_lastFault?_iff]
    refine ⟨.inr, fun h => h.resolve_left fun ⟨source, h'⟩ => hs source h'⟩

end Attempt

namespace Batch

/-- What comes of an attempt with this error. -/
def verdict (operation : Operation) (reference : String) : Option Chain → Except TransferError Unit
  | none => .ok ()
  | some source => .error (.engineCall operation reference source)

theorem settle_ok (w : Surroundings) (operation : Operation) (reference : String)
    (stream : ProgressStream) (s : Session) :
    settle w operation reference (.ok stream) s =
      (verdict operation reference (drain w reference stream none s).1,
        (drain w reference stream none s).2) := by
  rw [settle]
  split <;> simp_all [verdict]

/-- A call that hands out a stream, made and settled, is an attempt. -/
theorem attempt_leads (w : Surroundings) (operation : Operation) (reference : String) (c : Call)
    (hand : c.Answer → Except Chain ProgressStream) (hc : ∀ a, c.stream? a = some (hand a))
    (s : Session) : ∃ (h : List Moment) (a : Attempt),
      s.Leads (.called a.request a.answer :: h)
        (settle w operation reference (hand (s.request w c).1) (s.request w c).2).2 ∧
      exchange h = a.readings reference ∧ a.Complete ∧ a.request = ⟨c, s.cancelled⟩ ∧
      (settle w operation reference (hand (s.request w c).1) (s.request w c).2).1 =
        verdict operation reference a.error? := by
  obtain ⟨q, hq, hquiet⟩ := Session.leads_request w c s
  have hs := hc (s.request w c).1
  generalize hand (s.request w c).1 = answer at hs
  cases answer with
  | error source =>
    refine ⟨q, ⟨⟨c, s.cancelled⟩, (s.request w c).1, []⟩, hq, ?_, ?_, rfl, ?_⟩
    · rw [hquiet.exchange, Attempt.readings, Attempt.stream?, hs]
    · rw [Attempt.Complete, Attempt.stream?, hs]
    · rw [Attempt.error?, Attempt.stream?, hs]
      rfl
  | ok stream =>
    obtain ⟨h, items, hh, hr, hx, hf⟩ := drain_leads w reference stream none (s.request w c).2
    refine ⟨q ++ h, ⟨⟨c, s.cancelled⟩, (s.request w c).1, items⟩, ?_, ?_, ?_, rfl, ?_⟩
    · rw [settle_ok]
      exact hq.trans hh
    · simp [hquiet.exchange, hx, Attempt.readings, Attempt.stream?, hs]
    · rw [Attempt.Complete, Attempt.stream?, hs]
      exact ⟨_, hq.cancelled_of, hr⟩
    · rw [settle_ok, Attempt.error?, Attempt.stream?, hs, hf, Option.or_none]

theorem tryPull_leads (w : Surroundings) (reference : String) (s : Session) :
    ∃ (h : List Moment) (a : Attempt),
      s.Leads (.called a.request a.answer :: h) (tryPull w reference s).2 ∧
      exchange h = a.readings reference ∧ a.Complete ∧
      a.request = ⟨.pull reference, s.cancelled⟩ ∧
      (tryPull w reference s).1 = verdict .pull reference a.error? :=
  attempt_leads w .pull reference (.pull reference) id (fun _ => rfl) s

/-! ## The attempts of a push -/

section
variable (w : Surroundings) (o : Options) (reference header : String)

/-- The attempts of a push, `left` more of which are allowed behind the next one. -/
inductive Tries : (left attempt : Nat) → Session → Except TransferError Unit → Session → Prop
  | last {attempt : Nat} {s : Session} :
      Tries 0 attempt s (tryPush w reference header s).1 (tryPush w reference header s).2
  | succeeded {left attempt : Nat} {s : Session} (hr : (tryPush w reference header s).1 = .ok ()) :
      Tries (left + 1) attempt s (.ok ()) (tryPush w reference header s).2
  | barred {left attempt : Nat} {s : Session} {e : TransferError}
      (hr : (tryPush w reference header s).1 = .error e)
      (hc : (tryPush w reference header s).2.cancelled = true) :
      Tries (left + 1) attempt s (.error e) (tryPush w reference header s).2
  | again {left attempt : Nat} {s s' : Session} {e : TransferError}
      {r : Except TransferError Unit} (hr : (tryPush w reference header s).1 = .error e)
      (hc : (tryPush w reference header s).2.cancelled = false)
      (h : Tries left (attempt + 1) (((tryPush w reference header s).2.tell
        (retryNotice o attempt e)).wait w (o.backoff.retryDelay attempt)) r s') :
      Tries (left + 1) attempt s r s'

end

theorem tries_pushFrom (w : Surroundings) (o : Options) (reference header : String) :
    ∀ (left attempt : Nat) (s : Session), Tries w o reference header left attempt s
      (pushFrom w o reference header left attempt s).1
      (pushFrom w o reference header left attempt s).2
  | 0, _, _ => .last
  | left + 1, attempt, s => by
    rw [pushFrom]
    split
    · rename_i t ht
      simpa [ht] using @Tries.succeeded w o reference header left attempt s (congrArg Prod.fst ht)
    · rename_i e t ht
      split
      · rename_i hc
        simpa [ht] using @Tries.barred w o reference header left attempt s e (congrArg Prod.fst ht)
          (ht ▸ hc)
      · rename_i hc
        have ih := tries_pushFrom w o reference header left (attempt + 1)
          ((t.tell (retryNotice o attempt e)).wait w (o.backoff.retryDelay attempt))
        exact .again (congrArg Prod.fst ht) (by simpa [ht] using hc) (by simpa [ht] using ih)

theorem tryPush_leads (w : Surroundings) (reference header : String) (s : Session) :
    ∃ (h : List Moment) (a : Attempt),
      s.Leads (.called a.request a.answer :: h) (tryPush w reference header s).2 ∧
      exchange h = a.readings reference ∧ a.Complete ∧
      a.request = ⟨.push reference header, s.cancelled⟩ ∧
      (tryPush w reference header s).1 = verdict .push reference a.error? :=
  attempt_leads w .push reference (.push reference header) id (fun _ => rfl) s

theorem isSome_of_verdict {operation : Operation} {reference : String} {fault : Option Chain}
    {e : TransferError} (h : verdict operation reference fault = .error e) :
    fault.isSome = true := by
  cases fault with
  | none => cases h
  | some => rfl

/-- What a push with the result `r` is: some failed attempts, not more than `bound`, and a last one
that decides what comes of it. -/
structure PushHistory (reference header : String) (bound : Nat) (r : Except TransferError Unit)
    (h : List Moment) (failed : List Attempt) (a : Attempt) : Prop where
  exchange : exchange h = (failed ++ [a]).flatMap (Attempt.moments reference)
  complete : ∀ b ∈ failed ++ [a], b.Complete ∧ b.request.call = .push reference header
  fails : ∀ b ∈ failed, b.Fails
  length_le : failed.length ≤ bound
  result : r = verdict .push reference a.error?

/-- An attempt with nothing behind it. -/
theorem pushHistory_single (w : Surroundings) (reference header : String) (bound : Nat)
    (s : Session) : ∃ h failed a, s.Leads h (tryPush w reference header s).2 ∧
      PushHistory reference header bound (tryPush w reference header s).1 h failed a := by
  obtain ⟨h, a, hl, hx, hcomplete, hreq, hv⟩ := tryPush_leads w reference header s
  refine ⟨_, [], a, hl, ?_, ?_, by simp, Nat.zero_le _, hv⟩
  · simp [Attempt.moments, hx]
  · simp [hcomplete, hreq]

/-- A failed attempt in front of others. -/
theorem PushHistory.cons {reference header : String} {bound : Nat} {r : Except TransferError Unit}
    {h h' : List Moment} {failed : List Attempt} {a b : Attempt}
    (p : PushHistory reference header bound r h' failed a)
    (hx : Moment.exchange h = b.moments reference)
    (hb : b.Complete ∧ b.request.call = .push reference header) (hf : b.Fails) :
    PushHistory reference header (bound + 1) r (h ++ h') (b :: failed) a where
  exchange := by simp [hx, p.exchange]
  complete c hc := by
    rcases List.mem_cons.1 hc with rfl | hc
    · exact hb
    · exact p.complete c hc
  fails c hc := by
    rcases List.mem_cons.1 hc with rfl | hc
    · exact hf
    · exact p.fails c hc
  length_le := Nat.succ_le_succ p.length_le
  result := p.result

theorem Tries.leads {w : Surroundings} {o : Options} {reference header : String}
    {left attempt : Nat} {s s' : Session} {r : Except TransferError Unit}
    (t : Tries w o reference header left attempt s r s') :
    ∃ h failed a, s.Leads h s' ∧ PushHistory reference header left r h failed a := by
  induction t with
  | last => exact pushHistory_single w reference header _ _
  | succeeded hr | barred hr => exact hr ▸ pushHistory_single w reference header _ _
  | @again left attempt s s' e r hr _ _ ih =>
    obtain ⟨h, a, hl, hx, hcomplete, hreq, hv⟩ := tryPush_leads w reference header s
    obtain ⟨q, hq, hquiet⟩ := Session.leads_wait w (o.backoff.retryDelay attempt)
      ((tryPush w reference header s).2.tell (retryNotice o attempt e))
    obtain ⟨h', failed, b, hl', hp⟩ := ih
    refine ⟨_, a :: failed, b, ((hl.trans (Session.leads_tellAll _ _)).trans hq).trans hl',
      hp.cons ?_ ⟨hcomplete, by rw [hreq]⟩ ?_⟩
    · simp [Attempt.moments, hx, hquiet.exchange]
    · exact a.isSome_error?_iff.1 (isSome_of_verdict (hv.symm.trans hr))

end Batch

end ImageRelay
