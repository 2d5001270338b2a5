import ImageRelay.Engine.Basic

/-!
# Histories of sessions

`Session.Leads s h s'`: the session `s` goes on to `s'`, and the moments `h` are what happens on the
way. The logs of `s'` are those of `s` with the parts of `h` that belong to them, and its token is
raised if it was before or is in `h`. Every operation of a session leads on (`leads_tellAll`,
`leads_observe`, `leads_request`, `leads_wait`), and steps can be put together (`Leads.trans`).

What an engine, an observer or a wait does on the way is `Quiet`: something is told or the token is
raised, and nothing else.
-/

set_option autoImplicit false

namespace ImageRelay

namespace Moment

/-! ## Parts of histories -/

/-- The request of a call. -/
@[simp] def request? : Moment → Option Request
  | called r _ => some r
  | read _ | ended | seen _ | waited _ | raised _ | told _ => none

/-- What an observer is shown. -/
@[simp] def event? : Moment → Option Event
  | seen e => some e
  | called _ _ | read _ | ended | waited _ | raised _ | told _ => none

/-- The item of a stream that is read. -/
@[simp] def item? : Moment → Option (Except Chain Message)
  | read i => some i
  | called _ _ | ended | seen _ | waited _ | raised _ | told _ => none

/-- What is told. -/
@[simp] def emission? : Moment → Option Emission
  | told e => some e
  | called _ _ | read _ | ended | seen _ | waited _ | raised _ => none

/-- Whether the token is raised. -/
@[simp] def isRaise : Moment → Bool
  | raised _ => true
  | called _ _ | read _ | ended | seen _ | waited _ | told _ => false

/-- Whether a moment belongs to what a batch itself does: neither told nor a raise. -/
@[simp] def isAct : Moment → Bool
  | raised _ | told _ => false
  | called _ _ | read _ | ended | seen _ | waited _ => true

/-- Whether a moment belongs to the exchange with the engine and the observer: an act that is no
wait. -/
@[simp] def isExchange : Moment → Bool
  | called _ _ | read _ | ended | seen _ => true
  | waited _ | raised _ | told _ => false

/-- The requests of a history. -/
def calls (h : List Moment) : List Request := h.filterMap request?

/-- The events of a history. -/
def events (h : List Moment) : List Event := h.filterMap event?

/-- The items that are read in a history. -/
def items (h : List Moment) : List (Except Chain Message) := h.filterMap item?

/-- What is told in a history. -/
def emissions (h : List Moment) : List Emission := h.filterMap emission?

/-- Whether the token is raised in a history. -/
def raises (h : List Moment) : Bool := h.any isRaise

/-- The acts of a history. -/
def acts (h : List Moment) : List Moment := h.filter isAct

/-- The exchange with the engine and the observer in a history. -/
def exchange (h : List Moment) : List Moment := h.filter isExchange

section
variable (m : Moment) (h h' : List Moment)

@[simp] theorem calls_nil : calls [] = [] := rfl

@[simp] theorem calls_cons : calls (m :: h) = m.request?.toList ++ calls h := by
  cases m <;> rfl

@[simp] theorem calls_append : calls (h ++ h') = calls h ++ calls h' := List.filterMap_append

@[simp] theorem events_nil : events [] = [] := rfl

@[simp] theorem events_cons : events (m :: h) = m.event?.toList ++ events h := by
  cases m <;> rfl

@[simp] theorem events_append : events (h ++ h') = events h ++ events h' := List.filterMap_append

@[simp] theorem items_nil : items [] = [] := rfl

@[simp] theorem items_cons : items (m :: h) = m.item?.toList ++ items h := by
  cases m <;> rfl

@[simp] theorem emissions_nil : emissions [] = [] := rfl

@[simp] theorem emissions_cons : emissions (m :: h) = m.emission?.toList ++ emissions h := by
  cases m <;> rfl

@[simp] theorem emissions_append : emissions (h ++ h') = emissions h ++ emissions h' :=
  List.filterMap_append

@[simp] theorem raises_nil : raises [] = false := rfl

@[simp] theorem raises_cons : raises (m :: h) = (m.isRaise || raises h) := by
  cases m <;> rfl

@[simp] theorem raises_append : raises (h ++ h') = (raises h || raises h') := List.any_append

@[simp] theorem acts_nil : acts [] = [] := rfl

@[simp] theorem acts_cons : acts (m :: h) = if m.isAct then m :: acts h else acts h :=
  List.filter_cons

@[simp] theorem acts_append : acts (h ++ h') = acts h ++ acts h' := List.filter_append _ _

@[simp] theorem exchange_nil : exchange [] = [] := rfl

@[simp] theorem exchange_cons :
    exchange (m :: h) = if m.isExchange then m :: exchange h else exchange h :=
  List.filter_cons

@[simp] theorem exchange_append : exchange (h ++ h') = exchange h ++ exchange h' :=
  List.filter_append _ _

end

section
variable {α : Type} (f : α → List Moment) (as : List α)

theorem calls_flatMap : calls (as.flatMap f) = as.flatMap fun a => calls (f a) :=
  List.filterMap_flatMap

theorem emissions_flatMap : emissions (as.flatMap f) = as.flatMap fun a => emissions (f a) :=
  List.filterMap_flatMap

theorem exchange_flatMap : exchange (as.flatMap f) = as.flatMap fun a => exchange (f a) :=
  List.filter_flatMap

end

/-- The exchange has all calls of a history. -/
theorem calls_exchange (h : List Moment) : calls (exchange h) = calls h := by
  induction h with
  | nil => rfl
  | cons m h ih => cases m <;> simp [ih]

/-- The exchange has all events of a history. -/
theorem events_exchange (h : List Moment) : events (exchange h) = events h := by
  induction h with
  | nil => rfl
  | cons m h ih => cases m <;> simp [ih]

/-! ## Cuts -/

/-- A moment of two histories in a row is in one of them. -/
theorem cut_append {h h' before after : List Moment} {m : Moment}
    (heq : h ++ h' = before ++ m :: after) :
    (∃ mid, h = before ++ m :: mid ∧ after = mid ++ h') ∨
      ∃ mid, before = h ++ mid ∧ h' = mid ++ m :: after := by
  rcases List.append_eq_append_iff.1 heq with ⟨mid, hb, hmid⟩ | ⟨mid, hh, hcons⟩
  · exact .inr ⟨mid, hb, hmid⟩
  · cases mid with
    | nil => exact .inr ⟨[], by simpa using hh.symm, hcons.symm⟩
    | cons m' mid =>
      obtain ⟨rfl, rfl⟩ := List.cons.inj hcons
      exact .inl ⟨mid, hh, rfl⟩

theorem raises_cut {before after : List Moment} {i : Interrupt} :
    raises (before ++ .raised i :: after) = true := by simp

/-! ## Quiet histories -/

/-- Nothing happens but that something is told or the token is raised. -/
def Quiet (h : List Moment) : Prop := acts h = []

theorem quiet_nil : Quiet [] := rfl

theorem Quiet.append {h h' : List Moment} (q : Quiet h) (q' : Quiet h') : Quiet (h ++ h') := by
  rw [Quiet, acts_append, q, q']
  rfl

theorem quiet_told (es : List Emission) : Quiet (es.map told) := by
  induction es with
  | nil => rfl
  | cons e es ih => simpa [Quiet] using ih

theorem quiet_raised (i : Interrupt) (es : List Emission) : Quiet (raised i :: es.map told) := by
  simpa [Quiet] using quiet_told es

theorem emissions_told (es : List Emission) : emissions (es.map told) = es := by
  induction es with
  | nil => rfl
  | cons e es ih => simpa using ih

theorem raises_told (es : List Emission) : raises (es.map told) = false := by
  induction es with
  | nil => rfl
  | cons e es ih => simpa using ih

/-- Nothing of a quiet history belongs to the exchange. -/
theorem Quiet.exchange {h : List Moment} (q : Quiet h) : exchange h = [] := by
  induction h with
  | nil => rfl
  | cons m h ih => cases m <;> simp_all [Quiet]

theorem Quiet.calls {h : List Moment} (q : Quiet h) : calls h = [] := by
  rw [← calls_exchange, q.exchange, calls_nil]

theorem Quiet.events {h : List Moment} (q : Quiet h) : events h = [] := by
  rw [← events_exchange, q.exchange, events_nil]

end Moment

namespace Session

open Moment

/-! ## Steps of sessions -/

/-- The session `s` goes on to `s'` through `h` (module doc). -/
structure Leads (s : Session) (h : List Moment) (s' : Session) : Prop where
  history : s'.history = s.history ++ h
  requests : s'.requests = s.requests ++ calls h
  events : s'.events = s.events ++ Moment.events h
  output : s'.output = s.output ++ emissions h
  cancelled : s'.cancelled = (s.cancelled || raises h)

theorem Leads.refl (s : Session) : s.Leads [] s := by constructor <;> simp

theorem Leads.trans {s t u : Session} {h h' : List Moment} (a : s.Leads h t) (b : t.Leads h' u) :
    s.Leads (h ++ h') u where
  history := by rw [b.history, a.history, List.append_assoc]
  requests := by rw [b.requests, a.requests, calls_append, List.append_assoc]
  events := by rw [b.events, a.events, events_append, List.append_assoc]
  output := by rw [b.output, a.output, emissions_append, List.append_assoc]
  cancelled := by rw [b.cancelled, a.cancelled, raises_append, Bool.or_assoc]

/-- A raised token stays raised. -/
theorem Leads.cancelled_of {s s' : Session} {h : List Moment} (l : s.Leads h s')
    (hs : s.cancelled = true) : s'.cancelled = true := by
  rw [l.cancelled, hs, Bool.true_or]

theorem Leads.cancelled_of_raises {s s' : Session} {h : List Moment} (l : s.Leads h s')
    (hr : raises h = true) : s'.cancelled = true := by
  rw [l.cancelled, hr, Bool.or_true]

/-- Where the token is not raised in the end, it was raised neither before nor on the way. -/
theorem Leads.of_not_cancelled {s s' : Session} {h : List Moment} (l : s.Leads h s')
    (hs : s'.cancelled = false) : s.cancelled = false ∧ raises h = false := by
  rw [l.cancelled, Bool.or_eq_false_iff] at hs
  exact hs

theorem leads_tellAll (s : Session) (es : List Emission) :
    s.Leads (es.map .told) (s.tellAll es) := by
  have hq := quiet_told es
  constructor <;> simp [tellAll, hq.calls, hq.events, emissions_told, raises_told]

theorem leads_interrupt (s : Session) (i : Interrupt) :
    s.Leads (.raised i :: (i.emissions s.cancelled).map .told) (s.interrupt i) :=
  Leads.trans (h := [.raised i]) (by constructor <;> simp [record]) (leads_tellAll _ _)

theorem leads_read (s : Session) (item : Except Chain Message) :
    s.Leads [.read item] (s.record (.read item)) := by constructor <;> simp [record]

theorem leads_ended (s : Session) : s.Leads [.ended] (s.record .ended) := by
  constructor <;> simp [record]

/-- Effects are quiet. -/
theorem leads_applyAll (s : Session) (es : List Effect) :
    ∃ h, s.Leads h (s.applyAll es) ∧ Quiet h := by
  induction es generalizing s with
  | nil => exact ⟨[], .refl s, quiet_nil⟩
  | cons e es ih =>
    obtain ⟨h, hl, hq⟩ := ih (s.apply e)
    cases e with
    | tell e => exact ⟨_, (leads_tellAll s [e]).trans hl, (quiet_told [e]).append hq⟩
    | interrupt i =>
      exact ⟨_, (leads_interrupt s i).trans hl, (quiet_raised i _).append hq⟩

/-- Effects raise the token only by an interrupt among them. -/
theorem cancelled_applyAll_iff (s : Session) (es : List Effect) :
    (s.applyAll es).cancelled = true ↔ s.cancelled = true ∨ ∃ i, .interrupt i ∈ es := by
  induction es generalizing s with
  | nil => simp [applyAll]
  | cons e es ih =>
    have hstep : s.applyAll (e :: es) = (s.apply e).applyAll es := rfl
    rw [hstep, ih]
    cases e with
    | tell e => simp [apply, tell, tellAll]
    | interrupt i => simp [apply, interrupt, tellAll]

/-- The effects of an act are quiet. -/
theorem Leads.applyAll {s t : Session} {m : Moment} (l : s.Leads [m] t) (es : List Effect) :
    ∃ h, s.Leads (m :: h) (t.applyAll es) ∧ Quiet h := by
  obtain ⟨h, hl, hq⟩ := leads_applyAll t es
  exact ⟨h, l.trans hl, hq⟩

theorem leads_observe (w : Surroundings) (s : Session) (e : Event) :
    ∃ h, s.Leads (.seen e :: h) (s.observe w e) ∧ Quiet h :=
  Leads.applyAll (by constructor <;> simp [record]) (w.observer s.events e)

theorem leads_request (w : Surroundings) (c : Call) (s : Session) :
    ∃ h, s.Leads (.called ⟨c, s.cancelled⟩ (s.request w c).1 :: h) (s.request w c).2 ∧ Quiet h :=
  Leads.applyAll (by constructor <;> simp [record, request])
    (w.engine s.requests ⟨c, s.cancelled⟩).effects

theorem leads_wait (w : Surroundings) (delay : Duration) (s : Session) :
    ∃ h, s.Leads (.waited delay :: h) (s.wait w delay) ∧ Quiet h :=
  Leads.applyAll (by constructor <;> simp [record]) (w.waiting s.requests)

/-! ## Telling -/

theorem tellAll_nil (s : Session) : s.tellAll [] = s := by simp [tellAll]

theorem tellAll_tellAll (s : Session) (es es' : List Emission) :
    (s.tellAll es).tellAll es' = s.tellAll (es ++ es') := by
  simp [tellAll, List.append_assoc]

theorem files_tellAll (s : Session) (es : List Emission) : (s.tellAll es).files = s.files := rfl

/-! ## What a call changes -/

/-- A call is kept. -/
theorem requests_request (w : Surroundings) (c : Call) (s : Session) :
    (s.request w c).2.requests = s.requests ++ [⟨c, s.cancelled⟩] := by
  obtain ⟨h, hl, hq⟩ := leads_request w c s
  rw [hl.requests]
  simp [hq.calls]

theorem files_applyAll (es : List Effect) (s : Session) : (s.applyAll es).files = s.files := by
  induction es generalizing s with
  | nil => rfl
  | cons e es ih =>
    have he : (s.apply e).files = s.files := by cases e <;> rfl
    exact (ih (s.apply e)).trans he

/-- A call changes no file of the session. -/
theorem files_request (w : Surroundings) (c : Call) (s : Session) :
    (s.request w c).2.files = s.files :=
  files_applyAll _ _

end Session

end ImageRelay
