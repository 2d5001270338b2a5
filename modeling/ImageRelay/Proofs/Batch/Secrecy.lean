import ImageRelay.Batch.Run
import Mathlib.Data.List.Forall2

/-!
# Passwords in push batches

Two runs of a push batch whose credentials have the same user name go the same way, unless the
surroundings tell their headers apart.

* `Call.Alike`, `Session.Alike`: equal but for the headers of the same user. All that is told,
  shown to the observer or written is equal in sessions that are alike.
* `Surroundings.Matches`: surroundings that do the same behind requests that are alike.
* `Agrees`: in both runs there is the same result, and the sessions are alike. Every operation of a
  push batch keeps to this, up to `agrees_pushAll`.
-/

set_option autoImplicit false

namespace ImageRelay

/-! ## Calls that are alike -/

/-- The headers are the same, or those of two passwords of one user. -/
inductive SameUser : String → String → Prop
  | refl (header : String) : SameUser header header
  | passwords {c c' : Credentials} (hu : c.username = c'.username) (hn : c.username ≠ "") :
      SameUser c.header c'.header

/-- The calls are the same but for the headers of one user. -/
inductive Call.Alike : Call → Call → Prop
  | refl (c : Call) : Alike c c
  | push {reference header header' : String} (h : SameUser header header') :
      Alike (.push reference header) (.push reference header')

/-- Requests that are alike, made with the same token. -/
structure Request.Alike (r r' : Request) : Prop where
  call : r.call.Alike r'.call
  cancelled : r.cancelled = r'.cancelled

/-- The moments are the same but for the headers of one user. -/
inductive Moment.Alike : Moment → Moment → Prop
  | refl (m : Moment) : Alike m m
  | push {reference header header' : String} {cancelled : Bool}
      {answer : Except Chain ProgressStream} (h : SameUser header header') :
      Alike (.called ⟨.push reference header, cancelled⟩ answer)
        (.called ⟨.push reference header', cancelled⟩ answer)

/-- Requests in a row that are alike. -/
def AlikeRequests (past past' : List Request) : Prop := List.Forall₂ Request.Alike past past'

/-- The sessions are the same but for the headers of one user. -/
structure Session.Alike (s s' : Session) : Prop where
  files : s.files = s'.files
  cancelled : s.cancelled = s'.cancelled
  events : s.events = s'.events
  output : s.output = s'.output
  requests : AlikeRequests s.requests s'.requests
  history : List.Forall₂ Moment.Alike s.history s'.history

theorem Request.Alike.refl (r : Request) : r.Alike r := ⟨.refl _, rfl⟩

theorem AlikeRequests.refl (past : List Request) : AlikeRequests past past :=
  List.forall₂_same.2 fun r _ => .refl r

theorem Session.Alike.refl (s : Session) : s.Alike s where
  files := rfl
  cancelled := rfl
  events := rfl
  output := rfl
  requests := .refl _
  history := List.forall₂_same.2 fun m _ => .refl m

/-! ## Surroundings that match -/

/-- The engines reply in the same way to requests that are alike, behind requests that are alike. -/
structure Engine.Matches (e e' : Engine) : Prop where
  reply {past past' : List Request} (h : AlikeRequests past past') (r : Request) :
    e past r = e' past' r
  push {past past' : List Request} (h : AlikeRequests past past') (reference : String)
    {header header' : String} (hh : SameUser header header') (cancelled : Bool) :
    (e past ⟨.push reference header, cancelled⟩).answer =
        (e' past' ⟨.push reference header', cancelled⟩).answer ∧
      (e past ⟨.push reference header, cancelled⟩).effects =
        (e' past' ⟨.push reference header', cancelled⟩).effects

/-- The surroundings do the same behind requests that are alike. -/
structure Surroundings.Matches (w w' : Surroundings) : Prop where
  engine : w.engine.Matches w'.engine
  observer : w.observer = w'.observer
  waiting {past past' : List Request} (h : AlikeRequests past past') :
    w.waiting past = w'.waiting past'

/-- There is the same result in both runs, and the sessions are alike. -/
structure Agrees {α : Type} (x x' : α × Session) : Prop where
  result : x.1 = x'.1
  session : x.2.Alike x'.2

theorem Agrees.exists_eq {α : Type} {x x' : α × Session} (h : Agrees x x') :
    ∃ a t t', x = (a, t) ∧ x' = (a, t') ∧ t.Alike t' :=
  ⟨x.1, x.2, x'.2, rfl, Prod.ext h.result.symm rfl, h.session⟩

namespace Session.Alike

variable {s s' : Session}

theorem record (a : s.Alike s') {m m' : Moment} (h : m.Alike m') :
    (s.record m).Alike (s'.record m') where
  files := a.files
  cancelled := a.cancelled
  events := a.events
  output := a.output
  requests := a.requests
  history := List.rel_append a.history (.cons h .nil)

theorem tellAll (a : s.Alike s') (es : List Emission) : (s.tellAll es).Alike (s'.tellAll es) where
  files := a.files
  cancelled := a.cancelled
  events := a.events
  output := by rw [Session.tellAll, Session.tellAll, a.output]
  requests := a.requests
  history := List.rel_append a.history (List.forall₂_same.2 fun m _ => .refl m)

theorem interrupt (a : s.Alike s') (i : Interrupt) : (s.interrupt i).Alike (s'.interrupt i) := by
  have hraised : ({ s.record (.raised i) with cancelled := true } : Session).Alike
      { s'.record (.raised i) with cancelled := true } :=
    ⟨a.files, rfl, a.events, a.output, a.requests, (a.record (.refl _)).history⟩
  unfold Session.interrupt
  rw [a.cancelled]
  exact hraised.tellAll _

theorem applyAll (a : s.Alike s') (es : List Effect) : (s.applyAll es).Alike (s'.applyAll es) := by
  induction es generalizing s s' with
  | nil => exact a
  | cons e es ih =>
    cases e with
    | tell e => exact ih (a.tellAll [e])
    | interrupt i => exact ih (a.interrupt i)

theorem keep (a : s.Alike s') {r r' : Request} {m m' : Moment} (hr : r.Alike r')
    (hm : m.Alike m') : ({ s.record m with requests := s.requests ++ [r] } : Session).Alike
      { s'.record m' with requests := s'.requests ++ [r'] } where
  files := a.files
  cancelled := a.cancelled
  events := a.events
  output := a.output
  requests := List.rel_append a.requests (.cons hr .nil)
  history := (a.record hm).history

variable {w w' : Surroundings} (hw : w.Matches w')
include hw

theorem observe (a : s.Alike s') (e : Event) : (s.observe w e).Alike (s'.observe w' e) := by
  have hseen : ({ s.record (.seen e) with events := s'.events ++ [e] } : Session).Alike
      { s'.record (.seen e) with events := s'.events ++ [e] } :=
    ⟨a.files, a.cancelled, rfl, a.output, a.requests, (a.record (.refl _)).history⟩
  unfold Session.observe
  rw [hw.observer, a.events]
  exact hseen.applyAll _

theorem wait (a : s.Alike s') (delay : Duration) : (s.wait w delay).Alike (s'.wait w' delay) := by
  unfold Session.wait
  rw [hw.waiting a.requests]
  exact (a.record (.refl (.waited delay))).applyAll _

theorem request (a : s.Alike s') (c : Call) : Agrees (s.request w c) (s'.request w' c) := by
  have hreply := hw.engine.reply a.requests ⟨c, s'.cancelled⟩
  have hc := a.cancelled
  unfold Session.request
  obtain ⟨files, cancelled, requests, events, output, history⟩ := s
  dsimp only at hc hreply ⊢
  subst hc
  rw [hreply]
  exact ⟨rfl, (a.keep (.refl _) (.refl _)).applyAll _⟩

theorem push (a : s.Alike s') (reference : String) {header header' : String}
    (h : SameUser header header') :
    (s.request w (.push reference header)).1 = (s'.request w' (.push reference header')).1 ∧
      (s.request w (.push reference header)).2.Alike
        (s'.request w' (.push reference header')).2 := by
  obtain ⟨hanswer, heffects⟩ := hw.engine.push a.requests reference h s'.cancelled
  have hc := a.cancelled
  unfold Session.request
  obtain ⟨files, cancelled, requests, events, output, history⟩ := s
  dsimp only at hc hanswer heffects ⊢
  subst hc
  have hr : Request.Alike ⟨.push reference header, s'.cancelled⟩
      ⟨.push reference header', s'.cancelled⟩ := ⟨.push h, rfl⟩
  rw [hanswer, heffects]
  exact ⟨rfl, (a.keep hr (.push h)).applyAll _⟩

end Session.Alike

namespace Batch

/-! ## Attempts -/

section
variable {w w' : Surroundings} (hw : w.Matches w') {s s' : Session}
include hw

theorem agrees_drain (reference : String) : ∀ (stream : ProgressStream) (last : Option Chain)
    {s s' : Session}, s.Alike s' →
      Agrees (drain w reference stream last s) (drain w' reference stream last s')
  | .done, _, _, _, a => ⟨rfl, a.record (.refl _)⟩
  | .item (.ok m) rest, _, _, _, a =>
    agrees_drain reference rest _ ((a.record (.refl _)).observe hw _)
  | .item (.error e) rest, _, _, _, a => agrees_drain reference rest _ (a.record (.refl _))
  | .interrupt i rest, last, _, _, a => agrees_drain reference rest last (a.interrupt i)
  | .poll live cancelled, last, s, s', a => by
    rw [drain, drain, a.cancelled]
    split
    · exact agrees_drain reference cancelled last a
    · exact agrees_drain reference live last a

theorem agrees_settle (operation : Operation) (reference : String)
    (answer : Except Chain ProgressStream) (a : s.Alike s') :
    Agrees (settle w operation reference answer s) (settle w' operation reference answer s') := by
  cases answer with
  | error source => exact ⟨rfl, a⟩
  | ok stream =>
    obtain ⟨fault, t, t', ht, ht', halike⟩ := (agrees_drain hw reference stream none a).exists_eq
    rw [settle, settle, ht, ht']
    cases fault with
    | none => exact ⟨rfl, halike⟩
    | some source => exact ⟨rfl, halike⟩

theorem agrees_tryPush (reference : String) {header header' : String}
    (h : SameUser header header') (a : s.Alike s') :
    Agrees (tryPush w reference header s) (tryPush w' reference header' s') := by
  obtain ⟨hanswer, halike⟩ := a.push hw reference h
  change Agrees (settle w .push reference (s.request w (.push reference header)).1
    (s.request w (.push reference header)).2) (settle w' .push reference
      (s'.request w' (.push reference header')).1 (s'.request w' (.push reference header')).2)
  rw [hanswer]
  exact agrees_settle hw .push reference _ halike

theorem agrees_pushFrom (o : Options) (reference : String) {header header' : String}
    (h : SameUser header header') : ∀ (left attempt : Nat) {s s' : Session}, s.Alike s' →
      Agrees (pushFrom w o reference header left attempt s)
        (pushFrom w' o reference header' left attempt s')
  | 0, _, _, _, a => agrees_tryPush hw reference h a
  | left + 1, attempt, s, s', a => by
    obtain ⟨r, t, t', ht, ht', halike⟩ := (agrees_tryPush hw reference h a).exists_eq
    rw [pushFrom, pushFrom, ht, ht']
    cases r with
    | ok => exact ⟨rfl, halike⟩
    | error e =>
      -- both attempts have failed, and the token is raised in both sessions or in neither
      dsimp only
      rw [halike.cancelled]
      split
      · exact ⟨rfl, halike⟩
      · exact agrees_pushFrom o reference h left (attempt + 1) ((halike.tellAll _).wait hw _)

/-! ## Images -/

theorem agrees_framed (reference : String)
    {body body' : Session → Except TransferError Unit × Session}
    (hb : ∀ s s', s.Alike s' → Agrees (body s) (body' s')) (a : s.Alike s') :
    Agrees (framed w reference body s) (framed w' reference body' s') := by
  obtain ⟨r, t, t', ht, ht', halike⟩ := (hb _ _ (a.observe hw (.begin reference))).exists_eq
  rw [framed, framed, ht, ht']
  exact ⟨rfl, halike.observe hw _⟩

theorem agrees_pushImage (o : Options) {c c' : Credentials}
    (h : SameUser (headerOf c) (headerOf c')) (i t : Image) (a : s.Alike s') :
    Agrees (pushImage w o c i t s) (pushImage w' o c' i t s') := by
  obtain ⟨answer, u, u', hu, hu', halike⟩ :=
    (a.request hw (.tag i.reference t.reference)).exists_eq
  rw [pushImage, pushImage, hu, hu']
  cases answer with
  | error fault => exact ⟨rfl, halike⟩
  | ok =>
    obtain ⟨r, v, v', hv, hv', hpushed⟩ := (agrees_framed hw t.reference
      (fun _ _ a => agrees_pushFrom hw o t.reference h o.retries 0 a) halike).exists_eq
    dsimp only
    rw [hv, hv']
    exact ⟨rfl, hpushed⟩

end

/-! ## Batches -/

theorem agrees_runJobs {α : Type} {f f' : α → Job}
    (hf : ∀ a s s', s.Alike s' → Agrees (f a s) (f' a s')) :
    ∀ (as : List α) {s s' : Session}, s.Alike s' →
      Agrees (runJobs (as.map f) s) (runJobs (as.map f') s')
  | [], _, _, h => ⟨rfl, h⟩
  | a :: as, s, s', h => by
    obtain ⟨r, t, t', ht, ht', halike⟩ := (hf a s s' h).exists_eq
    have htold := halike.tellAll (r.error?.toList.map fun e => .error e.message)
    -- what the other jobs come to is compared before it is known whether they are done
    obtain ⟨rs, u, u', hu, hu', hrest⟩ := (agrees_runJobs hf as htold).exists_eq
    rw [List.map_cons, List.map_cons, runJobs, runJobs, runJob, runJob, ht, ht', h.cancelled]
    dsimp only
    rw [htold.cancelled, hu, hu']
    split
    · exact ⟨rfl, h⟩
    · split
      · exact ⟨rfl, htold⟩
      · exact ⟨rfl, hrest⟩

theorem agrees_run {α : Type} {f f' : α → Job}
    (hf : ∀ a s s', s.Alike s' → Agrees (f a s) (f' a s')) (operation : Operation) (as : List α)
    {s s' : Session} (h : s.Alike s') :
    Agrees (run operation (as.map f) s) (run operation (as.map f') s') := by
  obtain ⟨rs, t, t', ht, ht', halike⟩ := (agrees_runJobs hf as h).exists_eq
  rw [run, run, ht, ht']
  exact ⟨rfl, halike.tellAll _⟩

theorem sameUser_headerOf {c c' : Credentials} (hu : c.username = c'.username) :
    SameUser (headerOf c) (headerOf c') := by
  unfold headerOf Credentials.isAnonymous
  rw [hu]
  split
  · exact .refl _
  · rename_i hn
    exact .passwords hu (by rw [hu]; simpa using hn)

/-- With credentials of the same user a push batch goes the same way. -/
theorem agrees_pushAll {w w' : Surroundings} (hw : w.Matches w') (o : Options)
    (source destination : ImageSet) {c c' : Credentials} (hu : c.username = c'.username)
    {s s' : Session} (a : s.Alike s') :
    Agrees (pushAll w o source destination c s) (pushAll w' o source destination c' s') :=
  agrees_run (fun p _ _ a => agrees_pushImage hw o (sameUser_headerOf hu) p.1 p.2 a) .push
    (pairs source destination) (a.tellAll _)

end Batch

end ImageRelay
