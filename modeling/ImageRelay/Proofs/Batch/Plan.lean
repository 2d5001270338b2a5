import ImageRelay.Proofs.Batch.Live
import ImageRelay.Proofs.Batch.Reports

/-!
# Batches of which every call succeeds

If all calls that a batch makes succeed (`Engine.Grants`) and the token is never raised, these are
the calls of its plan, each of them once and in order, and the batch passes its check
(`Duty.run_granted`). The plan does not depend on the engine.
-/

set_option autoImplicit false

namespace ImageRelay

/-- A call succeeds with this answer: it is accepted, and there is no error in its stream as long as
the token is not raised. -/
def Call.Succeeds : (c : Call) → c.Answer → Prop
  | .pull _, a | .push _ _, a => answerFault? a = none
  | .tag _ _, a => a = .ok ()
  | .remove _, a => ∃ items, a = .ok items
  | .save _, a => ∃ stream, a = .ok stream

/-- Behind the requests `past` these calls succeed, made one after the other with the token not
raised. -/
def Engine.Grants (e : Engine) : (past : List Request) → List Call → Prop
  | _, [] => True
  | past, c :: cs => c.Succeeds (e past ⟨c, false⟩).answer ∧ e.Grants (past ++ [⟨c, false⟩]) cs

theorem Engine.grants_append {e : Engine} {cs cs' : List Call} :
    ∀ {past : List Request}, e.Grants past (cs ++ cs') →
      e.Grants past cs ∧ e.Grants (past ++ cs.map (⟨·, false⟩)) cs' := by
  induction cs with
  | nil =>
    intro past h
    rw [List.map_nil, List.append_nil]
    exact ⟨trivial, h⟩
  | cons c cs ih =>
    intro past h
    obtain ⟨hc, hrest⟩ := h
    obtain ⟨hcs, hcs'⟩ := ih hrest
    rw [List.append_assoc] at hcs'
    exact ⟨⟨hc, hcs⟩, hcs'⟩

namespace Batch

/-- A push is one call or several, and one only if the first of them succeeds. -/
theorem Tries.granted {w : Surroundings} {o : Options} {reference header : String}
    {left attempt : Nat} {s s' : Session} {r : Except TransferError Unit}
    (t : Tries w o reference header left attempt s r s') (hs : s'.cancelled = false) :
    ∃ cs, Makes (.push reference header :: cs) s s' ∧
      (answerFault? (w.engine s.requests ⟨.push reference header, false⟩).answer = none →
        cs = [] ∧ r = .ok ()) := by
  induction t with
  | last =>
    obtain ⟨hresult, hmakes⟩ := tryPush_live w reference header _ hs
    exact ⟨[], hmakes, fun hok => ⟨rfl, by rw [hresult, hok]; rfl⟩⟩
  | succeeded hr =>
    obtain ⟨-, hmakes⟩ := tryPush_live w reference header _ hs
    exact ⟨[], hmakes, fun _ => ⟨rfl, rfl⟩⟩
  | barred hr hc =>
    rw [hs] at hc
    cases hc
  | @again left attempt s s' e r hr hc _ ih =>
    obtain ⟨hresult, hmakes⟩ := tryPush_live w reference header s hc
    obtain ⟨cs, hrest, -⟩ := ih hs
    have hpause := makes_pause w (tryPush w reference header s).2 (retryNotice o attempt e)
      (o.backoff.retryDelay attempt)
    -- a first attempt that succeeds is not repeated
    refine ⟨_, hmakes.trans (hpause.trans hrest), fun hok => ?_⟩
    rw [hok, hr] at hresult
    cases hresult

namespace Duty

variable {w : Surroundings} {o : Options} {d : Duty}

/-- A job all of whose calls succeed makes the calls over its pair, and it succeeds. -/
theorem job_granted (p : Image × Image) (s : Session) (hs : (d.job w o p s).2.cancelled = false) :
    ∃ cs, Makes cs s (d.job w o p s).2 ∧ (w.engine.Grants s.requests cs →
      cs = d.calls p ∧ (d.job w o p s).1.isSuccess = true) := by
  cases d with
  | pull set =>
    obtain ⟨hresult, hmakes⟩ := pullImage_live w s p.2 hs
    refine ⟨_, hmakes, fun hgrants => ⟨rfl, ?_⟩⟩
    have hsucceeds :
        answerFault? (w.engine s.requests ⟨.pull p.2.reference, false⟩).answer = none := hgrants.1
    rw [job, hresult, pulled, hsucceeds]
    rfl
  | delete set =>
    obtain ⟨hresult, hmakes⟩ := deleteImage_live w s p.2 hs
    refine ⟨_, hmakes, fun hgrants => ⟨rfl, ?_⟩⟩
    obtain ⟨items, hitems⟩ := hgrants.1
    rw [job, hresult, hitems]
    rfl
  | push source destination c =>
    rcases pushImage_live w s o c p.1 p.2 hs with
      ⟨fault, hfault, -, hmakes⟩ | ⟨-, u, hu, hend, hresult, hback⟩
    · refine ⟨_, hmakes, fun hgrants => ?_⟩
      have htag := hgrants.1
      rw [Call.Succeeds, hfault] at htag
      cases htag
    · obtain ⟨cs, hmakes, hone⟩ :=
        (tries_pushFrom w o p.2.reference (headerOf c) o.retries 0 u).granted hend
      refine ⟨_, (hu.trans hmakes).trans hback, fun hgrants => ?_⟩
      have hpast : u.requests = s.requests ++ [⟨.tag p.1.reference p.2.reference, false⟩] := hu
      have hpush : answerFault? (w.engine u.requests
          ⟨.push p.2.reference (headerOf c), false⟩).answer = none := by
        rw [hpast]
        exact hgrants.2.1
      obtain ⟨rfl, hok⟩ := hone hpush
      refine ⟨rfl, ?_⟩
      rw [job, hresult, hok]
      rfl

/-- The calls of a batch if all of them succeed. -/
def plan (d : Duty) : List Call := d.items.flatMap d.calls

theorem course_granted {past : List Request} {ps : List (Image × Image)} {rs : List ImageResult}
    {cs : List Call}
    (h : Course (fun past p r cs => w.engine.Grants past cs →
      cs = d.calls p ∧ r.isSuccess = true) past ps rs cs)
    (hgrants : w.engine.Grants past cs) :
    cs = ps.flatMap d.calls ∧ ∀ r ∈ rs, r.isSuccess = true := by
  induction h with
  | nil => exact ⟨rfl, by simp⟩
  | cons hq _ ih =>
    obtain ⟨hfirst, hothers⟩ := Engine.grants_append hgrants
    obtain ⟨hcalls, hsuccess⟩ := hq hfirst
    obtain ⟨hrest, hall⟩ := ih hothers
    refine ⟨by rw [hcalls, hrest, List.flatMap_cons], fun r hr => ?_⟩
    rcases List.mem_cons.1 hr with rfl | hr
    · exact hsuccess
    · exact hall r hr

theorem run_granted {s : Session} (hs : (d.run w o s).2.cancelled = false) :
    ∃ cs, Makes cs s (d.run w o s).2 ∧ (w.engine.Grants s.requests cs →
      cs = d.plan ∧ (d.run w o s).1.check = .ok ()) := by
  obtain ⟨cs, hmakes, hcourse⟩ := Duty.live (Q := fun past p r cs => w.engine.Grants past cs →
    cs = d.calls p ∧ r.isSuccess = true) job_granted hs
  obtain ⟨k, hcovers⟩ := d.covers w o s
  refine ⟨cs, hmakes, fun hgrants => ?_⟩
  obtain ⟨hplan, hall⟩ := course_granted hcourse hgrants
  exact ⟨hplan, Report.check_eq_ok_iff.2 ⟨(hcovers.complete hs).2, hall⟩⟩

end Duty

end Batch

end ImageRelay
