import ImageRelay.Proofs.Batch.Publication

/-!
# Batches by what they are to do

A pull, a push and a deletion are one loop over pairs of images: the image that is worked on and the
image that is reported on. They differ in what is done with a pair (`Duty.job`) and in what is told
before the first of them (`Duty.opening`); `Duty.run_eq` is this loop. What holds of all batches is
proved of it. What holds of all that a job is made of holds of the job (`Parts.job`).
-/

set_option autoImplicit false

namespace ImageRelay.Batch

/-- What a batch is to do. -/
inductive Duty
  | pull (set : ImageSet)
  | push (source destination : ImageSet) (credentials : Credentials)
  | delete (set : ImageSet)

namespace Duty

/-- Does a duty. -/
def run (w : Surroundings) (o : Options) : Duty → Session → Report × Session
  | pull set => pullAll w set
  | push source destination c => pushAll w o source destination c
  | delete set => deleteAll w set

/-- The operation that a batch is reported as. -/
def operation : Duty → Operation
  | pull _ => .pull
  | push .. => .push
  | delete _ => .delete

/-- The images that a batch works on, each with the image that it reports on. -/
def items : Duty → List (Image × Image)
  | pull set | delete set => set.images.map fun i => (i, i)
  | push source destination _ => pairs source destination

/-- The images that a batch reports on. -/
def images (d : Duty) : List Image := d.items.map (·.2)

/-- What is done with one pair of images. -/
def job (w : Surroundings) (o : Options) : Duty → Image × Image → Job
  | pull _, p => pullImage w p.2
  | push _ _ c, p => pushImage w o c p.1 p.2
  | delete _, p => deleteImage w p.2

/-- What is told before the first image. -/
def opening : Duty → List Emission
  | pull _ | delete _ => []
  | push source destination _ => skipped source destination

theorem run_eq (w : Surroundings) (o : Options) (d : Duty) (s : Session) :
    d.run w o s = Batch.run d.operation (d.items.map (d.job w o)) (s.tellAll d.opening) := by
  cases d with
  | pull set | delete set =>
    rw [opening, s.tellAll_nil, items, List.map_map]
    rfl
  | push source destination c => exact pushAll_eq w o source destination c s

theorem job_entry (w : Surroundings) (o : Options) (d : Duty) (p : Image × Image) (s : Session) :
    (d.job w o p s).1.name = p.2.name ∧ (d.job w o p s).1.reference = p.2.reference := by
  cases d with
  | pull set => exact ⟨rfl, rfl⟩
  | push source destination c => exact pushImage_entry w o c p.1 p.2 s
  | delete set => exact deleteImage_entry w p.2 s

theorem covers (w : Surroundings) (o : Options) (d : Duty) (s : Session) :
    ∃ k, Covers (d.run w o s).1 (d.run w o s).2.cancelled d.images k := by
  rw [run_eq]
  exact covers_run (·.2) d.operation (d.job_entry w o) d.items _

/-- The calls over a pair of images: each of them is made once if all succeed. -/
def calls : Duty → Image × Image → List Call
  | pull _, p => [.pull p.2.reference]
  | push _ _ c, p => [.tag p.1.reference p.2.reference, .push p.2.reference (headerOf c)]
  | delete _, p => [.remove p.2.reference]

end Duty

/-! ## Parts of jobs -/

/-- A relation of sessions that can be put together and holds of every part of a job. -/
structure Parts (w : Surroundings) (o : Options) (P : Session → Session → Prop) : Prop where
  trans {s t u : Session} : P s t → P t u → P s u
  observe (s : Session) (e : Event) : P s (s.observe w e)
  tag (s : Session) (source target : String) : P s (s.request w (.tag source target)).2
  remove (s : Session) (i : Image) : P s (deleteImage w i s).2
  pull (s : Session) (reference : String) : P s (tryPull w reference s).2
  push (s : Session) (reference header : String) : P s (tryPush w reference header s).2
  again {s : Session} {reference header : String} {e : TransferError} (attempt : Nat) :
    (tryPush w reference header s).1 = .error e → P (tryPush w reference header s).2
      (((tryPush w reference header s).2.tell (retryNotice o attempt e)).wait w
        (o.backoff.retryDelay attempt))

namespace Parts

variable {w : Surroundings} {o : Options} {P : Session → Session → Prop} (h : Parts w o P)
include h

theorem tries {reference header : String} {left attempt : Nat} {s s' : Session}
    {r : Except TransferError Unit} (t : Tries w o reference header left attempt s r s') :
    P s s' := by
  induction t with
  | last | succeeded | barred => exact h.push _ reference header
  | again hr _ _ ih => exact h.trans (h.trans (h.push _ reference header) (h.again _ hr)) ih

theorem framed (reference : String) {body : Session → Except TransferError Unit × Session}
    (hb : ∀ s, P s (body s).2) (s : Session) : P s (framed w reference body s).2 :=
  h.trans (h.trans (h.observe s _) (hb _)) (h.observe _ _)

theorem job (d : Duty) (p : Image × Image) (s : Session) : P s (d.job w o p s).2 := by
  cases d with
  | pull set => exact h.framed p.2.reference (fun s => h.pull s _) s
  | delete set => exact h.remove s p.2
  | push source destination c =>
    have hcall := h.tag s p.1.reference p.2.reference
    cases htag : (s.request w (.tag p.1.reference p.2.reference)).1 with
    | error fault =>
      rw [Duty.job, pushImage_of_error w o c p.1 p.2 s htag]
      exact hcall
    | ok =>
      rw [Duty.job, pushImage_of_ok w o c p.1 p.2 s htag]
      exact h.trans hcall (h.framed _ (fun s => h.tries (tries_pushFrom w o _ _ _ _ s)) _)

end Parts

end ImageRelay.Batch
