import ImageRelay.Archive.Sink

/-!
# Journals of sinks

`Sink.recorded` is a sink that keeps a journal of every write and every flush and is otherwise the
same (`recorded_writeAll`). `Writes bytes deeds reason` says that these are the writes of the bytes:
each write offers what is left, and the first that fails, with this reason, is the last.
-/

set_option autoImplicit false

namespace ImageRelay.Archive

/-- What is done to a sink. -/
inductive Deed
  | wrote (bytes : List UInt8) (attempt : Attempt)
  | flushed (r : Except String Unit)

namespace Deed

/-- The bytes that a sink accepts: those at the front of what it is offered. -/
def accepted : Deed → List UInt8
  | wrote bytes attempt =>
    match attempt.answer with
    | .accepted n => bytes.take n
    | .failed _ => []
  | flushed _ => []

/-- Why a write fails; a write of which nothing is accepted fails, too. -/
def failure? : Deed → Option String
  | wrote _ attempt =>
    match attempt.answer with
    | .accepted 0 => some "failed to write whole buffer"
    | .accepted (_ + 1) => none
    | .failed reason => some reason
  | flushed _ => none

/-- What comes of a flush. -/
def flush? : Deed → Option (Except String Unit)
  | wrote _ _ => none
  | flushed r => some r

/-- A write that does not fail: there may be more to do behind it. -/
def Proceeds (d : Deed) : Prop := d.failure? = none ∧ d.flush? = none

/-- Nothing is accepted of a failed write. -/
theorem accepted_of_failure? {d : Deed} {reason : String} (h : d.failure? = some reason) :
    d.accepted = [] := by
  unfold failure? at h
  unfold accepted
  split at h
  · split at h <;> simp_all
  · rfl

end Deed

/-- The bytes that were accepted in a journal. -/
def accepted (deeds : List Deed) : List UInt8 := deeds.flatMap Deed.accepted

/-- The first failed write of a journal. -/
def failure? (deeds : List Deed) : Option String := deeds.findSome? Deed.failure?

/-- The flushes of a journal. -/
def flushes (deeds : List Deed) : List (Except String Unit) := deeds.filterMap Deed.flush?

section
variable (deeds deeds' : List Deed)

@[simp] theorem accepted_nil : accepted [] = [] := rfl

@[simp] theorem accepted_append : accepted (deeds ++ deeds') = accepted deeds ++ accepted deeds' :=
  List.flatMap_append

@[simp] theorem failure?_nil : failure? [] = none := rfl

@[simp] theorem failure?_append :
    failure? (deeds ++ deeds') = (failure? deeds).or (failure? deeds') :=
  List.findSome?_append

@[simp] theorem flushes_nil : flushes [] = [] := rfl

@[simp] theorem flushes_append : flushes (deeds ++ deeds') = flushes deeds ++ flushes deeds' :=
  List.filterMap_append

end

/-- A sink that keeps a journal. -/
def Sink.recorded {τ : Type} (s : Sink τ) : Sink (τ × List Deed) where
  write t bytes :=
    let (attempt, u) := s.write t.1 bytes
    (attempt, (u, t.2 ++ [.wrote bytes attempt]))
  flush t :=
    let (r, u) := s.flush t.1
    (r, (u, t.2 ++ [.flushed r]))

/-- The writes of some bytes (module doc). -/
inductive Writes : List UInt8 → List Deed → Option String → Prop
  | done : Writes [] [] none
  | failed {bytes : List UInt8} {attempt : Attempt} {reason : String} (hb : bytes ≠ [])
      (hf : (Deed.wrote bytes attempt).failure? = some reason) :
      Writes bytes [.wrote bytes attempt] (some reason)
  | next {bytes : List UInt8} {attempt : Attempt} {n : Nat} {deeds : List Deed}
      {reason : Option String} (ha : attempt.answer = .accepted (n + 1))
      (h : Writes (bytes.drop (n + 1)) deeds reason) :
      Writes bytes (.wrote bytes attempt :: deeds) reason

/-- The journal tells the writes of the bytes, and otherwise nothing is different. -/
theorem recorded_writeAll {τ : Type} (s : Sink τ) (t : τ) (bytes : List UInt8)
    (journal : List Deed) : ∃ deeds,
      s.recorded.writeAll (t, journal) bytes =
        ((s.writeAll t bytes).1, ((s.writeAll t bytes).2, journal ++ deeds)) ∧
      Writes bytes deeds (s.writeAll t bytes).1 := by
  fun_induction s.writeAll t bytes generalizing journal with
  | case1 t => exact ⟨[], by rw [Sink.writeAll]; simp, .done⟩
  | case2 t bytes hb attempt u hw reason ha =>
    refine ⟨[.wrote bytes attempt], ?_, .failed hb (by simp [Deed.failure?, ha])⟩
    rw [Sink.writeAll]
    simp [hb, Sink.recorded, hw, ha]
  | case3 t bytes hb attempt u hw ha =>
    refine ⟨[.wrote bytes attempt], ?_, .failed hb (by simp [Deed.failure?, ha])⟩
    rw [Sink.writeAll]
    simp [hb, Sink.recorded, hw, ha]
  | case4 t bytes hb attempt u hw n ha ih =>
    obtain ⟨deeds, heq, h⟩ := ih (journal ++ [.wrote bytes attempt])
    refine ⟨.wrote bytes attempt :: deeds, ?_, .next ha h⟩
    rw [Sink.writeAll]
    simp [hb, Sink.recorded, hw, ha] at heq ⊢
    exact heq

namespace Writes

variable {bytes : List UInt8} {deeds : List Deed} {reason : Option String}

/-- The first failed write is the reason. -/
theorem failure?_eq (h : Writes bytes deeds reason) : failure? deeds = reason := by
  induction h with
  | done => rfl
  | failed _ hf => simpa [failure?] using hf
  | next ha _ ih => simpa [failure?, Deed.failure?, ha] using ih

/-- Writes do not flush. -/
theorem flushes_eq (h : Writes bytes deeds reason) : flushes deeds = [] := by
  induction h with
  | done | failed => rfl
  | next _ _ ih => simpa [flushes, Deed.flush?] using ih

/-- What is accepted is at the front of the bytes, and it is all of them exactly if no write
failed. -/
theorem accepted_append (h : Writes bytes deeds reason) :
    ∃ rest, accepted deeds ++ rest = bytes ∧ (rest = [] ↔ reason = none) := by
  induction h with
  | done => exact ⟨[], rfl, by simp⟩
  | @failed bytes attempt reason hb hf =>
    exact ⟨bytes, by simp [accepted, Deed.accepted_of_failure? hf], by simp [hb]⟩
  | @next bytes attempt n deeds reason ha _ ih =>
    obtain ⟨rest, heq, hrest⟩ := ih
    refine ⟨rest, ?_, hrest⟩
    rw [accepted, List.flatMap_cons, ← accepted, List.append_assoc, heq, Deed.accepted, ha]
    exact List.take_append_drop (n + 1) bytes

theorem proceeds_of_succeeded (h : Writes bytes deeds none) : ∀ d ∈ deeds, d.Proceeds :=
  fun d hd => ⟨List.findSome?_eq_none_iff.1 h.failure?_eq d hd,
    List.filterMap_eq_nil_iff.1 h.flushes_eq d hd⟩

/-- Nothing is done behind the first failed write. -/
theorem proceeds (h : Writes bytes deeds reason) : ∀ d ∈ deeds.dropLast, d.Proceeds := by
  induction h with
  | done | failed => simp
  | @next bytes attempt n deeds reason ha _ ih =>
    intro d hd
    by_cases hne : deeds = []
    · simp [hne] at hd
    · rw [List.dropLast_cons_of_ne_nil hne, List.mem_cons] at hd
      rcases hd with rfl | hd
      · exact ⟨by simp [Deed.failure?, ha], rfl⟩
      · exact ih d hd

end Writes

end ImageRelay.Archive
