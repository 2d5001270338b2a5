import ImageRelay.Command.Selection
import ImageRelay.Proofs.Session

/-!
# Steps before a batch

What a command does before its batch only tells something (`Step.Tells`), so the files stay as
they are, and the next step goes on with what was found out or does not come about.

* `Catalog.load_eq`: an image set is built with the overrides that a path names.
* `Selection.tells_resolveVersion`, `Selection.tells_images`, `Selection.images_eq_ok_iff`: the
  steps that find out a version and an image set.
-/

set_option autoImplicit false

namespace ImageRelay

/-! ## Steps that only tell something -/

namespace Step

variable {α : Type}

theorem ofResult_andThen {β : Type} (a : α) (f : α → Step β) :
    (ofResult (.ok a)).andThen f = f a := rfl

/-- A step that tells something at most. -/
def Tells (x : Step α) : Prop := ∀ s, ∃ es, (x s).2 = s.tellAll es

theorem Tells.cases {x : Step α} (hx : x.Tells) (s : Session) :
    (∃ e es, x s = (.error e, s.tellAll es)) ∨ ∃ a es, x s = (.ok a, s.tellAll es) := by
  obtain ⟨es, hes⟩ := hx s
  cases hr : (x s).1 with
  | error e => exact .inl ⟨e, es, Prod.ext hr hes⟩
  | ok a => exact .inr ⟨a, es, Prod.ext hr hes⟩

theorem tells_ofResult (r : Except Failure α) : (ofResult r).Tells :=
  fun s => ⟨[], s.tellAll_nil.symm⟩

theorem tells_tell (es : List Emission) : (tell es).Tells := fun _ => ⟨es, rfl⟩

end Step

/-! ## Loading and resolving -/

namespace Catalog

/-- The overrides that a path names; an empty path names none. -/
def overridesOf (path : Option String) (files : Files.Tree) : Except ResolutionError Overrides :=
  match path.filter (!·.isEmpty) with
  | none => .ok .empty
  | some path => readOverrides files path

theorem load_eq (path : Option String) (v : KubeVersion) (s : Session) :
    ∃ es, load path v s = ((overridesOf path s.files).bind (build · v), s.tellAll es) := by
  rw [load, overridesOf]
  cases path.filter (!·.isEmpty) with
  | none => exact ⟨[], by rw [s.tellAll_nil]; rfl⟩
  | some p =>
    simp only [Session.tell, Session.files_tellAll]
    cases readOverrides s.files p with
    | error e => exact ⟨_, rfl⟩
    | ok o =>
      simp only [Session.tellAll_tellAll]
      exact ⟨_, rfl⟩

end Catalog

namespace Selection

theorem tells_resolveVersion (source : VersionSource) (sel : Selection) :
    (sel.resolveVersion source).Tells := by
  intro s
  rw [resolveVersion]
  split
  · cases Resolution.ofText sel.version with
    | settled r => exact Step.tells_ofResult _ s
    | asks =>
      simp only [askVersion, Session.tell, Session.tellAll_tellAll]
      exact ⟨_, rfl⟩
  · exact Step.tells_ofResult _ s

theorem tells_images (path : Option String) (v : KubeVersion) : (images path v).Tells := by
  intro s
  obtain ⟨es, hes⟩ := Catalog.load_eq path v s
  exact ⟨es, by rw [images, hes]⟩

/-- An image set that is loaded is built with the overrides that the path names. -/
theorem images_eq_ok_iff {path : Option String} {v : KubeVersion} {s : Session}
    {set : ImageSet} : (images path v s).1 = .ok set ↔
      ∃ o, Catalog.overridesOf path s.files = .ok o ∧ Catalog.build o v = .ok set := by
  obtain ⟨es, hes⟩ := Catalog.load_eq path v s
  rw [images, hes, mapError_eq_ok_iff]
  exact bind_eq_ok_iff

end Selection

end ImageRelay
