import ImageRelay.Image

/-!
# Image sets

The resolved images, one for each logical name, in the order of their names.

## Main definitions
* `ImageSet.ofList`: of two images with one name the later stays.
* `ImageSet.collect`: the set of images that are made one after the other.
* `ImageSet.get?`, `ImageSet.resolve`: look-up by logical name.
-/

set_option autoImplicit false

namespace ImageRelay

/-- Images in strictly increasing order of their names. -/
structure ImageSet where
  images : List Image
  sorted : images.Pairwise (·.name < ·.name)

namespace ImageSet

/-- Puts an image at its place among images in name order, instead of the one with its name. -/
def place (i : Image) : List Image → List Image
  | [] => [i]
  | j :: r =>
    if i.name < j.name then i :: j :: r
    else if i.name = j.name then i :: r
    else j :: place i r

theorem mem_place {i j : Image} {l : List Image} (h : j ∈ place i l) : j = i ∨ j ∈ l := by
  induction l with
  | nil => simpa [place] using h
  | cons k r ih =>
    rw [place] at h
    split at h
    · simpa using h
    · split at h
      · rcases List.mem_cons.1 h with h | h
        · exact .inl h
        · exact .inr (List.mem_cons_of_mem _ h)
      · rcases List.mem_cons.1 h with h | h
        · exact .inr (h ▸ List.mem_cons_self)
        · exact (ih h).imp_right (List.mem_cons_of_mem _)

theorem sorted_place {i : Image} {l : List Image} (h : l.Pairwise (·.name < ·.name)) :
    (place i l).Pairwise (·.name < ·.name) := by
  induction l with
  | nil => exact List.pairwise_singleton _ _
  | cons j r ih =>
    have hr := List.pairwise_cons.1 h
    rw [place]
    split
    · rename_i hi
      refine List.pairwise_cons.2 ⟨fun k hk => ?_, h⟩
      rcases List.mem_cons.1 hk with hk | hk
      · exact hk ▸ hi
      · exact String.lt_trans hi (hr.1 k hk)
    · split
      · rename_i _ hi
        exact List.pairwise_cons.2 ⟨fun k hk => hi ▸ hr.1 k hk, hr.2⟩
      · rename_i hlt hne
        refine List.pairwise_cons.2 ⟨fun k hk => ?_, ih hr.2⟩
        rcases mem_place hk with hk | hk
        · subst hk
          exact String.not_le.1 fun hle => hne (String.le_antisymm hle (String.not_lt.1 hlt))
        · exact hr.1 k hk

/-- The set without images. -/
def empty : ImageSet := ⟨[], List.Pairwise.nil⟩

/-- Adds an image, instead of the one with its name. -/
def insert (s : ImageSet) (i : Image) : ImageSet := ⟨place i s.images, sorted_place s.sorted⟩

/-- The set of some images; of two with one name the later stays. -/
def ofList (images : List Image) : ImageSet := images.foldl insert empty

/-- The set of images that are made one after the other, up to the first that cannot be made. -/
def collect (results : List (Except ResolutionError Image)) : Except ResolutionError ImageSet :=
  results.foldlM (fun s r => r.map s.insert) empty

/-- The image with a logical name. -/
def get? (s : ImageSet) (name : String) : Option Image := s.images.find? (·.name == name)

/-- The image with a logical name; every other name is unknown. -/
def resolve (s : ImageSet) (name : String) : Except ResolutionError Image :=
  match s.get? name with
  | some i => .ok i
  | none => .error (.unknownImage name)

/-- The number of images. -/
def size (s : ImageSet) : Nat := s.images.length

/-- Whether there is no image. -/
def isEmpty (s : ImageSet) : Bool := s.images.isEmpty

/-- The full references, in name order. -/
def references (s : ImageSet) : List String := s.images.map Image.reference

/-- The images that satisfy `p`. -/
def filter (s : ImageSet) (p : Image → Bool) : ImageSet := ⟨s.images.filter p, s.sorted.filter p⟩

end ImageSet

end ImageRelay
