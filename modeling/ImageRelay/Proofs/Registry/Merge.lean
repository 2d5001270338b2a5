import ImageRelay.Proofs.Image.Grammar
import ImageRelay.Proofs.Registry.Location
import ImageRelay.Proofs.Registry.Sorted
import ImageRelay.Proofs.Text.Bytes
import ImageRelay.Registry.Catalog

/-!
# The merge of overrides

What the image set of a version under overrides is, said without the order in which the overrides
are applied.

* `placeOf`: the host and the repository of an image under overrides that are all locations.
* `place_of_ofOverrides`: they are what routing comes to.
* `Merges`: the set, or which of the faults is reported.
* `build_merges`: the set that is built is the merge, and it depends on nothing but the overrides of
  images and of the registry.
-/

set_option autoImplicit false

namespace ImageRelay.Catalog

/-! ## Places under overrides -/

def given? (o : Overrides) (key : String) : Option Location := (o.get? key).bind Location.ofValue?

/-- A key is given the location that its value is the text of. -/
theorem given?_eq_some_iff {o : Overrides} {key : String} {l : Location} :
    given? o key = some l ↔ ∃ value, o.get? key = some value ∧
      ¬ Location.Malformed (Location.stripped value) ∧ Location.stripped value = l.chars ∧
        '/' ∉ l.host := by
  simp only [given?, Option.bind_eq_some_iff, Location.ofValue?_eq_some_iff]

theorem given?_eq (o : Overrides) (key : String) :
    given? o key = (o.get? key).bind Location.parse := by
  simp only [given?, funext Location.parse_eq]

/-- Where the images without a location of their own are: the host of the built-in registry is
looked up before its key. -/
def registryOf (o : Overrides) : Location :=
  ((given? o registryHost).or (given? o registryKey)).getD ⟨registryHost.toList, []⟩

/-- The host and the repository of an image: a path of its own replaces the repository, and the path
of the registry stands before it. -/
def placeOf (o : Overrides) (e : Entry) : String × String :=
  match given? o e.name with
  | some l => (String.ofList l.host, if l.path = [] then e.repository else String.ofList l.path)
  | none =>
    (String.ofList (registryOf o).host,
      if (registryOf o).path = [] then e.repository
      else String.ofList (registryOf o).path ++ "/" ++ e.repository)

def referenceAt (o : Overrides) (v : KubeVersion) (e : Entry) : String :=
  (placeOf o e).1 ++ "/" ++ (placeOf o e).2 ++ ":" ++ v.text

def Located (o : Overrides) : Prop :=
  ∀ key value, o.get? key = some value → ¬ Location.Malformed (Location.stripped value)

/-! ## Routing -/

namespace Routing

theorem isImage_of_mem {e : Entry} (h : e ∈ table) : isImage e.name = true :=
  List.any_eq_true.2 ⟨e, h, beq_self_eq_true _⟩

theorem not_isImage_of_isRegistry {key : String} (h : isRegistry key = true) :
    isImage key = false := by
  rcases Bool.or_eq_true_iff.1 h with h | h <;> rw [eq_of_beq h] <;> decide

theorem override_cases {r r' : Routing} {key value : String}
    (h : override r (key, value) = .ok r') : ∃ l, Location.ofValue? value = some l ∧
      (isImage key = true ∧ r' = { r with images := Keyed.insert key l r.images } ∨
        isRegistry key = true ∧ r' = { r with registry := l } ∨
        isImage key = false ∧ isRegistry key = false ∧ r' = r) := by
  unfold override at h
  split at h
  · cases h
  · rename_i l hl
    refine ⟨l, (Location.parse_eq value).symm.trans hl, ?_⟩
    split at h
    · rename_i hi
      cases h
      exact .inl ⟨hi, rfl⟩
    · rename_i hi
      split at h
      · rename_i hr
        cases h
        exact .inr (.inl ⟨hr, rfl⟩)
      · rename_i hr
        cases h
        exact .inr (.inr ⟨Bool.eq_false_iff.2 hi, Bool.eq_false_iff.2 hr, rfl⟩)

theorem foldlM_cons_cases {r r' : Routing} {e : String × String} {es : List (String × String)}
    (h : (e :: es).foldlM override r = .ok r') :
    ∃ r₁, override r e = .ok r₁ ∧ es.foldlM override r₁ = .ok r' := by
  rw [List.foldlM_cons] at h
  exact bind_eq_ok_iff.1 h

/-- The locations of images that some entries give. -/
theorem images_foldlM {name : String} (hn : isImage name = true) :
    ∀ {es : List (String × String)} {r r' : Routing}, Keyed.Sorted es →
      es.foldlM override r = .ok r' → r'.images.lookup name =
        ((es.lookup name).bind Location.ofValue?).or (r.images.lookup name)
  | [], r, r', _, h => by
    cases h
    rfl
  | (key, value) :: es, r, r', hs, h => by
    obtain ⟨hlt, hrest⟩ := List.pairwise_cons.1 hs
    obtain ⟨r₁, ho, hfold⟩ := foldlM_cons_cases h
    obtain ⟨l, hl, hcase⟩ := override_cases ho
    rw [images_foldlM hn hrest hfold]
    -- a key stands once, so nothing that follows changes what its entry has given
    by_cases hk : name = key
    · subst hk
      have hr₁ : r₁.images = Keyed.insert name l r.images := by
        rcases hcase with ⟨-, rfl⟩ | ⟨hr, -⟩ | ⟨hi, -, -⟩
        · rfl
        · rw [not_isImage_of_isRegistry hr] at hn; cases hn
        · rw [hi] at hn; cases hn
      rw [Keyed.lookup_eq_none_of_lt hlt, hr₁, Keyed.lookup_insert, if_pos rfl]
      simp [hl]
    · rw [Keyed.lookup_cons_of_ne hk]
      rcases hcase with ⟨-, rfl⟩ | ⟨-, rfl⟩ | ⟨-, -, rfl⟩
      · rw [Keyed.lookup_insert, if_neg hk]
      · rfl
      · rfl

/-- The registry that some entries give. Its key comes before its host, so the host has the last
word. -/
theorem registry_foldlM :
    ∀ {es : List (String × String)} {r r' : Routing}, Keyed.Sorted es →
      es.foldlM override r = .ok r' →
      r'.registry = (((es.lookup registryHost).bind Location.ofValue?).or
        ((es.lookup registryKey).bind Location.ofValue?)).getD r.registry
  | [], r, r', _, h => by
    cases h
    rfl
  | (key, value) :: es, r, r', hs, h => by
    obtain ⟨hlt, hrest⟩ := List.pairwise_cons.1 hs
    obtain ⟨r₁, ho, hfold⟩ := foldlM_cons_cases h
    obtain ⟨l, hl, hcase⟩ := override_cases ho
    rw [registry_foldlM hrest hfold]
    by_cases hr : isRegistry key = true
    · have hr₁ : r₁.registry = l := by
        rcases hcase with ⟨hi, -⟩ | ⟨-, rfl⟩ | ⟨-, hr', -⟩
        · rw [not_isImage_of_isRegistry hr] at hi; cases hi
        · rfl
        · rw [hr] at hr'; cases hr'
      rw [hr₁]
      rcases Bool.or_eq_true_iff.1 hr with hk | hk <;> obtain rfl := eq_of_beq hk
      · rw [Keyed.lookup_eq_none_of_lt hlt, Keyed.lookup_cons_of_ne (by decide)]
        cases (es.lookup registryHost).bind Location.ofValue? <;> simp [hl]
      -- behind the entry of the host there is none of the key, which is less
      · have hkey : registryKey < registryHost := by decide
        have hnone : es.lookup registryKey = none :=
          Keyed.lookup_eq_none_of_lt fun e he => String.lt_trans hkey (hlt e he)
        rw [Keyed.lookup_eq_none_of_lt hlt, hnone]
        simp [hl]
    · have hr₁ : r₁.registry = r.registry := by
        rcases hcase with ⟨-, rfl⟩ | ⟨hr', -⟩ | ⟨-, -, rfl⟩
        · rfl
        · exact absurd hr' hr
        · rfl
      have hhost : registryHost ≠ key := fun h' => hr (h' ▸ rfl)
      have hkey : registryKey ≠ key := fun h' => hr (h' ▸ rfl)
      rw [hr₁, Keyed.lookup_cons_of_ne hhost, Keyed.lookup_cons_of_ne hkey]

theorem foldlM_of_located :
    ∀ {es : List (String × String)}, (∀ e ∈ es, Location.parse e.2 ≠ none) →
      ∀ r : Routing, ∃ r', es.foldlM override r = .ok r'
  | [], _, r => ⟨r, rfl⟩
  | e :: es, h, r => by
    obtain ⟨r₁, hr₁⟩ : ∃ r₁, override r e = .ok r₁ := by
      unfold override
      split
      · rename_i hnone
        exact absurd hnone (h e List.mem_cons_self)
      · split
        · exact ⟨_, rfl⟩
        · split <;> exact ⟨_, rfl⟩
    obtain ⟨r', hr'⟩ := foldlM_of_located (fun e' he => h e' (List.mem_cons_of_mem _ he)) r₁
    refine ⟨r', ?_⟩
    rw [List.foldlM_cons, hr₁]
    exact hr'

/-- Routing gives the places that the overrides stand for. -/
theorem place_of_ofOverrides {o : Overrides} {r : Routing} (h : ofOverrides o = .ok r) {e : Entry}
    (he : e ∈ table) : r.place e = placeOf o e := by
  have himages := images_foldlM (isImage_of_mem he) o.sorted h
  have hregistry : r.registry = registryOf o := registry_foldlM o.sorted h
  have hlookup : r.images.lookup e.name = given? o e.name := by
    rw [himages]
    exact Option.or_none
  rw [place, placeOf, hlookup, hregistry]
  cases given? o e.name <;> simp [Location.join]

end Routing

theorem located_iff {o : Overrides} :
    Located o ↔ ∀ e ∈ o.entries, Location.parse e.2 ≠ none := by
  simp only [Located, Overrides.get?, Keyed.lookup_eq_some_iff o.sorted, ne_eq,
    Location.parse_eq_none_iff, Prod.forall]

/-! ## The merge -/

/-- The place of an entry and a version form a reference. -/
structure Fits (o : Overrides) (v : KubeVersion) (e : Entry) : Prop where
  host : HostForm (placeOf o e).1.toList
  repository : RepositoryForm (placeOf o e).2.toList
  tag : TagForm v.text.toList

/-- What comes of a version and overrides. -/
inductive Merges (o : Overrides) (v : KubeVersion) : Except ResolutionError ImageSet → Prop
  /-- Of the keys without a location the least in the order of bytes is reported. -/
  | invalidOverride {key value : String} (hv : o.get? key = some value)
      (hm : Location.Malformed (Location.stripped value))
      (least : ∀ key' value', o.get? key' = some value' →
        Location.Malformed (Location.stripped value') →
        Text.Utf8.encode key ≤ Text.Utf8.encode key') :
      Merges o v (.error (.invalidOverride key value))
  /-- Of the images that form no reference the first of the table is reported. -/
  | invalidReference {before after : List Entry} {e : Entry} {reason : String}
      (hl : Located o) (ht : table = before ++ e :: after) (hb : ∀ b ∈ before, Fits o v b)
      (hf : Image.Verdict e.name (placeOf o e).1 (placeOf o e).2 v.text
        (.error (.invalidReference (referenceAt o v e) reason))) :
      Merges o v (.error (.invalidReference (referenceAt o v e) reason))
  /-- Otherwise there is an image for each entry of the table. -/
  | merged {set : ImageSet} (hl : Located o) (hf : ∀ e ∈ table, Fits o v e)
      (hs : set.images.map (fun i => (i.name, i.host, i.repository, i.tag)) =
        table.map fun e => (e.name, (placeOf o e).1, (placeOf o e).2, v.text)) :
      Merges o v (.ok set)

/-- The fault of the image that an entry comes to. -/
def faultOf (o : Overrides) (v : KubeVersion) (e : Entry) : Option ReferenceFault :=
  ReferenceFault.find? (placeOf o e).1 (placeOf o e).2 v.text

theorem fits_iff {o : Overrides} {v : KubeVersion} {e : Entry} :
    Fits o v e ↔ faultOf o v e = none := by
  constructor
  · rintro ⟨hh, hr, ht⟩
    exact Image.find?_of_forms hh hr ht
  · intro hf
    obtain ⟨hh, hr, ht⟩ := Image.forms ⟨e.name, (placeOf o e).1, (placeOf o e).2, v.text, hf⟩
    exact ⟨hh, hr, ht⟩

theorem image_of_valid {o : Overrides} {v : KubeVersion} {r : Routing} {e : Entry}
    (hp : r.place e = placeOf o e) (hf : faultOf o v e = none) :
    r.image v.text e = .ok ⟨e.name, (placeOf o e).1, (placeOf o e).2, v.text, hf⟩ := by
  rw [Routing.image, hp, Image.make_eq_ok_iff]
  exact ⟨rfl, rfl, rfl, rfl⟩

theorem mapM_image_of_refused {o : Overrides} {v : KubeVersion} {r : Routing} {e : Entry}
    {error : ResolutionError} {after : List Entry}
    (hf : Image.make e.name (placeOf o e).1 (placeOf o e).2 v.text = .error error) :
    ∀ {before : List Entry}, (∀ b ∈ before ++ e :: after, r.place b = placeOf o b) →
      (∀ b ∈ before, faultOf o v b = none) →
      (before ++ e :: after).mapM (r.image v.text) = .error error
  | [], hp, _ => by
    have hfirst : r.image v.text e = .error error := by
      rw [Routing.image, hp e List.mem_cons_self]
      exact hf
    rw [List.nil_append, List.mapM_cons, hfirst]
    rfl
  | b :: before, hp, hb => by
    have hrest := mapM_image_of_refused hf (fun b' h => hp b' (List.mem_cons_of_mem _ h))
      fun b' h => hb b' (List.mem_cons_of_mem _ h)
    rw [List.cons_append, List.mapM_cons,
      image_of_valid (hp b List.mem_cons_self) (hb b List.mem_cons_self), hrest]
    rfl

theorem mapM_image_of_valid {o : Overrides} {v : KubeVersion} {r : Routing} :
    ∀ {es : List Entry}, (∀ e ∈ es, r.place e = placeOf o e) → (∀ e ∈ es, faultOf o v e = none) →
      ∃ images : List Image, es.mapM (r.image v.text) = .ok images ∧
        images.map (fun i => (i.name, i.host, i.repository, i.tag)) =
          es.map fun e => (e.name, (placeOf o e).1, (placeOf o e).2, v.text)
  | [], _, _ => ⟨[], rfl, rfl⟩
  | e :: es, hp, hf => by
    obtain ⟨images, hm, hi⟩ := mapM_image_of_valid (fun e' h => hp e' (List.mem_cons_of_mem _ h))
      fun e' h => hf e' (List.mem_cons_of_mem _ h)
    have he := image_of_valid (hp e List.mem_cons_self) (hf e List.mem_cons_self)
    refine ⟨⟨e.name, (placeOf o e).1, (placeOf o e).2, v.text, hf e List.mem_cons_self⟩ :: images,
      ?_, by simp [hi]⟩
    rw [List.mapM_cons, he, hm]
    rfl

/-! ## What is built -/

theorem build_of_invalidOverride {o : Overrides} (v : KubeVersion) {key value : String}
    (hv : o.get? key = some value) (hm : Location.Malformed (Location.stripped value))
    (least : ∀ key' value', o.get? key' = some value' →
      Location.Malformed (Location.stripped value') →
      Text.Utf8.encode key ≤ Text.Utf8.encode key') :
    build o v = .error (.invalidOverride key value) := by
  have hmem : (key, value) ∈ o.entries := (Keyed.lookup_eq_some_iff o.sorted).1 hv
  obtain ⟨before, after, hcut⟩ := List.append_of_mem hmem
  -- what comes before the least such key is a location
  have hbefore : ∀ e ∈ before, Location.parse e.2 ≠ none := by
    intro e he hnone
    have hlt : e.1 < key := by
      have hs := o.sorted
      rw [hcut, Keyed.Sorted, List.pairwise_append] at hs
      exact hs.2.2 e he (key, value) List.mem_cons_self
    have hget : o.get? e.1 = some e.2 := (Keyed.lookup_eq_some_iff o.sorted).2 <| by
      rw [hcut]
      exact List.mem_append_left _ he
    have hle := least e.1 e.2 hget (Location.parse_eq_none_iff.1 hnone)
    exact hle (Text.Utf8.encode_lt_encode_iff.2 hlt)
  obtain ⟨r, hr⟩ := Routing.foldlM_of_located hbefore Routing.builtIn
  have hroute : Routing.ofOverrides o = .error (.invalidOverride key value) := by
    have hfault : Routing.override r (key, value) = .error (.invalidOverride key value) := by
      rw [Routing.override, Location.parse_eq_none_iff.2 hm]
    rw [Routing.ofOverrides, hcut, List.foldlM_append, hr]
    change ((key, value) :: after).foldlM Routing.override r = _
    rw [List.foldlM_cons, hfault]
    rfl
  rw [build, hroute]
  rfl

theorem build_of_ofOverrides {o : Overrides} {r : Routing} (h : Routing.ofOverrides o = .ok r)
    (v : KubeVersion) : build o v = (table.mapM (r.image v.text)).map ImageSet.ofList := by
  rw [build, h]
  cases hm : table.mapM (r.image v.text) with
  | error fault => exact congrArg (· >>= fun images => pure (ImageSet.ofList images)) hm
  | ok images => exact congrArg (· >>= fun images => pure (ImageSet.ofList images)) hm

/-- Overrides that are locations route every image to its place. -/
theorem ofOverrides_of_located {o : Overrides} (h : Located o) :
    ∃ r, Routing.ofOverrides o = .ok r ∧ ∀ e ∈ table, r.place e = placeOf o e := by
  obtain ⟨r, hr⟩ := Routing.foldlM_of_located (located_iff.1 h) Routing.builtIn
  exact ⟨r, hr, fun e he => Routing.place_of_ofOverrides hr he⟩

theorem build_of_refused {o : Overrides} {v : KubeVersion} {before after : List Entry}
    {e : Entry} {error : ResolutionError} (hl : Located o) (ht : table = before ++ e :: after)
    (hb : ∀ b ∈ before, faultOf o v b = none)
    (hf : Image.make e.name (placeOf o e).1 (placeOf o e).2 v.text = .error error) :
    build o v = .error error := by
  obtain ⟨r, hr, hp⟩ := ofOverrides_of_located hl
  rw [ht] at hp
  have hm := mapM_image_of_refused hf hp hb
  rw [← ht] at hm
  rw [build_of_ofOverrides hr, hm]
  rfl

theorem build_of_valid {o : Overrides} {v : KubeVersion} (hl : Located o)
    (hf : ∀ e ∈ table, faultOf o v e = none) : ∃ set, build o v = .ok set ∧
      set.images.map (fun i => (i.name, i.host, i.repository, i.tag)) =
        table.map fun e => (e.name, (placeOf o e).1, (placeOf o e).2, v.text) := by
  obtain ⟨r, hr, hp⟩ := ofOverrides_of_located hl
  obtain ⟨images, hm, hi⟩ := mapM_image_of_valid hp hf
  have hnames : images.map (·.name) = table.map (·.name) := by
    have hfst := congrArg (List.map (·.1)) hi
    rw [List.map_map, List.map_map] at hfst
    exact hfst
  have hsorted : images.Pairwise (·.name < ·.name) := by
    have htable : (table.map (·.name)).Pairwise (· < ·) := by decide
    rw [← hnames, List.pairwise_map] at htable
    exact htable
  refine ⟨ImageSet.ofList images, ?_, by rw [ImageSet.images_ofList hsorted, hi]⟩
  rw [build_of_ofOverrides hr, hm]
  rfl

theorem images_eq_of_map {is js : List Image}
    (h : is.map (fun i => (i.name, i.host, i.repository, i.tag)) =
      js.map fun i => (i.name, i.host, i.repository, i.tag)) : is = js := by
  refine List.map_inj_right (fun i j hij => ?_) |>.1 h
  obtain ⟨⟩ := i
  obtain ⟨⟩ := j
  simp_all

theorem Merges.build_eq {o : Overrides} {v : KubeVersion} {r : Except ResolutionError ImageSet}
    (m : Merges o v r) : build o v = r := by
  cases m with
  | invalidOverride hv hm least => exact build_of_invalidOverride v hv hm least
  | invalidReference hl ht hb hf =>
    exact build_of_refused hl ht (fun b h => fits_iff.1 (hb b h)) hf.make_eq
  | @merged set hl hf hs =>
    obtain ⟨set', hb, hs'⟩ := build_of_valid hl fun e he => fits_iff.1 (hf e he)
    rw [hb]
    obtain ⟨images, hsorted⟩ := set
    obtain ⟨images', hsorted'⟩ := set'
    obtain rfl := images_eq_of_map (hs'.trans hs.symm)
    rfl

/-- There is always something that comes of overrides. -/
theorem exists_merges (o : Overrides) (v : KubeVersion) : ∃ r, Merges o v r := by
  cases hbad : o.entries.find? fun e => Location.Malformed (Location.stripped e.2) with
  | some e =>
    obtain ⟨hm, before, after, hcut, hbefore⟩ := List.find?_eq_some_iff_append.1 hbad
    have hget : o.get? e.1 = some e.2 := (Keyed.lookup_eq_some_iff o.sorted).2 (by rw [hcut]; simp)
    -- entries are in the order of their keys, so the first malformed one has the least
    refine ⟨_, .invalidOverride hget (by simpa using hm) fun key' value' hv hm' => ?_⟩
    have hmem : (key', value') ∈ before ++ e :: after := by
      rw [← hcut]
      exact (Keyed.lookup_eq_some_iff o.sorted).1 hv
    rcases List.mem_append.1 hmem with hmem | hmem
    · have hno := hbefore _ hmem
      simp [hm'] at hno
    · rcases List.mem_cons.1 hmem with rfl | hmem
      · exact List.le_refl _
      · have hs := o.sorted
        rw [hcut, Keyed.Sorted, List.pairwise_append, List.pairwise_cons] at hs
        have hlt : e.1 < key' := hs.2.1.1 _ hmem
        exact List.le_of_lt (Text.Utf8.encode_lt_encode_iff.2 hlt)
  | none =>
    have hl : Located o := fun key value hv hm => by
      have hno := List.find?_eq_none.1 hbad _ ((Keyed.lookup_eq_some_iff o.sorted).1 hv)
      simp [hm] at hno
    cases hfault : table.find? fun e => (faultOf o v e).isSome with
    | some e =>
      obtain ⟨hf, before, after, hcut, hbefore⟩ := List.find?_eq_some_iff_append.1 hfault
      obtain ⟨fault, hfault'⟩ := Option.isSome_iff_exists.1 hf
      have hverdict := Image.verdict_make e.name (placeOf o e).1 (placeOf o e).2 v.text
      rw [Image.make_of_fault hfault'] at hverdict
      exact ⟨_, .invalidReference hl hcut
        (fun b hb => fits_iff.2 (by simpa using hbefore b hb)) hverdict⟩
    | none =>
      have hf : ∀ e ∈ table, faultOf o v e = none := by simpa using List.find?_eq_none.1 hfault
      obtain ⟨set, -, hs⟩ := build_of_valid hl hf
      exact ⟨_, .merged hl (fun e he => fits_iff.2 (hf e he)) hs⟩

theorem merges_iff {o : Overrides} {v : KubeVersion} {r : Except ResolutionError ImageSet} :
    Merges o v r ↔ build o v = r := by
  refine ⟨Merges.build_eq, fun h => ?_⟩
  obtain ⟨r', m⟩ := exists_merges o v
  rwa [← h, m.build_eq]

/-! ## What the set depends on -/

/-- Two documents say the same of images and of the registry, and all else in them is located. -/
structure Agree (o o' : Overrides) : Prop where
  images : ∀ e ∈ table, o.get? e.name = o'.get? e.name
  host : o.get? registryHost = o'.get? registryHost
  key : o.get? registryKey = o'.get? registryKey
  others : ∀ key value, (∀ e ∈ table, key ≠ e.name) → key ≠ registryHost → key ≠ registryKey →
    o.get? key = some value ∨ o'.get? key = some value →
      ¬ Location.Malformed (Location.stripped value)

theorem Agree.symm {o o' : Overrides} (a : Agree o o') : Agree o' o where
  images e he := (a.images e he).symm
  host := a.host.symm
  key := a.key.symm
  others key value hi hh hk hv := a.others key value hi hh hk hv.symm

/-- What is malformed stands in both documents. -/
theorem Agree.get?_of_malformed {o o' : Overrides} (a : Agree o o') {key value : String}
    (hv : o.get? key = some value) (hm : Location.Malformed (Location.stripped value)) :
    o'.get? key = some value := by
  by_cases hi : ∃ e ∈ table, key = e.name
  · obtain ⟨e, he, rfl⟩ := hi
    rw [← a.images e he, hv]
  · by_cases hh : key = registryHost
    · rw [hh, ← a.host, ← hh, hv]
    · by_cases hk : key = registryKey
      · rw [hk, ← a.key, ← hk, hv]
      · have hother : ∀ e ∈ table, key ≠ e.name := fun e he h => hi ⟨e, he, h⟩
        exact absurd hm (a.others key value hother hh hk (.inl hv))

theorem Agree.located {o o' : Overrides} (a : Agree o o') (h : Located o) : Located o' :=
  fun key value hv hm => h key value (a.symm.get?_of_malformed hv hm) hm

theorem Agree.placeOf_eq {o o' : Overrides} (a : Agree o o') {e : Entry} (he : e ∈ table) :
    placeOf o' e = placeOf o e := by
  have hown : given? o' e.name = given? o e.name := by rw [given?, given?, a.images e he]
  have hregistry : registryOf o' = registryOf o := by
    simp only [registryOf, given?, a.host, a.key]
  rw [placeOf, placeOf, hown, hregistry]

theorem Agree.fits {o o' : Overrides} (a : Agree o o') {v : KubeVersion} {e : Entry}
    (he : e ∈ table) (h : Fits o v e) : Fits o' v e := by
  obtain ⟨hh, hr, ht⟩ := h
  rw [← a.placeOf_eq he] at hh hr
  exact ⟨hh, hr, ht⟩

theorem Agree.merges {o o' : Overrides} (a : Agree o o') {v : KubeVersion}
    {r : Except ResolutionError ImageSet} (m : Merges o v r) : Merges o' v r := by
  cases m with
  | invalidOverride hv hm least =>
    exact .invalidOverride (a.get?_of_malformed hv hm) hm fun key' value' hv' hm' =>
      least key' value' (a.symm.get?_of_malformed hv' hm') hm'
  | @invalidReference before after e reason hl ht hb hf =>
    have hmem : ∀ b ∈ before, b ∈ table := fun b hb => by
      rw [ht]
      exact List.mem_append_left _ hb
    have he : e ∈ table := by simp [ht]
    have hat : referenceAt o v e = referenceAt o' v e := by
      rw [referenceAt, referenceAt, a.placeOf_eq he]
    rw [hat, ← a.placeOf_eq he] at hf
    rw [hat]
    exact .invalidReference (a.located hl) ht (fun b h => a.fits (hmem b h) (hb b h)) hf
  | merged hl hf hs =>
    refine .merged (a.located hl) (fun e he => a.fits he (hf e he)) (hs.trans ?_)
    exact List.map_congr_left fun e he => by rw [a.placeOf_eq he]

/-- **The merge of overrides**: what is built is the merge, whatever the overrides and the version
are; a key is given the location that its value, stripped and not malformed, is the text of; and
documents that agree on the images and on both names of the registry, and have nothing but
locations otherwise, give the same. -/
theorem build_merges (o : Overrides) (v : KubeVersion) :
    (∀ r, Merges o v r ↔ build o v = r) ∧
    (∀ key l, given? o key = some l ↔ ∃ value, o.get? key = some value ∧
      ¬ Location.Malformed (Location.stripped value) ∧ Location.stripped value = l.chars ∧
        '/' ∉ l.host) ∧
    ∀ o', Agree o o' → build o v = build o' v :=
  ⟨fun _ => merges_iff, fun _ _ => given?_eq_some_iff,
    fun _ a => (a.merges (merges_iff.2 rfl)).build_eq.symm⟩

end ImageRelay.Catalog
