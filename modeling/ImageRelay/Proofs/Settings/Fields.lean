import ImageRelay.Proofs.Toml.Continuation
import ImageRelay.Settings.Basic

/-!
# What a text sets

Settings that are read from a text have the values that the text gives and the defaults elsewhere,
in whichever way a value is missing, and nothing else in the text matters.

* `Field`: a field of the settings, with its value and what a document gives for it.
* `known`: the part of a document that settings are read from.
* `settings_given`: what holds of every text that is read.
-/

set_option autoImplicit false

namespace ImageRelay.Settings

open Toml (Value Entries)

/-! ## Sections -/

/-- The sections, with the names of their fields in order. -/
def sections : List (String × List String) :=
  [("defaults", ["kubernetes_version", "plugin", "override_file"]), ("engine", ["runtime"]),
    ("behavior", ["confirm_destructive", "show_progress"]),
    ("push", ["retries", "retry_backoff_secs"])]

/-- The names of the fields of a section. -/
def namesIn (name : String) : List String := (sections.lookup name).getD []

/-- The value of a field in a section: by its name in a table, by its index in an array. -/
def held? (name : String) (index : Nat) : Value → Option Value
  | .table _ entries => entries.lookup name
  | .array items _ => items[index]?
  | _ => none

/-- The values of the fields of a section that may be missing. -/
def sectionFields? (names : List String) : Option Value → Option (List (Option Value))
  | none => some (names.map fun _ => none)
  | some v => fields? names v

/-- What is read of a section without fields are the defaults of a section that is missing: the two
places in which defaults stand agree. -/
theorem read?_none :
    Defaults.read? [none, none, none] = some {} ∧ EngineChoice.read? [none] = some {} ∧
      Behavior.read? [none, none] = some {} ∧ PushPolicy.read? [none, none] = some {} :=
  ⟨rfl, rfl, rfl, rfl⟩

/-- A missing section is one without fields, if its default is what is read then. -/
theorem section?_eq {α : Type} {fallback : α} {names : List String}
    {read : List (Option Value) → Option α}
    (hread : read (names.map fun _ => none) = some fallback)
    (v : Option Value) : section? fallback names read v = (sectionFields? names v).bind read := by
  cases v with
  | none => exact hread.symm
  | some v => rfl

theorem sectionFields?_eq_some {names : List String} {v : Option Value} {vs : List (Option Value)}
    (h : sectionFields? names v = some vs) :
    vs = names.zipIdx.map fun p => v.bind (held? p.1 p.2) := by
  have hname (f : String → Option Value) : names.map f = names.zipIdx.map fun p => f p.1 := by
    rw [← Function.comp_def f Prod.fst, ← List.map_map, List.zipIdx_map_fst]
  have hindex (f : Nat → Option Value) :
      (List.range names.length).map f = names.zipIdx.map fun p => f p.2 := by
    rw [← Function.comp_def f Prod.snd, ← List.map_map, List.zipIdx_map_snd, List.range_eq_range']
  cases v with
  | none =>
    cases h
    exact hname _
  | some v =>
    rw [sectionFields?] at h
    unfold fields? at h
    split at h
    · split at h
      · cases h
        exact hname _
      · cases h
    · cases h
      exact hindex _
    · cases h
      exact hname _
    · cases h

/-! ## Fields -/

/-- A field of the settings. -/
inductive Field
  | kubernetesVersion
  | plugin
  | overrideFile
  | runtime
  | confirmDestructive
  | showProgress
  | retries
  | retryBackoffSecs

namespace Field

/-- The section of a field, its name there, and its index among the fields there. -/
def place : Field → String × String × Nat
  | kubernetesVersion => ("defaults", "kubernetes_version", 0)
  | plugin => ("defaults", "plugin", 1)
  | overrideFile => ("defaults", "override_file", 2)
  | runtime => ("engine", "runtime", 0)
  | confirmDestructive => ("behavior", "confirm_destructive", 0)
  | showProgress => ("behavior", "show_progress", 1)
  | retries => ("push", "retries", 0)
  | retryBackoffSecs => ("push", "retry_backoff_secs", 1)

/-- The value that settings have in a field, none if it is not set. -/
def value? (s : Settings) : Field → Option Value
  | kubernetesVersion => some (.string s.defaults.kubernetesVersion)
  | plugin => some (.string s.defaults.plugin)
  | overrideFile => s.defaults.overrideFile.map .string
  | runtime => s.engine.runtime.map .string
  | confirmDestructive => some (.boolean s.behavior.confirmDestructive)
  | showProgress => some (.boolean s.behavior.showProgress)
  | retries => some (.integer s.push.retries.toNat)
  | retryBackoffSecs => some (.integer s.push.retryBackoffSecs.toNat)

/-- The value that a document gives for a field. -/
def given? (root : Entries) (f : Field) : Option Value :=
  (root.lookup f.place.1).bind (held? f.place.2.1 f.place.2.2)

end Field

/-- Settings are the same if all their fields are. -/
theorem eq_of_value? {s s' : Settings} (h : ∀ f, Field.value? s f = Field.value? s' f) :
    s = s' := by
  obtain ⟨⟨version, plugin, overrideFile⟩, ⟨runtime⟩, ⟨confirm, progress⟩, retries, backoff⟩ := s
  obtain ⟨⟨version', plugin', overrideFile'⟩, ⟨runtime'⟩, ⟨confirm', progress'⟩,
    retries', backoff'⟩ := s'
  have hoverride := Option.map_inj_right (fun _ _ => Value.string.inj) |>.1 (h .overrideFile)
  have hruntime := Option.map_inj_right (fun _ _ => Value.string.inj) |>.1 (h .runtime)
  have hversion := Value.string.inj (Option.some.inj (h .kubernetesVersion))
  have hplugin := Value.string.inj (Option.some.inj (h .plugin))
  have hconfirm := Value.boolean.inj (Option.some.inj (h .confirmDestructive))
  have hprogress := Value.boolean.inj (Option.some.inj (h .showProgress))
  have hretries := Value.integer.inj (Option.some.inj (h .retries))
  have hbackoff := Value.integer.inj (Option.some.inj (h .retryBackoffSecs))
  obtain rfl := UInt32.toNat_inj.1 (Int.ofNat.inj hretries)
  obtain rfl := UInt64.toNat_inj.1 (Int.ofNat.inj hbackoff)
  dsimp only at hoverride hruntime hversion hplugin hconfirm hprogress
  rw [hoverride, hruntime, hversion, hplugin, hconfirm, hprogress]

/-! ## Reading fields -/

/-- What is read from a value is written as that value. -/
def Writes {α : Type} (read : Value → Option α) (write : α → Option Value) : Prop :=
  ∀ ⦃v x⦄, read v = some x → write x = some v

theorem writes_text : Writes text? fun s => some (.string s) := by
  intro v s h
  cases v <;> cases h
  rfl

theorem writes_optional : Writes (fun v => (text? v).map some) (Option.map Value.string) := by
  intro v s h
  obtain ⟨x, hx, rfl⟩ := Option.map_eq_some_iff.1 h
  exact writes_text hx

theorem writes_boolean : Writes boolean? fun b => some (.boolean b) := by
  intro v b h
  cases v <;> cases h
  rfl

theorem below?_eq_some {bound n : Nat} {v : Value} (h : below? bound v = some n) :
    v = .integer n ∧ n < bound := by
  unfold below? at h
  split at h
  · split at h
    · rename_i hn
      cases h
      exact ⟨rfl, hn⟩
    · cases h
  · cases h

theorem writes_word : Writes (fun v => (below? UInt32.size v).map UInt32.ofNat)
    fun n => some (.integer n.toNat) := by
  intro v x h
  obtain ⟨n, hn, rfl⟩ := Option.map_eq_some_iff.1 h
  obtain ⟨rfl, hlt⟩ := below?_eq_some hn
  dsimp only
  rw [UInt32.toNat_ofNat_of_lt' hlt]

theorem writes_longWord : Writes (fun v => (below? UInt64.size v).map UInt64.ofNat)
    fun n => some (.integer n.toNat) := by
  intro v x h
  obtain ⟨n, hn, rfl⟩ := Option.map_eq_some_iff.1 h
  obtain ⟨rfl, hlt⟩ := below?_eq_some hn
  dsimp only
  rw [UInt64.toNat_ofNat_of_lt' hlt]

/-- A field has the value that is given, or its default. -/
theorem Writes.field?_eq_some {α : Type} {fallback x : α} {read : Value → Option α}
    {write : α → Option Value} (hw : Writes read write) {v : Option Value}
    (h : field? fallback read v = some x) : write x = v.or (write fallback) := by
  cases v with
  | none =>
    cases h
    rfl
  | some v => exact hw h

/-! ## Documents -/

/-- What a document has for the fields of one of its sections. -/
def givenIn? (root : Entries) (name : String) : Option (List (Option Value)) :=
  sectionFields? (namesIn name) (root.lookup name)

/-- The entries of a document that are no sections. -/
def others (root : Entries) : Entries :=
  root.filter fun e => !(sections.map (·.1)).contains e.1

/-- Settings are read from the four sections; what else a document has only has to be within the
limits. -/
structure ReadFrom (root : Entries) (s : Settings) : Prop where
  fits : Value.entriesFit (others root) = true
  defaults : (givenIn? root "defaults").bind Defaults.read? = some s.defaults
  engine : (givenIn? root "engine").bind EngineChoice.read? = some s.engine
  behavior : (givenIn? root "behavior").bind Behavior.read? = some s.behavior
  push : (givenIn? root "push").bind PushPolicy.read? = some s.push

theorem ofEntries?_eq_some_iff {root : Entries} {s : Settings} :
    ofEntries? root = some s ↔ ReadFrom root s := by
  have hfields : fields? ["defaults", "engine", "behavior", "push"] (.table .header root) =
      if Value.entriesFit (others root) then
        some [root.lookup "defaults", root.lookup "engine", root.lookup "behavior",
          root.lookup "push"] else none := rfl
  obtain ⟨hnoDefaults, hnoEngine, hnoBehavior, hnoPush⟩ := read?_none
  have hdefaults (v : Option Value) : section? {} ["kubernetes_version", "plugin", "override_file"]
      Defaults.read? v = (sectionFields? (namesIn "defaults") v).bind Defaults.read? := by
    apply section?_eq
    exact hnoDefaults
  have hengine (v : Option Value) : section? {} ["runtime"] EngineChoice.read? v =
      (sectionFields? (namesIn "engine") v).bind EngineChoice.read? := by
    apply section?_eq
    exact hnoEngine
  have hbehavior (v : Option Value) : section? {} ["confirm_destructive", "show_progress"]
      Behavior.read? v = (sectionFields? (namesIn "behavior") v).bind Behavior.read? := by
    apply section?_eq
    exact hnoBehavior
  have hpush (v : Option Value) : section? {} ["retries", "retry_backoff_secs"] PushPolicy.read? v =
      (sectionFields? (namesIn "push") v).bind PushPolicy.read? := by
    apply section?_eq
    exact hnoPush
  rw [ofEntries?, hfields]
  split
  · rename_i hfits
    simp only [Option.bind_eq_bind, Option.bind_some]
    rw [hdefaults, hengine, hbehavior, hpush]
    constructor
    · intro h
      obtain ⟨d, hd, h⟩ := Option.bind_eq_some_iff.1 h
      obtain ⟨e, he, h⟩ := Option.bind_eq_some_iff.1 h
      obtain ⟨b, hb, h⟩ := Option.bind_eq_some_iff.1 h
      obtain ⟨p, hp, ⟨⟩⟩ := Option.bind_eq_some_iff.1 h
      exact ⟨hfits, hd, he, hb, hp⟩
    · intro h
      have hd := h.defaults
      have he := h.engine
      have hb := h.behavior
      have hp := h.push
      simp only [givenIn?] at hd he hb hp
      rw [hd, he, hb, hp]
      rfl
  · rename_i hfits
    exact ⟨nofun, fun h => absurd h.fits hfits⟩

/-- Settings are read from any document that has the same for the fields of all sections. -/
theorem ReadFrom.congr {root root' : Entries} {s : Settings} (h : ReadFrom root s)
    (hfits : Value.entriesFit (others root') = true)
    (hgiven : ∀ name ∈ sections.map (·.1), ∀ vs, givenIn? root name = some vs →
      givenIn? root' name = some vs) : ReadFrom root' s := by
  have hsame {α : Type} {name : String} (hname : name ∈ sections.map (·.1))
      {read : List (Option Value) → Option α} {x : α}
      (hx : (givenIn? root name).bind read = some x) :
      (givenIn? root' name).bind read = some x := by
    obtain ⟨vs, hvs, hread⟩ := Option.bind_eq_some_iff.1 hx
    exact Option.bind_eq_some_iff.2 ⟨vs, hgiven name hname vs hvs, hread⟩
  exact ⟨hfits, hsame (by decide) h.defaults, hsame (by decide) h.engine,
    hsame (by decide) h.behavior, hsame (by decide) h.push⟩

/-- The fields of a section, as they are read. -/
theorem read_held {α : Type} {root : Entries} {name : String}
    {read : List (Option Value) → Option α} {x : α} (h : (givenIn? root name).bind read = some x) :
    read ((namesIn name).zipIdx.map fun p => (root.lookup name).bind (held? p.1 p.2)) = some x := by
  obtain ⟨vs, hvs, hread⟩ := Option.bind_eq_some_iff.1 h
  rw [← sectionFields?_eq_some hvs]
  exact hread

/-- Every field has the value that the document gives, or its default. -/
theorem ReadFrom.value?_eq {root : Entries} {s : Settings} (h : ReadFrom root s) (f : Field) :
    f.value? s = (f.given? root).or (f.value? {}) := by
  have hdefaults : Defaults.read? [Field.kubernetesVersion.given? root, Field.plugin.given? root,
      Field.overrideFile.given? root] = some s.defaults := read_held h.defaults
  have hengine : EngineChoice.read? [Field.runtime.given? root] = some s.engine :=
    read_held h.engine
  have hbehavior : Behavior.read? [Field.confirmDestructive.given? root,
      Field.showProgress.given? root] = some s.behavior := read_held h.behavior
  have hpush : PushPolicy.read? [Field.retries.given? root, Field.retryBackoffSecs.given? root] =
      some s.push := read_held h.push
  simp only [Defaults.read?, EngineChoice.read?, Behavior.read?, PushPolicy.read?,
    Option.bind_eq_bind, Option.bind_eq_some_iff] at hdefaults hengine hbehavior hpush
  obtain ⟨version, hversion, plugin, hplugin, overrideFile, hoverride, hd⟩ := hdefaults
  obtain ⟨runtime, hruntime, he⟩ := hengine
  obtain ⟨confirm, hconfirm, progress, hprogress, hb⟩ := hbehavior
  obtain ⟨retries, hretries, backoff, hbackoff, hp⟩ := hpush
  obtain ⟨d, e, b, p⟩ := s
  cases hd
  cases he
  cases hb
  cases hp
  cases f with
  | kubernetesVersion => exact writes_text.field?_eq_some hversion
  | plugin => exact writes_text.field?_eq_some hplugin
  | overrideFile => exact writes_optional.field?_eq_some hoverride
  | runtime => exact writes_optional.field?_eq_some hruntime
  | confirmDestructive => exact writes_boolean.field?_eq_some hconfirm
  | showProgress => exact writes_boolean.field?_eq_some hprogress
  | retries => exact writes_word.field?_eq_some hretries
  | retryBackoffSecs => exact writes_longWord.field?_eq_some hbackoff

/-! ## What does not matter -/

/-- A section without the entries that are no fields. -/
def prune (names : List String) : Value → Value
  | .table origin entries => .table origin (entries.filter fun e => names.contains e.1)
  | v => v

/-- The part of a document that settings are read from. -/
def known (root : Entries) : Entries :=
  root.filterMap fun e => (sections.lookup e.1).map fun names => (e.1, prune names e.2)

theorem lookup_filter_of_pos {p : String → Bool} {key : String} (h : p key = true) (es : Entries) :
    (es.filter fun e => p e.1).lookup key = es.lookup key := by
  induction es with
  | nil => rfl
  | cons e es ih =>
    obtain ⟨k, v⟩ := e
    by_cases hk : key = k
    · subst hk
      simp [h]
    · have hkey : (key == k) = false := by simpa using hk
      cases hp : p k <;> simp [hp, hkey, ih, List.lookup_cons]

theorem fields?_prune {names : List String} {v : Value} {vs : List (Option Value)}
    (h : fields? names v = some vs) : fields? names (prune names v) = some vs := by
  cases v with
  | table origin entries =>
    have hnone : (entries.filter fun e => names.contains e.1).filter
        (fun e => !names.contains e.1) = [] := by
      simp [List.filter_filter]
    have hlookup : (names.map fun n => (entries.filter fun e => names.contains e.1).lookup n) =
        names.map fun n => entries.lookup n :=
      List.map_congr_left fun n hn => lookup_filter_of_pos (by simpa using hn) entries
    simp only [fields?] at h
    split at h
    · simp only [prune, fields?, hnone, hlookup]
      exact h
    · cases h
  | _ => exact h

theorem lookup_known {name : String} {names : List String} (h : sections.lookup name = some names)
    (root : Entries) : (known root).lookup name = (root.lookup name).map (prune names) := by
  induction root with
  | nil => rfl
  | cons e root ih =>
    obtain ⟨k, v⟩ := e
    unfold known at ih ⊢
    rw [List.filterMap_cons]
    by_cases hk : name = k
    · subst hk
      simp [h]
    · have hkey : (name == k) = false := by simpa using hk
      cases sections.lookup k <;> simp [hkey, ih, List.lookup_cons]

theorem others_known (root : Entries) : others (known root) = [] := by
  refine List.filter_eq_nil_iff.2 fun e he => ?_
  obtain ⟨e', -, hsome⟩ := List.mem_filterMap.1 he
  obtain ⟨names, hnames, rfl⟩ := Option.map_eq_some_iff.1 hsome
  obtain ⟨front, back, hcut, -⟩ := List.lookup_eq_some_iff.1 hnames
  have hmem : e'.1 ∈ sections.map (·.1) := by simp [hcut]
  simpa using hmem

theorem lookup_sections {name : String} (h : name ∈ sections.map (·.1)) :
    sections.lookup name = some (namesIn name) := by
  revert name
  decide

theorem ReadFrom.known {root : Entries} {s : Settings} (h : ReadFrom root s) :
    ReadFrom (known root) s := by
  refine h.congr (by rw [others_known]; rfl) fun name hname vs hvs => ?_
  rw [givenIn?, lookup_known (lookup_sections hname)]
  unfold givenIn? at hvs
  cases hlookup : root.lookup name with
  | none => rwa [hlookup] at hvs
  | some v =>
    rw [hlookup] at hvs
    exact fields?_prune hvs

/-! ## Sections that are added -/

/-- A section without fields. -/
inductive IsEmpty : Value → Prop
  | table (origin : Toml.Origin) : IsEmpty (.table origin [])
  | array (ofTables : Bool) : IsEmpty (.array [] ofTables)

theorem IsEmpty.sectionFields? {v : Value} (h : IsEmpty v) (names : List String) :
    sectionFields? names (some v) = sectionFields? names none := by
  cases h with
  | table => rfl
  | array ofTables =>
    have hnone : (List.range names.length).map (([] : List Value)[·]?) =
        names.map fun _ => none := by simp [List.map_const']
    exact congrArg some hnone

theorem entriesFit_append (es es' : Entries) :
    Value.entriesFit (es ++ es') = (Value.entriesFit es && Value.entriesFit es') := by
  induction es with
  | nil => rfl
  | cons e es ih => simp [Value.entriesFit, ih, Bool.and_assoc]

theorem lookup_insert {front back : Entries} {name : String}
    (hn : (front ++ back).lookup name = none) (v : Value) (key : String) :
    (front ++ (name, v) :: back).lookup key =
      if key = name then some v else (front ++ back).lookup key := by
  induction front with
  | nil =>
    by_cases hk : key = name
    · simp [hk]
    · have hkey : (key == name) = false := by simpa using hk
      simp [hk, hkey, List.lookup_cons]
  | cons e front ih =>
    obtain ⟨k, w⟩ := e
    rw [List.cons_append, List.lookup_cons] at hn ⊢
    rw [List.cons_append, List.lookup_cons]
    cases hname : name == k with
    | true => simp [hname] at hn
    | false =>
      simp only [hname] at hn
      cases hkey : key == k with
      | true =>
        have hne : key ≠ name := by
          rintro rfl
          simp [hname] at hkey
        simp [hne]
      | false => exact ih hn

/-- An empty section may stand anywhere in a document that does not have it. -/
theorem ReadFrom.insert {front back : Entries} {s : Settings} (h : ReadFrom (front ++ back) s)
    {name : String} (hn : (front ++ back).lookup name = none) {v : Value} (hv : IsEmpty v) :
    ReadFrom (front ++ (name, v) :: back) s := by
  have hfits := h.fits
  have hempty : v.fits = true := by cases hv <;> rfl
  refine h.congr ?_ fun key hkey vs hvs => ?_
  · simp only [others, List.filter_append, entriesFit_append, Bool.and_eq_true] at hfits ⊢
    refine ⟨hfits.1, ?_⟩
    rw [List.filter_cons]
    split
    · rw [Value.entriesFit, hempty, hfits.2]
      rfl
    · exact hfits.2
  · unfold givenIn? at hvs ⊢
    rw [lookup_insert hn]
    split
    · rename_i hname
      rw [hname, hn] at hvs
      rw [hname, hv.sectionFields?, hvs]
    · exact hvs

/-- **Settings are what the text gives and the defaults elsewhere**, whichever way a value is
missing. Texts that are read and give the same for every field set the same, whatever other sections
and keys they have. So does a text with the document that is left without these, one with an empty
section more anywhere in the document, and the text with a further header behind it. -/
theorem settings_given {text : String} {s : Settings} (h : parse? text = some s) :
    ∃ root, Toml.parse? text = some root ∧
      (∀ f : Field, f.value? s = (f.given? root).or (f.value? {})) ∧
      (∀ text' root' s', Toml.parse? text' = some root' → parse? text' = some s' →
        (∀ f : Field, f.given? root' = f.given? root) → s' = s) ∧
      (∀ text', Toml.parse? text' = some (known root) → parse? text' = some s) ∧
      (∀ text' front back name v, front ++ back = root → root.lookup name = none → IsEmpty v →
        Toml.parse? text' = some (front ++ (name, v) :: back) → parse? text' = some s) ∧
      ∀ (line name : String), Toml.Says line.toList (.header [name]) → root.lookup name = none →
        parse? (text ++ s!"\n{line}\n") = some s := by
  obtain ⟨root, hroot, hs⟩ := Option.bind_eq_some_iff.1 h
  have hread := ofEntries?_eq_some_iff.1 hs
  have hsame {text' : String} {root' : Entries} (hroot' : Toml.parse? text' = some root')
      (h' : ReadFrom root' s) : parse? text' = some s :=
    Option.bind_eq_some_iff.2 ⟨root', hroot', ofEntries?_eq_some_iff.2 h'⟩
  refine ⟨root, hroot, hread.value?_eq, fun text' root' s' hroot' h' hgiven => ?_,
    fun text' hroot' => hsame hroot' hread.known,
    fun text' front back name v hcut hn hv hroot' => ?_, fun line name hl hn => ?_⟩
  · obtain ⟨_, hroot'', hs'⟩ := Option.bind_eq_some_iff.1 h'
    obtain rfl := Option.some.inj (hroot'.symm.trans hroot'')
    have hread' := ofEntries?_eq_some_iff.1 hs'
    exact eq_of_value? fun f => by rw [hread'.value?_eq, hread.value?_eq, hgiven]
  · subst hcut
    exact hsame hroot' (hread.insert hn hv)
  · rw [← root.append_nil] at hread hn
    exact hsame (Toml.parse?_append_header hroot hl (by simpa using hn))
      (hread.insert hn (.table .header))

/-- A section that is given as an array which is too short, and a section that is added. -/
theorem short_array_given :
    parse? ("push=[3]" ++ "\n[engine]\n") = some { push := { retries := 3 } } := by
  have hparse : parse? "push=[3]" = some { push := { retries := 3 } } := by decide +kernel
  have hnone : (Toml.parse? "push=[3]").all (fun root => (root.lookup "engine").isNone) = true := by
    decide +kernel
  obtain ⟨root, hroot, -, -, -, -, hheader⟩ := settings_given hparse
  have hlookup : root.lookup "engine" = none := by simpa [hroot] using hnone
  have hname : Toml.IsBare "engine" := Toml.isBare_of_all rfl rfl
  exact hheader "[engine]" "engine" (Toml.says_header hname) hlookup

end ImageRelay.Settings
