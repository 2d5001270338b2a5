import ImageRelay.Command.Images
import ImageRelay.Proofs.Command.Steps

/-!
# Commands that turn to the engine

A command turns to the engine or makes a file only when it has found out all that it needs
(`Ready`): the version, every image set that it works on, and what the user has to say. Until then
it only tells something.

* `Obtains`, `Agreed`: the credentials of a push, and when a deletion goes ahead.
* `Prepares`: steps that only tell something, or go on to an act that they are ready for. They are
  put together by `Prepares.andThen`.
* `acts_when_ready`: what this says of every command, and of its errors.
-/

set_option autoImplicit false

namespace ImageRelay

theorem Selection.resolveVersion_tellAll (sel : Selection) (source : VersionSource) (s : Session)
    (es : List Emission) :
    (sel.resolveVersion source (s.tellAll es)).1 = (sel.resolveVersion source s).1 := by
  unfold Selection.resolveVersion
  split
  · cases Resolution.ofText sel.version <;> rfl
  · rfl

/-- Only the known plugin has a version. -/
theorem Selection.plugin_of_resolveVersion {sel : Selection} {source : VersionSource} {s : Session}
    {v : KubeVersion} (h : (sel.resolveVersion source s).1 = .ok v) : sel.plugin = knownPlugin := by
  unfold Selection.resolveVersion at h
  split at h
  · assumption
  · cases h

namespace Command

/-! ## Preparing steps -/

/-- The step only tells something, or it goes on to an act for which this holds, and then has only
told something before. -/
def Prepares (holds : Step Unit → Prop) (s : Session) (x : Step Unit) : Prop :=
  ∀ es, (∃ es', (x (s.tellAll es)).2 = s.tellAll es') ∨
    ∃ act es', holds act ∧ x (s.tellAll es) = act (s.tellAll es')

section
variable {α : Type} {holds : Step Unit → Prop} {s : Session}

theorem prepares_act {act : Step Unit} (h : holds act) : Prepares holds s act :=
  fun es => .inr ⟨act, es, h, rfl⟩

theorem prepares_tells {x : Step Unit} (hx : x.Tells) : Prepares holds s x := fun es => by
  obtain ⟨es', h⟩ := hx (s.tellAll es)
  exact .inl ⟨es ++ es', by rw [h, s.tellAll_tellAll]⟩

theorem Prepares.andThen {x : Step α} (hx : x.Tells) {f : α → Step Unit}
    (hf : ∀ a es, (x (s.tellAll es)).1 = .ok a → Prepares holds s (f a)) :
    Prepares holds s (x.andThen f) := fun es => by
  rcases hx.cases (s.tellAll es) with ⟨e, es', h⟩ | ⟨a, es', h⟩
  · exact .inl ⟨es ++ es', by rw [Step.andThen_of_error h, s.tellAll_tellAll]⟩
  · rw [Step.andThen_of_ok h, s.tellAll_tellAll]
    exact hf a es (congrArg Prod.fst h) (es ++ es')

end

/-! ## What commands find out -/

/-- The version of a selection. -/
structure Finds (b : Bench) (sel : Selection) (s : Session) (v : KubeVersion) : Prop where
  plugin : sel.plugin = knownPlugin
  version : (sel.resolveVersion b.versions s).1 = .ok v

/-- The image set with the overrides that a path names. -/
def Loads (path : Option String) (v : KubeVersion) (s : Session) (set : ImageSet) : Prop :=
  ∃ o, Catalog.overridesOf path s.files = .ok o ∧ Catalog.build o v = .ok set

/-- An override file is named. -/
def NamesOverride (sel : Selection) : Prop := ∃ path, sel.overrideFile = some path ∧ path ≠ ""

theorem namesOverride_iff {sel : Selection} : NamesOverride sel ↔ sel.hasOverride = true := by
  simp [NamesOverride, Selection.hasOverride, Option.any_eq_true]

/-- The credentials of a push: none without a user name, and otherwise with the password that is
given, or else with the one that is asked for. -/
inductive Obtains (p : Prompts) : Option String → Option String → Credentials → Prop
  | unnamed {username password : Option String} (h : ∀ name, username = some name → name = "") :
      Obtains p username password ⟨"", ""⟩
  | given {name password : String} (hn : name ≠ "") :
      Obtains p (some name) (some password) ⟨name, password⟩
  | asked {name password : String} (hn : name ≠ "")
      (ha : p.password ("Password for " ++ name) = .ok password) :
      Obtains p (some name) none ⟨name, password⟩

theorem credentials_of_unnamed {p : Prompts} {username password : Option String}
    (h : ∀ name, username = some name → name = "") :
    credentials p username password = .ok .anonymous := by
  cases username with
  | none => rfl
  | some name =>
    obtain rfl := h name rfl
    rfl

theorem credentials_of_named {p : Prompts} {name : String} (hn : name ≠ "")
    (password : Option String) : credentials p (some name) password =
      match password with
      | some password => .ok ⟨name, password⟩
      | none => (p.password ("Password for " ++ name)).map (⟨name, ·⟩) := by
  have hname : (some name).filter (!·.isEmpty) = some name := by simp [hn]
  rw [credentials, hname]
  rfl

theorem obtains_iff {p : Prompts} {username password : Option String} {c : Credentials} :
    Obtains p username password c ↔ credentials p username password = .ok c := by
  constructor
  · intro h
    cases h with
    | unnamed h => exact credentials_of_unnamed h
    | given hn => exact credentials_of_named hn _
    | asked hn ha => rw [credentials_of_named hn, ha]; rfl
  · intro h
    by_cases hunnamed : ∀ name, username = some name → name = ""
    · rw [credentials_of_unnamed hunnamed] at h
      cases h
      exact .unnamed hunnamed
    · obtain ⟨name, rfl, hn⟩ : ∃ name, username = some name ∧ name ≠ "" := by
        simpa using hunnamed
      rw [credentials_of_named hn] at h
      cases password with
      | some password =>
        cases h
        exact .given hn
      | none =>
        cases ha : p.password ("Password for " ++ name) with
        | error => rw [ha] at h; cases h
        | ok password =>
          rw [ha] at h
          cases h
          exact .asked hn ha

/-- A deletion goes ahead: the user says so, if there is any need to ask. -/
def Agreed (b : Bench) (yes : Bool) (count : Nat) : Prop :=
  b.settings.behavior.confirmDestructive = true → yes = false → b.dryRun = false →
    b.prompts.confirm ("Delete " ++ toString count ++ " image(s)?") = .ok true

theorem agreed_iff {b : Bench} {yes : Bool} {count : Nat} :
    Agreed b yes count ↔ consent b yes count = .ok true := by
  have hquestion : s!"Delete {count} image(s)?" = "Delete " ++ toString count ++ " image(s)?" := rfl
  rw [Agreed, consent, hquestion]
  cases b.settings.behavior.confirmDestructive <;> cases yes <;> cases b.dryRun <;> simp

/-- The commands that turn to an engine. -/
inductive Work
  | pull
  | download (output : Option String)
  | push (username password : Option String)
  | delete (yes : Bool)

/-- The command for some work. -/
def Work.step (b : Bench) (sel : Selection) : Work → Step Unit
  | pull => Command.pull b sel
  | download output => Command.download b sel output
  | push username password => Command.push b sel username password
  | delete yes => Command.delete b sel yes

/-- A command has found out all that it needs in this session, and what it turns to. -/
inductive Ready (b : Bench) (sel : Selection) (s : Session) : Work → Step Unit → Prop
  | pull {v : KubeVersion} {set : ImageSet} (hv : Finds b sel s v) (hset : Loads none v s set) :
      Ready b sel s .pull (runBatch (Batch.pullAll b.surroundings set))
  | download {output : Option String} {v : KubeVersion} {set : ImageSet} (hd : b.dryRun = false)
      (hv : Finds b sel s v) (hset : Loads none v s set) :
      Ready b sel s (.download output) (saveArchive b set (output.getD v.archiveName))
  | push {username password : Option String} {v : KubeVersion} {source destination : ImageSet}
      {c : Credentials} (hn : NamesOverride sel) (hv : Finds b sel s v)
      (hsource : Loads none v s source) (hdest : Loads sel.overrideFile v s destination)
      (hc : Obtains b.prompts username password c) :
      Ready b sel s (.push username password)
        (runBatch (Batch.pushAll b.surroundings b.options source destination c))
  | delete {yes : Bool} {v : KubeVersion} {set : ImageSet} (hv : Finds b sel s v)
      (hset : Loads sel.overrideFile v s set) (hc : Agreed b yes set.size) :
      Ready b sel s (.delete yes) (runBatch (Batch.deleteAll b.surroundings set))

section
variable {b : Bench} {sel : Selection} {s : Session} {holds : Step Unit → Prop}

theorem prepares_version {f : KubeVersion → Step Unit}
    (hf : ∀ v, Finds b sel s v → Prepares holds s (f v)) :
    Prepares holds s ((sel.resolveVersion b.versions).andThen f) :=
  .andThen (sel.tells_resolveVersion b.versions) fun v es h => by
    rw [sel.resolveVersion_tellAll] at h
    exact hf v ⟨Selection.plugin_of_resolveVersion h, h⟩

theorem prepares_images {path : Option String} {v : KubeVersion} {f : ImageSet → Step Unit}
    (hf : ∀ set, Loads path v s set → Prepares holds s (f set)) :
    Prepares holds s ((Selection.images path v).andThen f) :=
  .andThen (Selection.tells_images path v) fun set _ h => by
    obtain ⟨o, ho, hbuild⟩ := Selection.images_eq_ok_iff.1 h
    exact hf set ⟨o, ho, hbuild⟩

theorem prepares_result {α : Type} {r : Except Chain α} {f : α → Step Unit}
    (hf : ∀ a, r = .ok a → Prepares holds s (f a)) :
    Prepares holds s ((Step.ofResult (r.mapError .ofChain)).andThen f) :=
  .andThen (Step.tells_ofResult _) fun a _ h => hf a (mapError_eq_ok_iff.1 h)

end

/-- A command comes to what it turns to only when it is ready for it. -/
theorem prepares_step (b : Bench) (sel : Selection) (s : Session) (t : Work) :
    Prepares (Ready b sel s t) s (t.step b sel) := by
  cases t with
  | pull =>
    refine prepares_version fun v hv => prepares_images fun set hset => ?_
    exact .andThen (Step.tells_tell _) fun _ _ _ => prepares_act (.pull hv hset)
  | download output =>
    refine prepares_version fun v hv => prepares_images fun set hset => ?_
    dsimp only
    split
    · exact prepares_tells (Step.tells_tell _)
    · rename_i hd
      exact prepares_act (.download (by simpa using hd) hv hset)
  | push username password =>
    rw [Work.step, push]
    split
    · rename_i hn
      refine prepares_version fun v hv => prepares_images fun source hsource =>
        prepares_images fun destination hdest => prepares_result fun c hc => ?_
      exact .andThen (Step.tells_tell _) fun _ _ _ =>
        prepares_act (.push (namesOverride_iff.2 hn) hv hsource hdest (obtains_iff.2 hc))
    · exact prepares_tells (Step.tells_ofResult _)
  | delete yes =>
    refine prepares_version fun v hv => prepares_images fun set hset =>
      prepares_result fun agreed hc => ?_
    split
    · rename_i hagreed
      exact prepares_act (.delete hv hset (agreed_iff.2 (hagreed ▸ hc)))
    · exact prepares_tells (Step.tells_tell _)

/-! ## Commands that are ready -/

/-- However much was told before, the step only tells something and then is this act. -/
def Comes (s : Session) (act x : Step Unit) : Prop :=
  ∀ es, ∃ es', x (s.tellAll es) = act (s.tellAll es')

section
variable {α : Type} {s : Session} {act : Step Unit}

theorem comes_act : Comes s act act := fun es => ⟨es, rfl⟩

theorem Comes.eq {x : Step Unit} (h : Comes s act x) : ∃ es, x s = act (s.tellAll es) := by
  have hcomes := h []
  rwa [s.tellAll_nil] at hcomes

theorem Comes.andThen {x : Step α} (hx : x.Tells) {a : α} {f : α → Step Unit}
    (ha : ∀ es, (x (s.tellAll es)).1 = .ok a) (hf : Comes s act (f a)) :
    Comes s act (x.andThen f) := fun es => by
  obtain ⟨es', htold⟩ := hx (s.tellAll es)
  rw [s.tellAll_tellAll] at htold
  have hok : x (s.tellAll es) = (.ok a, s.tellAll (es ++ es')) := Prod.ext (ha es) htold
  rw [Step.andThen_of_ok hok]
  exact hf (es ++ es')

end

section
variable {b : Bench} {sel : Selection} {s : Session} {act : Step Unit}

theorem Finds.comes {v : KubeVersion} (hv : Finds b sel s v) {f : KubeVersion → Step Unit}
    (hf : Comes s act (f v)) : Comes s act ((sel.resolveVersion b.versions).andThen f) :=
  .andThen (sel.tells_resolveVersion b.versions)
    (fun es => (sel.resolveVersion_tellAll b.versions s es).trans hv.version) hf

theorem Loads.comes {path : Option String} {v : KubeVersion} {set : ImageSet}
    (hset : Loads path v s set) {f : ImageSet → Step Unit} (hf : Comes s act (f set)) :
    Comes s act ((Selection.images path v).andThen f) :=
  .andThen (Selection.tells_images path v) (fun _ => Selection.images_eq_ok_iff.2 hset) hf

theorem comes_result {α : Type} {r : Except Chain α} {a : α} (hr : r = .ok a)
    {f : α → Step Unit} (hf : Comes s act (f a)) :
    Comes s act ((Step.ofResult (r.mapError .ofChain)).andThen f) :=
  .andThen (Step.tells_ofResult _) (fun _ => mapError_eq_ok_iff.2 hr) hf

theorem comes_tell {es : List Emission} {f : Unit → Step Unit} (hf : Comes s act (f ())) :
    Comes s act ((Step.tell es).andThen f) :=
  .andThen (Step.tells_tell es) (fun _ => rfl) hf

theorem Ready.comes {t : Work} (hr : Ready b sel s t act) : Comes s act (t.step b sel) := by
  cases hr with
  | pull hv hset => exact hv.comes (hset.comes (comes_tell comes_act))
  | download hd hv hset =>
    refine hv.comes (hset.comes ?_)
    dsimp only
    rw [if_neg (by simp [hd])]
    exact comes_act
  | push hn hv hsource hdest hc =>
    rw [Work.step, Command.push, if_pos (namesOverride_iff.1 hn)]
    exact hv.comes (hsource.comes (hdest.comes
      (comes_result (obtains_iff.1 hc) (comes_tell comes_act))))
  | delete hv hset hc => exact hv.comes (hset.comes (comes_result (agreed_iff.1 hc) comes_act))

/-- A command that is ready turns to what it is ready for. -/
theorem Ready.step_eq {t : Work} (hr : Ready b sel s t act) :
    ∃ es, t.step b sel s = act (s.tellAll es) := hr.comes.eq

end

/-! ## What commands turn to -/

section
variable {b : Bench} {sel : Selection} {s s' : Session} {t : Work} {act : Step Unit} {f : Failure}

/-- A batch fails with a transfer error only. -/
theorem transfer_of_runBatch {batch : Session → Report × Session}
    (h : (runBatch batch s).1 = .error f) : ∃ e, f = .ofTransfer e := by
  change (batch s).1.check.mapError Failure.ofTransfer = .error f at h
  cases hcheck : (batch s).1.check with
  | error e =>
    rw [hcheck] at h
    exact ⟨e, (Except.error.inj h).symm⟩
  | ok a =>
    rw [hcheck] at h
    cases h

theorem transfer_of_saveArchive {set : ImageSet} {destination : String}
    (h : (saveArchive b set destination s).1 = .error f) : ∃ e, f = .ofTransfer e := by
  unfold saveArchive at h
  split at h
  split at h
  · exact ⟨_, (Except.error.inj h).symm⟩
  · cases h

/-- What a command turns to fails with a transfer error only. -/
theorem Ready.transfer (hr : Ready b sel s t act) (h : (act s').1 = .error f) :
    ∃ e, f = .ofTransfer e := by
  cases hr with
  | pull => exact transfer_of_runBatch h
  | download => exact transfer_of_saveArchive h
  | push => exact transfer_of_runBatch h
  | delete => exact transfer_of_runBatch h

end

/-- **Failing fast**: a command that fails with anything but a transfer error has called no engine
and changed no file. For it only tells something, or it turns to the engine with all found out. -/
theorem acts_when_ready (b : Bench) (sel : Selection) (t : Work) (s : Session) :
    (∀ f, (t.step b sel s).1 = .error f → (∀ e, f.cause ≠ .transfer e) →
      (t.step b sel s).2.requests = s.requests ∧ (t.step b sel s).2.files = s.files) ∧
    ((∃ es, (t.step b sel s).2 = s.tellAll es) ∨
      ∃ act es, Ready b sel s t act ∧ t.step b sel s = act (s.tellAll es)) := by
  have hsplit := prepares_step b sel s t []
  rw [s.tellAll_nil] at hsplit
  refine ⟨fun f hf hcause => ?_, hsplit⟩
  rcases hsplit with ⟨es, h⟩ | ⟨act, es, hready, h⟩
  · rw [h]
    exact ⟨rfl, rfl⟩
  · rw [h] at hf
    obtain ⟨e, rfl⟩ := hready.transfer hf
    exact absurd rfl (hcause e)

/-- A bench without a cluster or a terminal. -/
def offline : Bench where
  engine := DryRun.engine
  versions _ _ := (.error (.root "no cluster"), [])

/-- Two image sets are loaded, and then nobody answers for the password. -/
theorem unanswered_password_calls_nothing :
    ∃ s, (Work.push (some "ci") none).step offline
        { version := "v1.18.0", overrideFile := some "repos.yaml" }
        { files := ⟨[(["repos.yaml"], .file [] false)], []⟩ } =
          (.error (.ofChain (.root "IO error: not a terminal")), s) ∧
      s.requests = [] ∧ s.files = ⟨[(["repos.yaml"], .file [] false)], []⟩ := by
  have hfails : ((Work.push (some "ci") none).step offline
      { version := "v1.18.0", overrideFile := some "repos.yaml" }
      { files := ⟨[(["repos.yaml"], .file [] false)], []⟩ }).1 =
        .error (.ofChain (.root "IO error: not a terminal")) := by
    set_option maxRecDepth 10000 in
    rfl
  have hnothing := (acts_when_ready offline _ (.push (some "ci") none) _).1 _ hfails fun e h => by
    cases h
  generalize (Work.push (some "ci") none).step offline _ _ = out at hfails hnothing ⊢
  obtain ⟨r, s⟩ := out
  cases hfails
  exact ⟨s, rfl, hnothing⟩

end Command

end ImageRelay
