import ImageRelay.Proofs.Batch.Cancellation
import ImageRelay.Proofs.Command.Conclusion
import ImageRelay.Proofs.Engine.DryRun

/-!
# Where a push publishes to

A push is refused without an override file, but not where the overrides leave images at their
built-in places.

* `Reaches`: what a push has found out when its batch begins. Whatever stops it before, the
  engine is not called (`reaches_or_tells`).
* `pushes_upstream_iff`: with some engine an upstream reference is pushed exactly if the
  overrides leave an image at a built-in place.
-/

set_option autoImplicit false

namespace ImageRelay.Command

/-! ## What a push finds out -/

/-- What a push has found out when its batch begins: the version, the overrides, both image sets and
the credentials. -/
structure Reaches (b : Bench) (sel : Selection) (username password : Option String) (s : Session)
    (v : KubeVersion) (o : Overrides) (source destination : ImageSet) (c : Credentials) : Prop where
  named : NamesOverride sel
  version : (sel.resolveVersion b.versions s).1 = .ok v
  overrides : Catalog.overridesOf sel.overrideFile s.files = .ok o
  source : Catalog.build .empty v = .ok source
  destination : Catalog.build o v = .ok destination
  credentials : Obtains b.prompts username password c

section
variable {b : Bench} {sel : Selection} {username password : Option String} {s : Session}
  {v : KubeVersion} {o : Overrides} {source destination : ImageSet} {c : Credentials}

theorem Reaches.starts (h : Reaches b sel username password s v o source destination c) :
    Starts b sel s (.push username password) (.push source destination c) := by
  have hfinds : Finds b sel s v := ⟨Selection.plugin_of_resolveVersion h.version, h.version⟩
  exact .push h.named hfinds ⟨.empty, rfl, h.source⟩ ⟨o, h.overrides, h.destination⟩ h.credentials

/-- A push that has found out all it needs runs its batch, and tells something before and behind. -/
theorem Reaches.push_snd (h : Reaches b sel username password s v o source destination c) :
    ∃ es es', (push b sel username password s).2 =
      (Batch.pushAll b.surroundings b.options source destination c (s.tellAll es)).2.tellAll es' := by
  obtain ⟨es, hstep⟩ := h.starts.step_eq
  exact ⟨es, _, congrArg Prod.snd hstep⟩

/-- Whatever stops a push before its batch, it only tells something. -/
theorem reaches_or_tells (b : Bench) (sel : Selection) (username password : Option String)
    (s : Session) : (∃ es, (push b sel username password s).2 = s.tellAll es) ∨
      ∃ v o source destination c, Reaches b sel username password s v o source destination c := by
  rcases prepares_step b sel s (.push username password) [] with h | ⟨act, es, hready, -⟩
  · rw [s.tellAll_nil] at h
    exact .inl h
  · cases hready with
    | push hn hv hsource hdest hc =>
      obtain ⟨o, ho, hbuild⟩ := hsource
      obtain ⟨o', ho', hbuild'⟩ := hdest
      -- the public images are loaded without a path, so without overrides
      cases ho
      exact .inr ⟨_, o', _, _, _, hn, hv.version, ho', hbuild, hbuild', hc⟩

end

/-! ## What a push publishes -/

/-- A step asks the engine for this call. -/
def Asks (x : Step Unit) (s : Session) (c : Call) : Prop :=
  ∃ new, (x s).2.requests = s.requests ++ new ∧ ∃ r ∈ new, r.call = c

/-- A push publishes under a reference of the upstream set of its version. -/
def PushesUpstream (b : Bench) (sel : Selection) (username password : Option String)
    (s : Session) : Prop :=
  ∃ v upstream reference header, (sel.resolveVersion b.versions s).1 = .ok v ∧
    Catalog.build .empty v = .ok upstream ∧ reference ∈ upstream.references ∧
    Asks (push b sel username password) s (.push reference header)

/-- A push batch asks for pushes of the counterparts only, and for nothing behind a raised token. -/
theorem call_of_pushAll {w : Surroundings} {o : Batch.Options} {source destination : ImageSet}
    {c : Credentials} {s : Session} {new : List Request} {reference header : String}
    (hnew : (Batch.pushAll w o source destination c s).2.requests = s.requests ++ new)
    (h : ∃ r ∈ new, r.call = .push reference header) :
    s.cancelled = false ∧ ∃ t ∈ destination.images, reference = t.reference := by
  obtain ⟨visits, hv⟩ := Batch.publications_pushAll w o source destination c s
  have hcalls : new = visits.flatMap fun v => Moment.calls v.history :=
    List.append_cancel_left (hnew.symm.trans hv.requests)
  obtain ⟨r, hr, hcall⟩ := h
  rw [hcalls] at hr
  obtain ⟨visit, hmem, hr⟩ := List.mem_flatMap.1 hr
  refine ⟨Bool.eq_false_iff.2 fun hs => ?_, ?_⟩
  · -- behind a raised token there are no results, so there are no visits
    have hnone : (Batch.pushAll w o source destination c s).1.results = [] :=
      congrArg Report.results (Batch.run_of_cancelled .push
        (fun p : Image × Image => Batch.pushImage w o c p.1 p.2) (Batch.pairs source destination)
        (s := s.tellAll (Batch.skipped source destination)) hs).1
    have hresults := hv.results
    rw [hnone, List.map_eq_nil_iff] at hresults
    rw [hresults] at hmem
    cases hmem
  · obtain ⟨before, after, hcut⟩ := List.append_of_mem hmem
    have hpub := hv.publishes before visit after hcut
    have hitem : visit.item ∈ Batch.pairs source destination := by
      refine List.mem_of_mem_take (i := visits.length) ?_
      rw [← hv.items]
      exact List.mem_map_of_mem hmem
    refine ⟨visit.item.2, (Batch.mem_pairs.1 hitem).2.1, ?_⟩
    generalize Moment.calls visit.history = calls at hpub hr
    cases hpub with
    | untagged =>
      rw [List.mem_singleton.1 hr] at hcall
      cases hcall
    | tagged _ _ hpush =>
      rcases List.mem_cons.1 hr with rfl | hr
      · cases hcall
      · rw [hpush r hr, Call.push.injEq] at hcall
        exact hcall.1.symm

/-- With the dry-run engine the image of every entry is pushed, wherever it is. -/
theorem Reaches.asks {b : Bench} {sel : Selection} {username password : Option String}
    {s : Session} {v : KubeVersion} {o : Overrides} {source destination : ImageSet}
    {c : Credentials} (h : Reaches b sel username password s v o source destination c)
    (hengine : b.engine = DryRun.engine) (hs : s.cancelled = false) {e : Catalog.Entry}
    (he : e ∈ Catalog.table) :
    Asks (push b sel username password) s
      (.push (Catalog.referenceAt o v e) (Batch.headerOf c)) := by
  obtain ⟨i, hi, hiname, -⟩ := Catalog.exists_image h.source he
  obtain ⟨t, ht, htname, href⟩ := Catalog.exists_image h.destination he
  have hpair : (i, t) ∈ Batch.pairs source destination :=
    Batch.mem_pairs.2 ⟨hi, ht, htname.trans hiname.symm⟩
  have hplan : .push t.reference (Batch.headerOf c) ∈
      (Batch.Duty.push source destination c).plan :=
    List.mem_flatMap.2 ⟨(i, t), hpair, List.mem_cons_of_mem _ List.mem_cons_self⟩
  obtain ⟨es, es', hpush⟩ := h.push_snd
  obtain ⟨hmakes, -, -⟩ := DryRun.rehearses (DryRun.peaceful_surroundings hengine) b.options
    (.push source destination c) (s := s.tellAll es) hs
  rw [href] at hplan
  refine ⟨(Batch.Duty.push source destination c).plan.map (⟨·, false⟩), ?_,
    _, List.mem_map_of_mem hplan, rfl⟩
  rw [hpush]
  exact hmakes

/-- **Where a push publishes to**: with some engine an upstream reference is pushed exactly if the
push comes to its batch with the token not raised, and the overrides leave an image at a place of
the built-in registry that an image of the table has by default. -/
theorem pushes_upstream_iff (b : Bench) (sel : Selection) (username password : Option String)
    (s : Session) :
    (∃ engine, PushesUpstream { b with engine } sel username password s) ↔
      s.cancelled = false ∧ ∃ v o source destination c,
        Reaches b sel username password s v o source destination c ∧
        ∃ e ∈ Catalog.table, Catalog.IsBuiltIn (Catalog.placeOf o e) := by
  constructor
  · rintro ⟨engine, v, upstream, reference, header, hver, hup, hmem, new, hnew, hask⟩
    rcases reaches_or_tells { b with engine } sel username password s with
      ⟨es, htells⟩ | ⟨v', o, source, destination, c, h⟩
    · rw [htells] at hnew
      obtain rfl : new = [] := List.append_right_eq_self.1 hnew.symm
      obtain ⟨r, hr, -⟩ := hask
      cases hr
    · obtain rfl : v = v' := Except.ok.inj (hver.symm.trans h.version)
      obtain ⟨es, es', hpush⟩ := h.push_snd
      rw [hpush] at hnew
      obtain ⟨hs, t, ht, rfl⟩ := call_of_pushAll (s := s.tellAll es) hnew hask
      obtain ⟨e, he, -, hplace, -⟩ := Catalog.exists_entry h.destination ht
      have hbuilt := Catalog.isBuiltIn_of_mem_references hup hmem
      exact ⟨hs, v, o, source, destination, c,
        ⟨h.named, h.version, h.overrides, h.source, h.destination, h.credentials⟩, e, he,
        hplace ▸ hbuilt⟩
  · rintro ⟨hs, v, o, source, destination, c, h, e, he, hbuilt⟩
    have h' : Reaches { b with engine := DryRun.engine } sel username password s v o source
        destination c :=
      ⟨h.named, h.version, h.overrides, h.source, h.destination, h.credentials⟩
    exact ⟨DryRun.engine, v, source, _, _, h.version, h.source,
      Catalog.mem_references_of_isBuiltIn h.source hbuilt, h'.asks rfl hs he⟩

/-- An empty override file is one, and all images are pushed to where they come from. -/
theorem empty_document_pushes_upstream :
    PushesUpstream
      { engine := DryRun.engine, versions := fun _ _ => (.error (.root "no cluster"), []) }
      { version := "v1.18.0", overrideFile := some "repos.yaml" } none none
      { files := ⟨[(["repos.yaml"], .file [] false)], []⟩ } := by
  obtain ⟨source, hbuild⟩ := Catalog.exists_release
  have he : (⟨"conformance", "conformance"⟩ : Catalog.Entry) ∈ Catalog.table := by decide
  have hbuilt : Catalog.IsBuiltIn (Catalog.placeOf .empty ⟨"conformance", "conformance"⟩) :=
    ⟨_, he, Catalog.placeOf_empty _⟩
  exact ⟨_, source, _, _, rfl, hbuild, Catalog.mem_references_of_isBuiltIn hbuild hbuilt,
    Reaches.asks ⟨⟨"repos.yaml", rfl, by decide⟩, rfl, rfl, hbuild, hbuild, .unnamed (by simp)⟩
      rfl rfl he⟩

end ImageRelay.Command
