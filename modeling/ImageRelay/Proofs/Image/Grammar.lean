import ImageRelay.Image

/-!
# What forms a reference

The forms of a host, a repository and a tag, said without automata (`HostForm`, `RepositoryForm`,
`TagForm`), and that the automata read exactly these (`isHost_iff`, `isComponent_iff`, `isTag_iff`).
An automaton says of the text read so far what its state stands for (`HostState.Reads`,
`ComponentState.Reads`); one step keeps this, so a whole reading does (`reads_of_foldlM`).

`make_eq_iff`: what comes of four parts, with the first of their faults by precedence.
-/

set_option autoImplicit false

namespace ImageRelay

/-- What holds of the first state, and is kept by every step for the text read so far, holds of the
last state for the whole text. -/
theorem reads_of_foldlM {σ : Type} {next : σ → Char → Option σ} {Reads : σ → List Char → Prop}
    (hstep : ∀ {q q' s c}, Reads q s → next q c = some q' → Reads q' (s ++ [c])) :
    ∀ {s : List Char} {past : List Char} {q q' : σ}, Reads q past → s.foldlM next q = some q' →
      Reads q' (past ++ s)
  | [], past, q, q', hq, h => by
    obtain rfl : q = q' := Option.some.inj h
    rwa [List.append_nil]
  | c :: s, past, q, q', hq, h => by
    rw [List.foldlM_cons] at h
    obtain ⟨q₁, h₁, hs⟩ := Option.bind_eq_some_iff.1 h
    rw [List.append_cons]
    exact reads_of_foldlM hstep (hstep hq h₁) hs

/-! ## Hosts -/

/-- A character of the name of a host. -/
def IsNameChar (c : Char) : Prop := c.isAlphanum = true ∨ c = '.' ∨ c = '-'

instance (c : Char) : Decidable (IsNameChar c) := inferInstanceAs (Decidable (_ ∨ _ ∨ _))

/-- The name of a host: letters, digits, `.` and `-`, with a letter or digit at both ends. -/
structure HostName (s : List Char) : Prop where
  begins : ∃ c r, s = c :: r ∧ c.isAlphanum = true
  ends : ∃ r c, s = r ++ [c] ∧ c.isAlphanum = true
  chars : ∀ c ∈ s, IsNameChar c

/-- The end of a host: nothing, or a colon and the digits of a port. -/
def PortForm (s : List Char) : Prop :=
  s = [] ∨ ∃ digits, digits ≠ [] ∧ (∀ d ∈ digits, d.isDigit = true) ∧ s = ':' :: digits

/-- A host: a name, and a port if there is one. -/
def HostForm (s : List Char) : Prop := ∃ name port, s = name ++ port ∧ HostName name ∧ PortForm port

namespace HostState

/-- What a state says of the text read so far. -/
def Reads : HostState → List Char → Prop
  | start, s => s = []
  | label, s => HostName s
  | inner, s => (∃ c r, s = c :: r ∧ c.isAlphanum = true) ∧ ∀ c ∈ s, IsNameChar c
  | colon, s => ∃ name, HostName name ∧ s = name ++ [':']
  | port, s => ∃ name digits, HostName name ∧ digits ≠ [] ∧ (∀ d ∈ digits, d.isDigit = true) ∧
      s = name ++ ':' :: digits

theorem reads_label {s : List Char} {c : Char} (hc : c.isAlphanum = true)
    (hs : inner.Reads s ∨ s = []) : HostName (s ++ [c]) := by
  rcases hs with ⟨⟨b, r, rfl, hb⟩, hchars⟩ | rfl
  · refine ⟨⟨b, r ++ [c], rfl, hb⟩, ⟨b :: r, c, rfl, hc⟩, fun x hx => ?_⟩
    rcases List.mem_append.1 hx with hx | hx
    · exact hchars x hx
    · exact .inl (List.mem_singleton.1 hx ▸ hc)
  · refine ⟨⟨c, [], rfl, hc⟩, ⟨[], c, rfl, hc⟩, fun x hx => ?_⟩
    exact .inl (List.mem_singleton.1 hx ▸ hc)

theorem reads_inner {s : List Char} {c : Char} (hc : c = '.' ∨ c = '-') (hs : inner.Reads s) :
    inner.Reads (s ++ [c]) := by
  obtain ⟨⟨b, r, rfl, hb⟩, hchars⟩ := hs
  refine ⟨⟨b, r ++ [c], rfl, hb⟩, fun x hx => ?_⟩
  rcases List.mem_append.1 hx with hx | hx
  · exact hchars x hx
  · exact .inr (List.mem_singleton.1 hx ▸ hc)

/-- A step keeps what the states say. -/
theorem Reads.step {q q' : HostState} {s : List Char} {c : Char} (h : q.Reads s)
    (hn : q.next c = some q') : q'.Reads (s ++ [c]) := by
  cases q with
  | start =>
    obtain ⟨hc, rfl⟩ : c.isAlphanum = true ∧ label = q' := by simpa [next] using hn
    exact reads_label hc (.inr h)
  | label =>
    have hs : inner.Reads s := ⟨h.begins, h.chars⟩
    simp only [next, Bool.or_eq_true, decide_eq_true_eq] at hn
    split at hn
    · cases hn; exact reads_label ‹_› (.inl hs)
    split at hn
    · cases hn; exact reads_inner ‹_› hs
    split at hn
    · cases hn; subst c; exact ⟨s, h, rfl⟩
    · cases hn
  | inner =>
    simp only [next, Bool.or_eq_true, decide_eq_true_eq] at hn
    split at hn
    · cases hn; exact reads_label ‹_› (.inl h)
    split at hn
    · cases hn; exact reads_inner ‹_› h
    · cases hn
  | colon =>
    obtain ⟨hc, rfl⟩ : c.isDigit = true ∧ port = q' := by simpa [next] using hn
    obtain ⟨name, hname, rfl⟩ := h
    exact ⟨name, [c], hname, by simp, by simpa using hc, by simp⟩
  | port =>
    obtain ⟨hc, rfl⟩ : c.isDigit = true ∧ port = q' := by simpa [next] using hn
    obtain ⟨name, digits, hname, -, hdigits, rfl⟩ := h
    refine ⟨name, digits ++ [c], hname, by simp, fun d hd => ?_, by simp⟩
    rcases List.mem_append.1 hd with hd | hd
    · exact hdigits d hd
    · exact List.mem_singleton.1 hd ▸ hc

/-- The state behind a character of a name. -/
def behind (c : Char) : HostState := if c.isAlphanum then label else inner

theorem next_of_isNameChar {q : HostState} (hq : q = label ∨ q = inner) {c : Char}
    (hc : IsNameChar c) : q.next c = some (behind c) ∧ (behind c = label ∨ behind c = inner) := by
  rcases hc with hc | rfl | rfl
  · rcases hq with rfl | rfl <;> simp [next, behind, hc]
  · rcases hq with rfl | rfl <;> decide
  · rcases hq with rfl | rfl <;> decide

/-- A name is read from its second character on, whatever its end. -/
theorem foldlM_name : ∀ {s : List Char} {q : HostState}, q = label ∨ q = inner →
    (∀ c ∈ s, IsNameChar c) → s.foldlM next q = some ((s.getLast?.map behind).getD q)
  | [], q, _, _ => rfl
  | c :: s, q, hq, h => by
    obtain ⟨hnext, hbehind⟩ := next_of_isNameChar hq (h c List.mem_cons_self)
    have ih := foldlM_name hbehind fun x hx => h x (List.mem_cons_of_mem _ hx)
    rw [List.foldlM_cons, hnext, Option.bind_eq_bind, Option.bind_some, ih, List.getLast?_cons]
    cases s.getLast? <;> rfl

theorem foldlM_port : ∀ {digits : List Char}, (∀ d ∈ digits, d.isDigit = true) →
    digits.foldlM next port = some port
  | [], _ => rfl
  | d :: digits, h => by
    have hnext : port.next d = some port := if_pos (h d List.mem_cons_self)
    rw [List.foldlM_cons, hnext]
    exact foldlM_port fun x hx => h x (List.mem_cons_of_mem _ hx)

theorem foldlM_hostName {s : List Char} (h : HostName s) : s.foldlM next start = some label := by
  obtain ⟨c, r, rfl, hc⟩ := h.begins
  obtain ⟨r', c', hlast, hc'⟩ := h.ends
  have hnext : start.next c = some label := if_pos hc
  have hend : (c :: r).getLast? = some c' := by rw [hlast, List.getLast?_concat]
  rw [List.foldlM_cons, hnext, Option.bind_eq_bind, Option.bind_some,
    foldlM_name (.inl rfl) fun x hx => h.chars x (List.mem_cons_of_mem _ hx)]
  rw [List.getLast?_cons] at hend
  cases hr : r.getLast? with
  | none => rfl
  | some x =>
    obtain rfl : x = c' := by simpa [hr] using hend
    simp [behind, hc']

end HostState

theorem isHost_iff {s : List Char} : isHost s = true ↔ HostForm s := by
  have hstart : HostState.start.Reads [] := rfl
  constructor
  · intro h
    unfold isHost at h
    split at h
    · rename_i hread
      have hs : HostState.label.Reads ([] ++ s) := reads_of_foldlM HostState.Reads.step hstart hread
      exact ⟨s, [], by simp, hs, .inl rfl⟩
    · rename_i hread
      obtain ⟨name, digits, hname, hne, hdigits, hs⟩ :
          HostState.port.Reads ([] ++ s) := reads_of_foldlM HostState.Reads.step hstart hread
      exact ⟨name, ':' :: digits, hs, hname, .inr ⟨digits, hne, hdigits, rfl⟩⟩
    · cases h
  · rintro ⟨name, port, rfl, hname, rfl | ⟨digits, hne, hdigits, rfl⟩⟩
    · rw [List.append_nil, isHost, HostState.foldlM_hostName hname]
    · cases digits with
      | nil => exact absurd rfl hne
      | cons d digits =>
        have hcolon : HostState.label.next ':' = some .colon := by decide
        have hnext : HostState.colon.next d = some .port := if_pos (hdigits d List.mem_cons_self)
        have hrest := HostState.foldlM_port fun x hx => hdigits x (List.mem_cons_of_mem _ hx)
        have hread : (name ++ ':' :: d :: digits).foldlM HostState.next .start = some .port := by
          simp [List.foldlM_append, HostState.foldlM_hostName hname, hcolon, hnext, hrest]
        rw [isHost, hread]

/-! ## Repositories -/

/-- A run of lower-case letters and digits, at least one. -/
def IsRun (s : List Char) : Prop := s ≠ [] ∧ ∀ c ∈ s, c.isLower = true ∨ c.isDigit = true

/-- What stands between two runs. -/
inductive Separator : List Char → Prop
  | dot : Separator ['.']
  | underscore : Separator ['_']
  | underscores : Separator ['_', '_']
  | dashes (n : Nat) : Separator (List.replicate (n + 1) '-')

/-- A component of a repository: runs joined by separators. -/
inductive Component : List Char → Prop
  | run {r : List Char} (h : IsRun r) : Component r
  | join {c s r : List Char} (hc : Component c) (hs : Separator s) (hr : IsRun r) :
      Component (c ++ s ++ r)

/-- A repository: components joined by slashes. -/
def RepositoryForm (s : List Char) : Prop :=
  ∃ components, components ≠ [] ∧ (∀ c ∈ components, Component c) ∧ s = ['/'].intercalate components

theorem isRun_singleton {c : Char} (hc : isComponentChar c = true) : IsRun [c] :=
  ⟨by simp, by simpa [isComponentChar] using hc⟩

theorem IsRun.snoc {s : List Char} {c : Char} (h : IsRun s) (hc : isComponentChar c = true) :
    IsRun (s ++ [c]) := by
  refine ⟨by simp, fun x hx => ?_⟩
  rcases List.mem_append.1 hx with hx | hx
  · exact h.2 x hx
  · exact List.mem_singleton.1 hx ▸ (isRun_singleton hc).2 c List.mem_cons_self

theorem Component.snoc {s : List Char} {c : Char} (h : Component s)
    (hc : isComponentChar c = true) : Component (s ++ [c]) := by
  cases h with
  | run h => exact .run (h.snoc hc)
  | join h hs hr => rw [List.append_assoc]; exact .join h hs (hr.snoc hc)

theorem Separator.ne_slash {s : List Char} (h : Separator s) : '/' ∉ s := by
  cases h with
  | dashes n => simp
  | _ => decide

theorem IsRun.ne_slash {s : List Char} (h : IsRun s) : '/' ∉ s :=
  fun hs => by simpa using h.2 _ hs

theorem Component.ne_slash {s : List Char} (h : Component s) : '/' ∉ s := by
  induction h with
  | run h => exact h.ne_slash
  | join _ hs hr ih => simp [ih, hs.ne_slash, hr.ne_slash]

namespace ComponentState

/-- What a state says of the text read so far. -/
def Reads : ComponentState → List Char → Prop
  | start, s => s = []
  | run, s => Component s
  | dot, s => ∃ c, Component c ∧ s = c ++ ['.']
  | underscore, s => ∃ c, Component c ∧ s = c ++ ['_']
  | underscores, s => ∃ c, Component c ∧ s = c ++ ['_', '_']
  | dashes, s => ∃ c n, Component c ∧ s = c ++ List.replicate (n + 1) '-'

/-- Behind a separator a new run begins. -/
theorem Reads.joined {s sep : List Char} {c : Char} (h : Component s) (hsep : Separator sep)
    (hc : isComponentChar c = true) : Component (s ++ sep ++ [c]) :=
  .join h hsep (isRun_singleton hc)

/-- A step keeps what the states say. -/
theorem Reads.step {q q' : ComponentState} {s : List Char} {c : Char} (h : q.Reads s)
    (hn : q.next c = some q') : q'.Reads (s ++ [c]) := by
  cases q with
  | start =>
    obtain ⟨hc, rfl⟩ : isComponentChar c = true ∧ run = q' := by simpa [next] using hn
    obtain rfl : s = [] := h
    exact .run (isRun_singleton hc)
  | run =>
    simp only [next] at hn
    split at hn
    · cases hn; exact Component.snoc h ‹_›
    split at hn
    · cases hn; subst c; exact ⟨s, h, rfl⟩
    split at hn
    · cases hn; subst c; exact ⟨s, h, rfl⟩
    split at hn
    · cases hn; subst c; exact ⟨s, 0, h, rfl⟩
    · cases hn
  | dot =>
    obtain ⟨hc, rfl⟩ : isComponentChar c = true ∧ run = q' := by simpa [next] using hn
    obtain ⟨d, hd, rfl⟩ := h
    exact Reads.joined hd .dot hc
  | underscore =>
    obtain ⟨d, hd, rfl⟩ := h
    simp only [next] at hn
    split at hn
    · cases hn; exact Reads.joined hd .underscore ‹_›
    split at hn
    · cases hn; subst c; exact ⟨d, hd, by simp⟩
    · cases hn
  | underscores =>
    obtain ⟨hc, rfl⟩ : isComponentChar c = true ∧ run = q' := by simpa [next] using hn
    obtain ⟨d, hd, rfl⟩ := h
    exact Reads.joined hd .underscores hc
  | dashes =>
    obtain ⟨d, n, hd, rfl⟩ := h
    simp only [next] at hn
    split at hn
    · cases hn; exact Reads.joined hd (.dashes n) ‹_›
    split at hn
    · cases hn; subst c; exact ⟨d, n + 1, hd, by rw [List.append_assoc, ← List.replicate_succ']⟩
    · cases hn

/-- Every state goes on to a run with its characters. -/
theorem next_of_isComponentChar (q : ComponentState) {c : Char} (hc : isComponentChar c = true) :
    q.next c = some run := by
  cases q <;> simp [next, hc]

theorem foldlM_run : ∀ {s : List Char} (q : ComponentState), IsRun s →
    s.foldlM next q = some run
  | [], _, h => absurd rfl h.1
  | c :: s, q, h => by
    have hc : isComponentChar c = true := by
      simpa [isComponentChar] using h.2 c List.mem_cons_self
    rw [List.foldlM_cons, next_of_isComponentChar q hc]
    cases s with
    | nil => rfl
    | cons d s =>
      exact foldlM_run run ⟨by simp, fun x hx => h.2 x (List.mem_cons_of_mem _ hx)⟩

theorem foldlM_dashes : ∀ n, (List.replicate n '-').foldlM next dashes = some dashes
  | 0 => rfl
  | n + 1 => by
    have hnext : dashes.next '-' = some dashes := by decide
    rw [List.replicate_succ, List.foldlM_cons, hnext]
    exact foldlM_dashes n

theorem foldlM_separator {s : List Char} (h : Separator s) :
    ∃ q, s.foldlM next run = some q := by
  cases h with
  | dot => exact ⟨dot, by decide⟩
  | underscore => exact ⟨underscore, by decide⟩
  | underscores => exact ⟨underscores, by decide⟩
  | dashes n =>
    have hnext : run.next '-' = some dashes := by decide
    rw [List.replicate_succ, List.foldlM_cons, hnext]
    exact ⟨dashes, foldlM_dashes n⟩

theorem foldlM_component {s : List Char} (h : Component s) : s.foldlM next start = some run := by
  induction h with
  | run h => exact foldlM_run start h
  | join _ hs hr ih =>
    obtain ⟨q, hq⟩ := foldlM_separator hs
    simp [List.foldlM_append, ih, hq, foldlM_run q hr]

end ComponentState

theorem isComponent_iff {s : List Char} : isComponent s = true ↔ Component s := by
  have hstart : ComponentState.start.Reads [] := rfl
  constructor
  · intro h
    unfold isComponent at h
    split at h
    · rename_i hread
      exact reads_of_foldlM ComponentState.Reads.step hstart hread
    · cases h
  · intro h
    rw [isComponent, ComponentState.foldlM_component h]

theorem components_iff {s : List Char} :
    (∀ c ∈ Text.splitAll '/' s, Component c) ↔ RepositoryForm s :=
  (Text.joined_iff fun _ => Component.ne_slash).symm

/-! ## Tags -/

/-- A tag: a word character, and at most 127 word characters, `.` and `-` behind it. -/
def TagForm (s : List Char) : Prop :=
  ∃ c r, s = c :: r ∧ Text.isWord c = true ∧ r.length ≤ 127 ∧
    ∀ x ∈ r, Text.isWord x = true ∨ x = '.' ∨ x = '-'

theorem isTag_iff {s : List Char} : isTag s = true ↔ TagForm s := by
  cases s with
  | nil => simp [isTag, TagForm]
  | cons c r =>
    simp only [isTag, isTagChar, TagForm, Bool.and_eq_true, List.all_eq_true, Bool.or_eq_true,
      beq_iff_eq, decide_eq_true_eq, or_assoc]
    constructor
    · rintro ⟨⟨hc, hr⟩, hlen⟩
      exact ⟨c, r, rfl, hc, hlen, hr⟩
    · rintro ⟨c', r', heq, hc, hlen, hr⟩
      obtain ⟨rfl, rfl⟩ := List.cons.inj heq
      exact ⟨⟨hc, hr⟩, hlen⟩

/-! ## Parts of a reference -/

namespace Image

/-- The error of parts that form no reference. -/
def refusal (host repository tag reason : String) : Except ResolutionError Image :=
  .error (.invalidReference (host ++ "/" ++ repository ++ ":" ++ tag) reason)

/-- What is to come of four parts: an image of them, or their first fault in the order of the
constructors. -/
inductive Verdict (name host repository tag : String) : Except ResolutionError Image → Prop
  | accepted {i : Image} (hh : HostForm host.toList) (hr : RepositoryForm repository.toList)
      (ht : TagForm tag.toList)
      (hi : i.name = name ∧ i.host = host ∧ i.repository = repository ∧ i.tag = tag) :
      Verdict name host repository tag (.ok i)
  | badHost (hh : ¬HostForm host.toList) :
      Verdict name host repository tag
        (refusal host repository tag ("bad registry host '" ++ host ++ "'"))
  | emptyRepository (hh : HostForm host.toList) (hr : repository = "") :
      Verdict name host repository tag (refusal host repository tag "empty repository path")
  | badComponent (hh : HostForm host.toList) (hr : repository ≠ "") {before after : List (List Char)}
      {c : List Char} (hs : repository.toList = ['/'].intercalate (before ++ c :: after))
      (hp : ∀ p ∈ before ++ c :: after, '/' ∉ p) (hb : ∀ b ∈ before, Component b)
      (hc : ¬Component c) :
      Verdict name host repository tag
        (refusal host repository tag ("bad path component '" ++ String.ofList c ++ "'"))
  | badTag (hh : HostForm host.toList) (hr : RepositoryForm repository.toList)
      (ht : ¬TagForm tag.toList) :
      Verdict name host repository tag (refusal host repository tag ("bad tag '" ++ tag ++ "'"))

section
variable {name host repository tag : String}

theorem make_of_fault {fault : ReferenceFault}
    (h : ReferenceFault.find? host repository tag = some fault) :
    make name host repository tag = refusal host repository tag (fault.message host tag) := by
  unfold make
  split
  · rename_i fault' h'
    obtain rfl : fault' = fault := Option.some.inj (h'.symm.trans h)
    rfl
  · rename_i h'
    rw [h] at h'
    cases h'

theorem isEmpty_of_ne (h : repository ≠ "") : repository.isEmpty = false :=
  Bool.eq_false_iff.2 fun he => h (by simpa using he)

/-- A repository of components is not empty, and no component of it is bad. -/
theorem find?_of_repositoryForm (h : RepositoryForm repository.toList) :
    repository.isEmpty = false ∧
      (Text.splitAll '/' repository.toList).find? (!isComponent ·) = none := by
  have hall := components_iff.2 h
  refine ⟨isEmpty_of_ne ?_, List.find?_eq_none.2 fun c hc => by simp [isComponent_iff.2 (hall c hc)]⟩
  rintro rfl
  have hnil : Component [] := hall [] List.mem_cons_self
  exact absurd (ComponentState.foldlM_component hnil) (by decide)

theorem find?_of_forms (hh : HostForm host.toList) (hr : RepositoryForm repository.toList)
    (ht : TagForm tag.toList) : ReferenceFault.find? host repository tag = none := by
  obtain ⟨hempty, hcomponents⟩ := find?_of_repositoryForm hr
  simp [ReferenceFault.find?, isHost_iff.2 hh, hempty, hcomponents, isTag_iff.2 ht]

/-- What is to come of four parts does come of them. -/
theorem Verdict.make_eq {r : Except ResolutionError Image}
    (h : Verdict name host repository tag r) : make name host repository tag = r := by
  cases h with
  | accepted hh hr ht hi => exact make_eq_ok_iff.2 hi
  | badHost hh =>
    have hhost : isHost host.toList = false := Bool.eq_false_iff.2 fun h => hh (isHost_iff.1 h)
    have hfault : ReferenceFault.find? host repository tag = some .host := by
      simp [ReferenceFault.find?, hhost]
    exact make_of_fault hfault
  | emptyRepository hh hr =>
    subst hr
    have hfault : ReferenceFault.find? host "" tag = some .emptyRepository := by
      simp [ReferenceFault.find?, isHost_iff.2 hh]
    exact make_of_fault hfault
  | @badComponent hh hr before after c hs hp hb hc =>
    have hsplit : Text.splitAll '/' repository.toList = before ++ c :: after := by
      rw [Text.splitAll_eq_splitOn, hs, List.splitOn_intercalate '/' hp (by simp)]
    have hfind : (before ++ c :: after).find? (!isComponent ·) = some c := by
      refine List.find?_eq_some_iff_append.2 ⟨?_, before, after, rfl, fun b h => ?_⟩
      · simpa using fun h => hc (isComponent_iff.1 h)
      · simp [isComponent_iff.2 (hb b h)]
    have hfault : ReferenceFault.find? host repository tag = some (.component c) := by
      simp [ReferenceFault.find?, isHost_iff.2 hh, isEmpty_of_ne hr, hsplit, hfind]
    exact make_of_fault hfault
  | badTag hh hr ht =>
    have htag : isTag tag.toList = false := Bool.eq_false_iff.2 fun h => ht (isTag_iff.1 h)
    obtain ⟨hempty, hcomponents⟩ := find?_of_repositoryForm hr
    have hfault : ReferenceFault.find? host repository tag = some .tag := by
      simp [ReferenceFault.find?, isHost_iff.2 hh, hempty, hcomponents, htag]
    exact make_of_fault hfault

/-- Some verdict is given on all parts. -/
theorem exists_verdict (name host repository tag : String) :
    ∃ r, Verdict name host repository tag r := by
  by_cases hh : HostForm host.toList
  · by_cases hr : repository = ""
    · exact ⟨_, .emptyRepository hh hr⟩
    · cases hc : (repository.toList.splitOn '/').find? (!isComponent ·) with
      | some c =>
        obtain ⟨hbad, before, after, hs, hb⟩ := List.find?_eq_some_iff_append.1 hc
        have hjoined : repository.toList = ['/'].intercalate (before ++ c :: after) := by
          rw [← hs, List.intercalate_splitOn]
        refine ⟨_, .badComponent hh hr hjoined (fun p hp => ?_) (fun b h => ?_) fun h => ?_⟩
        · exact Text.not_mem_of_mem_splitOn (hs ▸ hp)
        · exact isComponent_iff.1 (by simpa using hb b h)
        · simp [isComponent_iff.2 h] at hbad
      | none =>
        have hr : RepositoryForm repository.toList := by
          refine components_iff.1 fun c h => ?_
          rw [Text.splitAll_eq_splitOn] at h
          exact isComponent_iff.1 (by simpa using List.find?_eq_none.1 hc c h)
        by_cases ht : TagForm tag.toList
        · exact ⟨.ok ⟨name, host, repository, tag, find?_of_forms hh hr ht⟩,
            .accepted hh hr ht ⟨rfl, rfl, rfl, rfl⟩⟩
        · exact ⟨_, .badTag hh hr ht⟩
  · exact ⟨_, .badHost hh⟩

theorem verdict_make (name host repository tag : String) :
    Verdict name host repository tag (make name host repository tag) := by
  obtain ⟨r, h⟩ := exists_verdict name host repository tag
  exact h.make_eq ▸ h

/-- The parts of an image have their forms. -/
theorem forms (i : Image) :
    HostForm i.host.toList ∧ RepositoryForm i.repository.toList ∧ TagForm i.tag.toList := by
  have h := verdict_make i.name i.host i.repository i.tag
  rw [make_eq_ok_iff.2 ⟨rfl, rfl, rfl, rfl⟩] at h
  cases h with
  | accepted hh hr ht => exact ⟨hh, hr, ht⟩

end

/-- **What forms a reference**: four parts give an image exactly if host, repository and tag have
their forms, and what comes of them is the one verdict there is on them: the image of these parts,
or the first of the bad host, the empty repository, the first bad component and the bad tag. -/
theorem make_eq_iff (name host repository tag : String) :
    ((∃ i, make name host repository tag = .ok i) ↔
      HostForm host.toList ∧ RepositoryForm repository.toList ∧ TagForm tag.toList) ∧
    ∀ r, make name host repository tag = r ↔ Verdict name host repository tag r := by
  have hverdict (r : Except ResolutionError Image) :
      make name host repository tag = r ↔ Verdict name host repository tag r :=
    ⟨fun h => h ▸ verdict_make name host repository tag, Verdict.make_eq⟩
  refine ⟨⟨fun ⟨i, h⟩ => ?_, fun ⟨hh, hr, ht⟩ => ?_⟩, hverdict⟩
  · cases (hverdict _).1 h with
    | accepted hh hr ht => exact ⟨hh, hr, ht⟩
  · exact ⟨⟨name, host, repository, tag, find?_of_forms hh hr ht⟩,
      (hverdict _).2 (.accepted hh hr ht ⟨rfl, rfl, rfl, rfl⟩)⟩

end Image

end ImageRelay
