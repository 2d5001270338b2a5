import ImageRelay.Engine.Container
import ImageRelay.Engine.DryRun
import ImageRelay.Proofs.Batch.Secrecy
import ImageRelay.Proofs.Credentials

/-!
# Passwords and the engines

Neither engine tells two passwords of one user apart, but for the file that a container engine
writes for its program.

* `DryRun.matches_self`, `DryRun.actions_eq`: of the credentials a dry run tells only that there
  are some.
* `Container.Started.Alike`: programs that are started with the same arguments, up to the name of
  the throwaway directory, in which only the entry of the registry differs.
* `Container.engine_matches`, `Container.launches_alike`: container engines on machines that
  resemble each other start such programs.
-/

set_option autoImplicit false

namespace ImageRelay

theorem SameUser.isEmpty_eq {header header' : String} (h : SameUser header header') :
    header.isEmpty = header'.isEmpty := by
  cases h with
  | refl => rfl
  | @passwords c c' =>
    have hc : c.header.isEmpty = false := by simpa using c.header_ne_empty
    have hc' : c'.header.isEmpty = false := by simpa using c'.header_ne_empty
    rw [hc, hc']

/-! ## Dry runs -/

namespace DryRun

theorem action_eq {c c' : Call} (h : c.Alike c') : action c = action c' := by
  cases h with
  | refl => rfl
  | push h => rw [action, action, h.isEmpty_eq]

theorem actions_eq {past past' : List Request} (h : AlikeRequests past past') :
    actions past = actions past' := by
  induction h with
  | nil => rfl
  | @cons r r' past past' hr _ ih =>
    unfold actions at ih ⊢
    rw [List.filter_cons, List.filter_cons, hr.cancelled]
    split
    · rw [List.map_cons, List.map_cons, action_eq hr.call, ih]
    · exact ih

/-- Of the header of a push a dry run looks only at whether there is one. -/
theorem matches_self : engine.Matches engine where
  reply _ _ := rfl
  push _ reference header header' hh cancelled := by
    have haction : action (.push reference header) = action (.push reference header') :=
      action_eq (.push hh)
    cases cancelled with
    | false => exact ⟨rfl, congrArg (fun a => [Effect.tell (told a)]) haction⟩
    | true =>
      exact ⟨congrArg (fun a => Except.error (Chain.root s!"cancelled before: {a}")) haction, rfl⟩

end DryRun

/-! ## Programs that are started -/

/-- Both fail for the same reason, or they come to things that are related. -/
inductive Both {ε α : Type} (R : α → α → Prop) : Except ε α → Except ε α → Prop
  | error (e : ε) : Both R (.error e) (.error e)
  | ok {a a' : α} (h : R a a') : Both R (.ok a) (.ok a')

theorem Both.toOption {ε α : Type} {R : α → α → Prop} {x x' : Except ε α} (h : Both R x x') :
    Option.Rel R x.toOption x'.toOption := by
  cases h with
  | error => exact .none
  | ok h => exact .some h

/-- The directories are the same but for the entry of a registry, which is that of one user. -/
inductive Authorization.Directory.Alike : Directory → Directory → Prop
  | passwords {c c' : Credentials} (hu : c.username = c'.username) (host : String)
      (entries fields : Fields) (contexts : Option String) :
      Alike
        ⟨Keyed.insert "auths" (.object (Keyed.insert host (entry c) entries)) fields, contexts⟩
        ⟨Keyed.insert "auths" (.object (Keyed.insert host (entry c') entries)) fields, contexts⟩

/-- Arguments that are the same up to the name of the throwaway directory. -/
inductive SameArgument (m m' : Machine) : String → String → Prop
  | refl (argument : String) : SameArgument m m' argument argument
  | directory {d d' : String} (hd : m.throwaway = .ok d) (hd' : m'.throwaway = .ok d') :
      SameArgument m m' d d'
  | file {d d' : String} (hd : m.throwaway = .ok d) (hd' : m'.throwaway = .ok d') :
      SameArgument m m' (Path.join d "config.json") (Path.join d' "config.json")

/-- The same program with the same arguments, up to the name of the throwaway directory. -/
structure Program.Invocation.Alike (m m' : Machine) (i i' : Program.Invocation) : Prop where
  program : i.program = i'.program
  arguments : List.Forall₂ (SameArgument m m') i.arguments i'.arguments

/-- Machines that are the same but for the name of the throwaway directory, and whose programs do
not tell such names or two passwords of one user apart. -/
structure Machine.Resembles (m m' : Machine) : Prop where
  environment : m.environment = m'.environment
  files : m.files = m'.files
  throwaway : Both (fun _ _ => True) m.throwaway m'.throwaway
  filing : m.filing = m'.filing
  programs {past past' : List Request} (h : AlikeRequests past past') {i i' : Program.Invocation}
    (hi : i.Alike m m' i') : m.programs past i = m'.programs past' i'

namespace Container

/-- Programs that are started in the same way, up to the name of the throwaway directory and the
password in it. -/
structure Started.Alike (m m' : Machine) (x x' : Started) : Prop where
  invocation : x.invocation.Alike m m' x'.invocation
  directory : Option.Rel Authorization.Directory.Alike x.directory x'.directory

/-- The programs that are started for some requests, in order. -/
def launches (k : Container) (m : Machine) (requests : List Request) : List Started :=
  requests.filterMap fun r => (k.begin m r).toOption

/-- Throwaway directories of two machines with files that are alike. -/
structure Throwaway (m m' : Machine) (x x' : String × Authorization.Directory) : Prop where
  path : m.throwaway = .ok x.1
  path' : m'.throwaway = .ok x'.1
  alike : x.2.Alike x'.2

section
variable (k : Container) {m m' : Machine} (hm : m.Resembles m')
include hm

/-- Whether a throwaway directory can be filled does not depend on the credentials in it. -/
theorem fillingFault?_eq (base : Option String) (c c' : Credentials) (host : String) :
    m.fillingFault? (Authorization.directory m'.files base c host) =
      m'.fillingFault? (Authorization.directory m'.files base c' host) := by
  unfold Machine.fillingFault?
  rw [hm.filing]
  rfl

theorem authorize_of_user (reference : String) {header header' : String} {c c' : Credentials}
    (hn : header.isEmpty = header'.isEmpty) (hc : Credentials.ofHeader header = .ok c)
    (hc' : Credentials.ofHeader header' = .ok c') (hu : c.username = c'.username) :
    Both (Option.Rel (Throwaway m m')) (k.authorize m reference header).1
      (k.authorize m' reference header').1 := by
  have hanonymous : c.isAnonymous = c'.isAnonymous := by
    unfold Credentials.isAnonymous
    rw [hu]
  have hthrowaway := hm.throwaway
  unfold authorize
  rw [hn, hc, hc']
  dsimp only
  rw [hanonymous, hm.environment, hm.files, fillingFault?_eq hm _ c c']
  split
  · exact .ok .none
  · split
    · exact .ok .none
    · generalize hd : m.throwaway = x at hthrowaway
      generalize hd' : m'.throwaway = x' at hthrowaway
      cases hthrowaway with
      | error => exact .error _
      | ok =>
        dsimp only
        split
        · exact .error _
        · exact .ok (.some ⟨hd, hd', .passwords hu _ _ _ _⟩)

theorem authorize_alike (reference : String) {header header' : String}
    (h : SameUser header header') :
    Both (Option.Rel (Throwaway m m')) (k.authorize m reference header).1
      (k.authorize m' reference header').1 := by
  cases h with
  | passwords hu =>
    exact authorize_of_user k hm reference (SameUser.passwords hu ‹_›).isEmpty_eq
      (Credentials.ofHeader_header _) (Credentials.ofHeader_header _) hu
  | refl =>
    cases hc : Credentials.ofHeader header with
    | ok c => exact authorize_of_user k hm reference rfl hc hc rfl
    | error e =>
      unfold authorize
      rw [hc]
      split
      · exact .ok .none
      · exact .error e

theorem callDirectory_alike {c c' : Call} (h : c.Alike c') :
    Both (Option.Rel (Throwaway m m')) (k.callDirectory m c).1 (k.callDirectory m' c').1 := by
  cases h with
  | push h => exact authorize_alike k hm _ h
  | refl =>
    cases c with
    | push reference header => exact authorize_alike k hm _ (.refl header)
    | _ => exact .ok .none

omit hm in
theorem describe_eq {c c' : Call} (h : c.Alike c') : k.describe c = k.describe c' := by
  cases h <;> rfl

omit hm in
theorem startContext_eq {c c' : Call} (h : c.Alike c') : k.startContext c = k.startContext c' := by
  cases h <;> rfl

theorem launch_eq {r r' : Request} (h : r.Alike r') : k.launch m r = k.launch m' r' := by
  unfold launch
  rw [hm.environment, hm.files, h.cancelled, describe_eq k h.call, startContext_eq k h.call]

omit hm in
theorem arguments_alike {x x' : Option (String × Authorization.Directory)}
    (hx : Option.Rel (Throwaway m m') x x') {c c' : Call} (h : c.Alike c') :
    List.Forall₂ (SameArgument m m') (k.arguments (x.map (·.1)) c)
      (k.arguments (x'.map (·.1)) c') := by
  have hsame (as : List String) : List.Forall₂ (SameArgument m m') as as :=
    List.forall₂_same.2 fun a _ => .refl a
  have hpush (reference header header' : String) :
      List.Forall₂ (SameArgument m m') (k.arguments (x.map (·.1)) (.push reference header))
        (k.arguments (x'.map (·.1)) (.push reference header')) := by
    cases hx with
    | none => exact hsame _
    | some ht =>
      cases k with
      | docker => exact .cons (.refl _) (.cons (.directory ht.path ht.path') (hsame _))
      | podman => exact .cons (.refl _) (.cons (.refl _) (.cons (.file ht.path ht.path') (hsame _)))
  cases h with
  | push => exact hpush _ _ _
  | refl =>
    cases c with
    | push => exact hpush _ _ _
    | _ => exact hsame _

/-- For requests that are alike both machines start the program in the same way, or both reject
them for the same reason. -/
theorem begin_alike {r r' : Request} (h : r.Alike r') :
    Both (Started.Alike m m') (k.begin m r) (k.begin m' r') := by
  have hdirectory := callDirectory_alike k hm h.call
  have hlaunch := launch_eq k hm h
  unfold begin opening
  generalize k.callDirectory m r.call = x at hdirectory
  generalize k.callDirectory m' r'.call = x' at hdirectory
  obtain ⟨x, made⟩ := x
  obtain ⟨x', made'⟩ := x'
  rw [hlaunch]
  cases hdirectory with
  | error e => exact .error e
  | ok hx =>
    cases k.launch m' r' with
    | error e => exact .error e
    | ok =>
      refine .ok ⟨⟨rfl, arguments_alike k hx h.call⟩, ?_⟩
      cases hx with
      | none => exact .none
      | some ht => exact .some ht.alike

theorem launches_alike {past past' : List Request} (h : AlikeRequests past past') :
    List.Forall₂ (Started.Alike m m') (k.launches m past) (k.launches m' past') := by
  have hbegin (r r' : Request) (hr : r.Alike r') :
      Option.Rel (Started.Alike m m') (k.begin m r).toOption (k.begin m' r').toOption :=
    (begin_alike k hm hr).toOption
  exact List.rel_filterMap hbegin h

omit hm in
/-- Whether there is a throwaway directory is all that an answer depends on besides the run. -/
theorem answer_eq {x x' : Started} (h : x.Alike m m' x') (run : Program.Run) (c : Call) :
    k.answer x run c = k.answer x' run c := by
  have hdirectory : x.directory.isSome = x'.directory.isSome := by
    have hrel := h.directory
    generalize x.directory = d at hrel
    generalize x'.directory = d' at hrel
    cases hrel <;> rfl
  cases c <;> simp only [answer, hdirectory]

theorem engine_matches : (k.engine m).Matches (k.engine m') where
  reply h r := by
    have hbegin := begin_alike k hm (.refl r)
    unfold engine
    generalize k.begin m r = x at hbegin
    generalize k.begin m' r = x' at hbegin
    cases hbegin with
    | error => rfl
    | ok hx =>
      dsimp only
      rw [hm.programs h hx.invocation, answer_eq k hx]
  push h reference header header' hh cancelled := by
    have halike : Request.Alike ⟨.push reference header, cancelled⟩
      ⟨.push reference header', cancelled⟩ := ⟨.push hh, rfl⟩
    have hbegin := begin_alike k hm halike
    unfold engine
    generalize k.begin m ⟨.push reference header, cancelled⟩ = x at hbegin
    generalize k.begin m' ⟨.push reference header', cancelled⟩ = x' at hbegin
    cases hbegin with
    | error => exact ⟨rfl, rfl⟩
    | ok hx =>
      dsimp only
      rw [hm.programs h hx.invocation, answer_eq k hx]
      exact ⟨rfl, rfl⟩

end

end Container

end ImageRelay
