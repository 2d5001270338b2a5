import ImageRelay.Failure
import ImageRelay.Text.Split
import ImageRelay.Text.Word

/-!
# Images

One image of a set: a logical name and the place it is served from, `host/repository:tag`. An
`Image` can only be made of parts that form a reference.

## Main definitions
* `isHost`, `isComponent`, `isTag`: the grammars of the parts, the first two as automata.
* `ReferenceFault.find?`: the first fault of three parts.
* `Image.make`: the only way to an image.
-/

set_option autoImplicit false

namespace ImageRelay

/-! ## Hosts -/

/-- How far a host is read. -/
inductive HostState
  | start
  | label
  | inner
  | colon
  | port
  deriving Repr, DecidableEq

/-- The next character of a host: letters and digits with `.` and `-` between them, then a colon
and the digits of a port. -/
def HostState.next : HostState → Char → Option HostState
  | start, c => if c.isAlphanum then some label else none
  | label, c =>
    if c.isAlphanum then some label
    else if c = '.' || c = '-' then some inner
    else if c = ':' then some colon
    else none
  | inner, c =>
    if c.isAlphanum then some label else if c = '.' || c = '-' then some inner else none
  | colon, c | port, c => if c.isDigit then some port else none

/-- A registry host, with or without a port. -/
def isHost (s : List Char) : Bool :=
  match s.foldlM HostState.next .start with
  | some .label | some .port => true
  | _ => false

/-! ## Repository components -/

/-- How far a component of a repository path is read. -/
inductive ComponentState
  | start
  | run
  | dot
  | underscore
  | underscores
  | dashes
  deriving Repr, DecidableEq

/-- A lower-case letter or a digit. -/
def isComponentChar (c : Char) : Bool := c.isLower || c.isDigit

/-- The next character of a component: runs of lower-case letters and digits, joined by a dot, one
or two underscores, or any number of dashes. -/
def ComponentState.next : ComponentState → Char → Option ComponentState
  | run, c =>
    if isComponentChar c then some run
    else if c = '.' then some dot
    else if c = '_' then some underscore
    else if c = '-' then some dashes
    else none
  | underscore, c =>
    if isComponentChar c then some run else if c = '_' then some underscores else none
  | dashes, c => if isComponentChar c then some run else if c = '-' then some dashes else none
  | start, c | dot, c | underscores, c => if isComponentChar c then some run else none

/-- One component of a repository path. -/
def isComponent (s : List Char) : Bool :=
  match s.foldlM ComponentState.next .start with
  | some .run => true
  | _ => false

/-! ## Tags -/

/-- A character of a tag after the first. -/
def isTagChar (c : Char) : Bool := Text.isWord c || c == '.' || c == '-'

/-- A tag: a word character and at most 127 further characters. -/
def isTag : List Char → Bool
  | [] => false
  | c :: r => Text.isWord c && r.all isTagChar && r.length ≤ 127

/-! ## References -/

/-- Why parts form no reference. -/
inductive ReferenceFault
  | host
  | emptyRepository
  | component (component : List Char)
  | tag
  deriving Repr, DecidableEq

/-- The first fault of a host, a repository and a tag. -/
def ReferenceFault.find? (host repository tag : String) : Option ReferenceFault :=
  if !isHost host.toList then some .host
  else if repository.isEmpty then some .emptyRepository
  else
    match (Text.splitAll '/' repository.toList).find? (!isComponent ·) with
    | some c => some (.component c)
    | none => if !isTag tag.toList then some .tag else none

/-- The text of a fault. -/
def ReferenceFault.message (host tag : String) : ReferenceFault → String
  | .host => s!"bad registry host '{host}'"
  | .emptyRepository => "empty repository path"
  | .component c =>
    let c := String.ofList c
    s!"bad path component '{c}'"
  | .tag => s!"bad tag '{tag}'"

/-- The text of a reference. -/
def referenceOf (host repository tag : String) : String := s!"{host}/{repository}:{tag}"

theorem referenceOf_eq (host repository tag : String) :
    referenceOf host repository tag = host ++ "/" ++ repository ++ ":" ++ tag := rfl

/-- An image: its logical name and the parts of its reference. -/
structure Image where
  name : String
  host : String
  repository : String
  tag : String
  valid : ReferenceFault.find? host repository tag = none
  deriving DecidableEq

namespace Image

/-- The image with the given parts, if they form a reference. -/
def make (name host repository tag : String) : Except ResolutionError Image :=
  match h : ReferenceFault.find? host repository tag with
  | some fault =>
    .error (.invalidReference (referenceOf host repository tag) (fault.message host tag))
  | none => .ok ⟨name, host, repository, tag, h⟩

/-- The full reference of an image. -/
def reference (i : Image) : String := referenceOf i.host i.repository i.tag

theorem make_eq_ok_iff {name host repository tag : String} {i : Image} :
    make name host repository tag = .ok i ↔
      i.name = name ∧ i.host = host ∧ i.repository = repository ∧ i.tag = tag := by
  constructor
  · intro h
    unfold make at h
    split at h
    · contradiction
    · cases h; exact ⟨rfl, rfl, rfl, rfl⟩
  · rintro ⟨rfl, rfl, rfl, rfl⟩
    unfold make
    split
    · rename_i h; rw [i.valid] at h; contradiction
    · rfl

end Image

end ImageRelay
