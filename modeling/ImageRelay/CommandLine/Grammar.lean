import ImageRelay.Text.Split

/-!
# One level of a command line

A command line is read level by level: the options of a command, then the name of a command below
it, whose level begins there. An option is given by its long name or, in a cluster, by its letter;
its value is attached to it or is the next argument.

## Main definitions
* `Grammar.scan`: what is given on a level, and where the next one begins.
-/

set_option autoImplicit false

namespace ImageRelay.CommandLine

/-- Why a command line runs nothing: it is malformed, or it asks for help or for the version. -/
inductive Stop
  | usage
  | help
  | version
  deriving Repr, DecidableEq

/-- What an option takes: nothing, once or any number of times, or a value, which may have to be a
path and so may not be empty; or it ends the reading. -/
inductive Kind
  | flag
  | count
  | text
  | path
  | stop (reason : Stop)
  deriving Repr, DecidableEq

/-- An option. -/
structure Parameter where
  long : String
  short : Option Char := none
  kind : Kind
  deriving Repr, DecidableEq

/-- What may be given on a level: its options, the commands below it, and the words of which one
may be given. -/
structure Grammar where
  parameters : List Parameter
  commands : List String := []
  words : List String := []
  deriving Repr, DecidableEq

/-! ## What is given -/

/-- What is given on a level: the values of options in order, and the word. -/
structure Given where
  values : List (String × String) := []
  word : Option String := none
  deriving Repr, DecidableEq

namespace Given

/-- How often an option is given. -/
def count (g : Given) (name : String) : Nat := g.values.countP (·.1 == name)

/-- Whether an option is given. -/
def has (g : Given) (name : String) : Bool := g.count name != 0

/-- The value of an option. -/
def get? (g : Given) (name : String) : Option String := g.values.lookup name

/-- Adds an option; most may be given once only, and a path may not be empty. -/
def add (g : Given) (p : Parameter) (value : String) : Except Stop Given :=
  let added : Given := { g with values := g.values ++ [(p.long, value)] }
  match p.kind with
  | .stop reason => .error reason
  | .count => .ok added
  | .path => if g.has p.long || value.isEmpty then .error .usage else .ok added
  | .flag | .text => if g.has p.long then .error .usage else .ok added

end Given

namespace Kind

/-- Whether an option takes a value. -/
def takesValue : Kind → Bool
  | text | path => true
  | _ => false

end Kind

/-! ## Reading a level -/

/-- An argument that is read as options: it begins with a dash and is more than that. -/
def looksLikeOption (arg : String) : Bool :=
  match arg.toList with
  | '-' :: _ :: _ => true
  | _ => false

namespace Grammar

/-- Adds the word of a level. -/
def addWord (k : Grammar) (g : Given) (w : String) : Except Stop Given :=
  if k.words.contains w && g.word.isNone then .ok { g with word := some w } else .error .usage

/-- Reads options by their letters. The last may wait for its value. -/
def scanLetters (k : Grammar) : List Char → Given → Except Stop (Given × Option Parameter)
  | [], g => .ok (g, none)
  | c :: r, g =>
    match k.parameters.find? (·.short == some c) with
    | none => .error .usage
    | some p =>
      if p.kind.takesValue then
        match r with
        | [] => .ok (g, some p)
        | '=' :: v => (g.add p (String.ofList v)).map (·, none)
        | v => (g.add p (String.ofList v)).map (·, none)
      else
        match g.add p "" with
        | .error reason => .error reason
        | .ok g => scanLetters k r g

/-- Reads an option by its name, with the value that is attached to it. It may wait for its
value. -/
def scanName (k : Grammar) (name : List Char) (g : Given) :
    Except Stop (Given × Option Parameter) :=
  let (name, value) := match Text.splitOnce '=' name with
    | some (n, v) => (n, some (String.ofList v))
    | none => (name, none)
  match k.parameters.find? (·.long == String.ofList name) with
  | none => .error .usage
  | some p =>
    match p.kind.takesValue, value with
    | true, some v => (g.add p v).map (·, none)
    | true, none => .ok (g, some p)
    | false, some _ => .error .usage
    | false, none => (g.add p "").map (·, none)

/-- Reads the options of one argument. -/
def scanOption (k : Grammar) (arg : String) (g : Given) : Except Stop (Given × Option Parameter) :=
  match arg.toList with
  | '-' :: '-' :: name => k.scanName name g
  | _ :: letters => k.scanLetters letters g
  | [] => .error .usage

/-- Reads a level: what is given on it, and the command below with the arguments behind its name. An
option may wait for its value. -/
def scan (k : Grammar) : Option Parameter → List String → Given →
    Except Stop (Given × Option (String × List String))
  | some _, [], _ => .error .usage
  | some p, a :: rest, g =>
    if looksLikeOption a then .error .usage
    else
      match g.add p a with
      | .error reason => .error reason
      | .ok g => scan k none rest g
  | none, [], g => .ok (g, none)
  | none, a :: rest, g =>
    if k.commands.contains a then .ok (g, some (a, rest))
    else if a = "--" then (rest.foldlM k.addWord g).map (·, none)
    else if looksLikeOption a then
      match k.scanOption a g with
      | .error reason => .error reason
      | .ok (g, waiting) => scan k waiting rest g
    else
      match k.addWord g a with
      | .error reason => .error reason
      | .ok g => scan k none rest g

end Grammar

end ImageRelay.CommandLine
