/-!
# Tokens of block-structured documents

The vocabulary of the reader of YAML 1.1 streams: places in the text, classes of characters, what
can be wrong with a stream, and the tokens that structure it. A line break of any kind but the two
Unicode separators counts as a line feed.

## Main definitions
* `Mark`, `Cursor`: a place, and the text from there on.
* `Fault`: what is wrong with a stream, and where.
* `Token`: indicators, scalars and the block structure that indentation implies.
-/

set_option autoImplicit false

namespace ImageRelay.Yaml

/-! ## Characters -/

/-- A space or a tab. -/
def isGap (c : Char) : Bool := c == ' ' || c == '\t'

/-- A line break. -/
def isBreak (c : Char) : Bool :=
  c == '\n' || c == '\r' || c == '\u0085' || c == '\u2028' || c == '\u2029'

/-- Whether a text is at its end, or at a gap or a line break. -/
def atGap : List Char → Bool
  | [] => true
  | c :: _ => isGap c || isBreak c

/-- A character of the name of an anchor or of a tag handle. -/
def isNameChar (c : Char) : Bool := c.isAlphanum || c == '_' || c == '-'

/-- A character that a stream may hold. -/
def isAllowed (c : Char) : Bool :=
  let n := c.toNat
  n == 0x09 || n == 0x0A || n == 0x0D || (0x20 ≤ n && n ≤ 0x7E) || n == 0x85 ||
    (0xA0 ≤ n && n ≤ 0xFFFD) || 0x10000 ≤ n

/-- Whether a text begins with one of the two document markers, followed by a gap. -/
def atDocumentMarker : List Char → Bool
  | '-' :: '-' :: '-' :: r | '.' :: '.' :: '.' :: r => atGap r
  | _ => false

/-! ## Places -/

/-- A place in the text, each number counted from zero. -/
structure Mark where
  index : Nat
  line : Nat
  column : Nat
  deriving Repr, DecidableEq

/-- The place after `n` characters of the same line. -/
def Mark.right (m : Mark) (n : Nat) : Mark :=
  { m with index := m.index + n, column := m.column + n }

/-- The place after a line break of `n` characters. -/
def Mark.down (m : Mark) (n : Nat) : Mark := ⟨m.index + n, m.line + 1, 0⟩

/-- The text that is not read yet, and where it begins. -/
structure Cursor where
  mark : Mark
  rest : List Char
  deriving Repr, DecidableEq

namespace Cursor

/-- A cursor at the start of a text. -/
def start (s : List Char) : Cursor := ⟨⟨0, 0, 0⟩, s⟩

/-- Passes `n` characters of one line. -/
def skip (c : Cursor) (n : Nat) : Cursor := ⟨c.mark.right n, c.rest.drop n⟩

/-- Passes one line break, if there is one, and gives the character that it counts as. -/
def breakLine (c : Cursor) : List Char × Cursor :=
  match c.rest with
  | '\r' :: '\n' :: r => (['\n'], ⟨c.mark.down 2, r⟩)
  | x :: r =>
    if x == '\u2028' || x == '\u2029' then ([x], ⟨c.mark.down 1, r⟩)
    else if isBreak x then (['\n'], ⟨c.mark.down 1, r⟩)
    else ([], c)
  | [] => ([], c)

/-- Passes the characters of one line that satisfy `p`, and gives them. -/
def takeWhile (c : Cursor) (p : Char → Bool) : List Char × Cursor :=
  let taken := c.rest.takeWhile p
  (taken, ⟨c.mark.right taken.length, c.rest.dropWhile p⟩)

/-- Passes spaces and tabs. -/
def skipGap (c : Cursor) : Cursor := (c.takeWhile isGap).2

/-- Passes a comment up to the end of its line, if there is one. -/
def skipComment (c : Cursor) : Cursor :=
  if c.rest.head? == some '#' then (c.takeWhile (!isBreak ·)).2 else c

/-- Whether the text is at its end or at a line break. -/
def atBreak (c : Cursor) : Bool :=
  match c.rest with
  | [] => true
  | x :: _ => isBreak x

end Cursor

/-! ## Faults -/

/-- What is wrong with a stream, and where if the place is known. -/
structure Fault where
  problem : String
  mark : Option Mark := none
  deriving Repr, DecidableEq

/-- The text of a fault; lines and columns are counted from one. -/
def Fault.message (f : Fault) : String :=
  match f.mark with
  | some m => s!"{f.problem} at line {m.line + 1} column {m.column + 1}"
  | none => f.problem

/-! ## Tokens -/

/-- A token. The start and end of block collections are implied by indentation. -/
inductive Token
  | versionDirective (major minor : Nat)
  | tagDirective (handle tagPrefix : List Char)
  | documentStart
  | documentEnd
  | blockSequenceStart
  | blockMappingStart
  | blockEnd
  | flowSequenceStart
  | flowSequenceEnd
  | flowMappingStart
  | flowMappingEnd
  | blockEntry
  | flowEntry
  | key
  | value
  | alias (name : List Char)
  | anchor (name : List Char)
  | tag (handle suffix : List Char)
  | scalar (text : List Char) (plain : Bool)
  deriving Repr, DecidableEq

end ImageRelay.Yaml
