import ImageRelay.Text.Hex
import ImageRelay.Yaml.Token

/-!
# Scalars

The four written forms of a scalar: plain, between apostrophes, between double quotes, and in a
block of lines. In the first three, line breaks are folded: a single one becomes a space, and of
several the first is dropped.

## Main definitions
* `Folded`: a text with the blanks and line breaks that may still follow from its last character.
* `Cursor.plainScalar`, `Cursor.quotedScalar`, `Cursor.blockScalar`: the readers.
-/

set_option autoImplicit false

namespace ImageRelay.Yaml

/-! ## Folding -/

/-- A text that is being folded, all lists in reverse: the text, the blanks after it on its line,
the first line break after it and the further ones. -/
structure Folded where
  text : List Char := []
  gap : List Char := []
  first : List Char := []
  further : List Char := []
  broken : Bool := false

namespace Folded

/-- A blank; at the start of a line it is no part of the text. -/
def blank (f : Folded) (c : Char) : Folded := if f.broken then f else { f with gap := c :: f.gap }

/-- A line break that counts as `brk`; the blanks before it are dropped. -/
def newline (f : Folded) (brk : List Char) : Folded :=
  if f.broken then { f with further := brk ++ f.further }
  else { f with gap := [], first := brk, broken := true }

/-- A line break that is dropped together with the blanks after it. -/
def continued (f : Folded) : Folded := { f with broken := true }

/-- Settles the blanks and line breaks after the text, because more text follows. -/
def join (f : Folded) : Folded :=
  if f.broken then
    let between :=
      if f.first == ['\n'] then if f.further.isEmpty then [' '] else f.further
      else f.further ++ f.first
    { text := between ++ f.text }
  else { text := f.gap ++ f.text }

/-- A character of the text. -/
def push (f : Folded) (c : Char) : Folded :=
  let f := f.join
  { f with text := c :: f.text }

end Folded

/-! ## Plain scalars -/

/-- Whether a character ends a plain scalar inside brackets. -/
def isFlowEnd (c : Char) : Bool := c == ',' || c == '[' || c == ']' || c == '{' || c == '}'

/-- The loop of `Cursor.plainScalar`: the folded text, and whether the last line break was followed
by nothing of it. -/
def Cursor.plainLoop (inFlow : Bool) (indent : Int) :
    Nat → Folded → Cursor → Except Fault (Folded × Cursor)
  | 0, f, c => .ok (f, c)
  | fuel + 1, f, c =>
    match c.rest with
    | [] => .ok (f, c)
    | x :: r =>
      if isGap x then
        if f.broken && (c.mark.column : Int) < indent && x == '\t' then
          .error ⟨"a tab violates the indentation", c.mark⟩
        else plainLoop inFlow indent fuel (f.blank x) (c.skip 1)
      else if isBreak x then
        let (brk, c) := c.breakLine
        plainLoop inFlow indent fuel (f.newline brk) c
      else
        let between := f.broken || !f.gap.isEmpty
        if between && !inFlow && (c.mark.column : Int) < indent then .ok (f, c)
        else if c.mark.column == 0 && atDocumentMarker c.rest then .ok (f, c)
        else if between && x == '#' then .ok (f, c)
        else if inFlow && x == ':' && (r.head?.any fun y => isFlowEnd y || y == '?') then
          .error ⟨"unexpected ':'", c.mark⟩
        else if (x == ':' && atGap r) || (inFlow && isFlowEnd x) then .ok (f, c)
        else plainLoop inFlow indent fuel (f.push x) (c.skip 1)

/-- A plain scalar inside a collection of the given indentation. The second component tells whether
line breaks follow it. -/
def Cursor.plainScalar (inFlow : Bool) (indent : Int) (c : Cursor) :
    Except Fault (List Char × Bool × Cursor) :=
  (c.plainLoop inFlow (indent + 1) (c.rest.length + 1) {}).map fun (f, c) =>
    (f.text.reverse, f.broken, c)

/-! ## Quoted scalars -/

/-- The character that an escape of one letter stands for. -/
def simpleEscape? : Char → Option Char
  | '0' => some '\x00'
  | 'a' => some '\x07'
  | 'b' => some '\x08'
  | 't' => some '\t'
  | '\t' => some '\t'
  | 'n' => some '\n'
  | 'v' => some '\x0b'
  | 'f' => some '\x0c'
  | 'r' => some '\r'
  | 'e' => some '\x1b'
  | ' ' => some ' '
  | '"' => some '"'
  | '/' => some '/'
  | '\\' => some '\\'
  | 'N' => some '\u0085'
  | '_' => some '\u00a0'
  | 'L' => some '\u2028'
  | 'P' => some '\u2029'
  | _ => none

/-- How many digits an escape by number takes. -/
def numericEscape? : Char → Option Nat
  | 'x' => some 2
  | 'u' => some 4
  | 'U' => some 8
  | _ => none

/-- The character of an escape whose letter is next, and the text after it. -/
def Cursor.escape (c : Cursor) : Except Fault (Char × Cursor) :=
  match c.rest with
  | [] => .error ⟨"unknown escape character", c.mark⟩
  | x :: r =>
    match simpleEscape? x, numericEscape? x with
    | some y, _ => .ok (y, c.skip 1)
    | none, none => .error ⟨"unknown escape character", c.mark⟩
    | none, some n =>
      match Text.hexNumber? n r with
      | none => .error ⟨"expected a hexadecimal number", c.mark⟩
      | some v =>
        if v.isValidChar then .ok (Char.ofNat v, c.skip (n + 1))
        else .error ⟨"invalid character code", c.mark⟩

/-- The loop of `Cursor.quotedScalar`. -/
def Cursor.quotedLoop (single : Bool) : Nat → Folded → Cursor → Except Fault (Folded × Cursor)
  | 0, _, c => .error ⟨"unexpected end of a quoted scalar", c.mark⟩
  | fuel + 1, f, c =>
    match c.rest with
    | [] => .error ⟨"unexpected end of a quoted scalar", c.mark⟩
    | x :: r =>
      if isGap x then quotedLoop single fuel (f.blank x) (c.skip 1)
      else if isBreak x then
        let (brk, c) := c.breakLine
        quotedLoop single fuel (f.newline brk) c
      else if c.mark.column == 0 && atDocumentMarker c.rest then
        .error ⟨"unexpected document marker", c.mark⟩
      else if single && x == '\'' then
        if r.head? == some '\'' then quotedLoop single fuel (f.push x) (c.skip 2)
        else .ok (f.join, c.skip 1)
      else if !single && x == '"' then .ok (f.join, c.skip 1)
      else if !single && x == '\\' then
        if r.head?.any isBreak then
          quotedLoop single fuel f.join.continued (c.skip 1).breakLine.2
        else
          match (c.skip 1).escape with
          | .error fault => .error fault
          | .ok (y, c) => quotedLoop single fuel (f.push y) c
      else quotedLoop single fuel (f.push x) (c.skip 1)

/-- A quoted scalar whose opening quote is next. -/
def Cursor.quotedScalar (single : Bool) (c : Cursor) : Except Fault (List Char × Cursor) :=
  ((c.skip 1).quotedLoop single (c.rest.length + 1) {}).map fun (f, c) => (f.text.reverse, c)

/-! ## Block scalars -/

/-- What happens to the line breaks at the end of a block scalar. -/
inductive Chomping
  | strip
  | clip
  | keep
  deriving DecidableEq

/-- The header of a block scalar after its indicator: the chomping and the indentation. -/
def Cursor.blockHeader (c : Cursor) : Except Fault (Chomping × Option Nat × Cursor) :=
  let chomping? (c : Cursor) : Option Chomping × Cursor :=
    match c.rest.head? with
    | some '+' => (some .keep, c.skip 1)
    | some '-' => (some .strip, c.skip 1)
    | _ => (none, c)
  let indent? (c : Cursor) : Except Fault (Option Nat × Cursor) :=
    match c.rest.head? with
    | some x =>
      if x == '0' then .error ⟨"indentation indicator equal to 0", c.mark⟩
      else if x.isDigit then .ok (some (x.toNat - '0'.toNat), c.skip 1)
      else .ok (none, c)
    | none => .ok (none, c)
  match chomping? c with
  | (some k, c) => (indent? c).map fun (i, c) => (k, i, c)
  | (none, c) => (indent? c).map fun (i, c) =>
    let (k, c) := if i.isSome then chomping? c else (none, c)
    (k.getD .clip, i, c)

/-- The line breaks before the next line of a block scalar, in reverse. An indentation that is not
known yet is set to the deepest of these lines. -/
def Cursor.blockBreaks (indent? : Option Nat) (c : Cursor) :
    Nat → Nat → List Char → Except Fault (Nat × List Char × Cursor)
  | 0, deepest, breaks => .ok (indent?.getD deepest, breaks, c)
  | fuel + 1, deepest, breaks =>
    let wanted := c.rest.takeWhile (· == ' ')
    let spaces := match indent? with
      | some i => min wanted.length (i - c.mark.column)
      | none => wanted.length
    let c' := c.skip spaces
    let deepest := max deepest c'.mark.column
    let inside := match indent? with
      | some i => c'.mark.column < i
      | none => true
    if inside && c'.rest.head? == some '\t' then
      .error ⟨"a tab where indentation is expected", c'.mark⟩
    else
      match c'.breakLine with
      | ([], _) => .ok (indent?.getD deepest, breaks, c')
      | (brk, next) => blockBreaks indent? next fuel deepest (brk ++ breaks)

/-- The lines of a block scalar, in reverse: the text, the last line break of it and the breaks
after that. -/
def Cursor.blockLines (literal : Bool) (indent : Nat) :
    Nat → List Char → List Char → List Char → Bool → Cursor →
      Except Fault (List Char × List Char × List Char × Cursor)
  | 0, text, last, breaks, _, c => .ok (text, last, breaks, c)
  | fuel + 1, text, last, breaks, wasIndented, c =>
    if c.mark.column = indent && !c.rest.isEmpty then
      let indented := c.rest.head?.any isGap
      let text :=
        if !literal && last == ['\n'] && !wasIndented && !indented then
          breaks ++ (if breaks.isEmpty then [' '] else []) ++ text
        else breaks ++ last ++ text
      let (line, c) := c.takeWhile (!isBreak ·)
      let (last, c) := c.breakLine
      match c.blockBreaks (some indent) (c.rest.length + 1) 0 [] with
      | .error fault => .error fault
      | .ok (_, breaks, c) =>
        blockLines literal indent fuel (line.reverse ++ text) last breaks indented c
    else .ok (text, last, breaks, c)

/-- A block scalar inside a collection of the given indentation; its indicator is next. -/
def Cursor.blockScalar (literal : Bool) (parent : Int) (c : Cursor) :
    Except Fault (List Char × Cursor) := do
  let (chomping, offset, c) ← (c.skip 1).blockHeader
  let c := c.skipGap.skipComment
  if !c.atBreak then throw ⟨"expected a comment or a line break", c.mark⟩
  let c := c.breakLine.2
  let fixed := offset.map fun n => (max parent 0).toNat + n
  let (deepest, breaks, c) ← c.blockBreaks fixed (c.rest.length + 1) 0 []
  let indent := fixed.getD (max deepest (max (parent + 1).toNat 1))
  let (text, last, breaks, c) ← c.blockLines literal indent (c.rest.length + 1) [] [] breaks false
  let ending := match chomping with
    | .strip => []
    | .clip => last
    | .keep => breaks ++ last
  return ((ending ++ text).reverse, c)

end ImageRelay.Yaml
