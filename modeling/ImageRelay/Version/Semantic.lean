import ImageRelay.Text.Quoted
import ImageRelay.Text.Split

/-!
# Semantic versions

`major.minor.patch`, then a pre-release after `-` and build metadata after `+`, both of them
identifiers joined by dots. Numbers and numeric pre-release identifiers have no leading zero, and
the three numbers fit in 64 bits.

## Main definitions
* `Semantic.parse`: reads a version, or tells what is wrong with the text.
* `Semantic.text`: writes it.
-/

set_option autoImplicit false

namespace ImageRelay

/-- A semantic version. The two lists hold the characters of the pre-release and of the build
metadata, without the sign before them, and are empty where the version has none. -/
structure Semantic where
  major : Nat
  minor : Nat
  patch : Nat
  pre : List Char
  build : List Char
  deriving Repr, DecidableEq

namespace Semantic

/-! ## Faults -/

/-- The parts of a version that a fault can lie in. -/
inductive Part
  | major
  | minor
  | patch
  | pre
  | build
  deriving Repr, DecidableEq

/-- The name of a part. -/
def Part.name : Part → String
  | major => "major version number"
  | minor => "minor version number"
  | patch => "patch version number"
  | pre => "pre-release identifier"
  | build => "build metadata"

/-- What is wrong with a text that is no version. -/
inductive Fault
  | empty
  | ended (part : Part)
  | unexpected (c : Char) (part : Part)
  | unexpectedAfter (c : Char) (part : Part)
  | leadingZero (part : Part)
  | tooLarge (part : Part)
  | emptySegment (part : Part)
  deriving Repr, DecidableEq

/-- The text of a fault. -/
def Fault.message : Fault → String
  | empty => "empty string, expected a semver version"
  | ended part => s!"unexpected end of input while parsing {part.name}"
  | unexpected c part => s!"unexpected character {Text.quoted c} while parsing {part.name}"
  | unexpectedAfter c part => s!"unexpected character {Text.quoted c} after {part.name}"
  | leadingZero part => s!"invalid leading zero in {part.name}"
  | tooLarge part => s!"value of {part.name} exceeds u64::MAX"
  | emptySegment part => s!"empty identifier segment in {part.name}"

/-! ## Reading -/

/-- The value of decimal digits. -/
def numberOf (digits : List Char) : Nat :=
  digits.foldl (fun n d => 10 * n + (d.toNat - '0'.toNat)) 0

/-- Whether a number or numeric identifier begins with a zero that it does not need. -/
def hasLeadingZero (digits : List Char) : Bool := digits.head? == some '0' && digits.length > 1

/-- A number at the start of the text, and the rest. -/
def number (part : Part) (s : List Char) : Except Fault (Nat × List Char) :=
  let digits := s.takeWhile Char.isDigit
  let rest := s.dropWhile Char.isDigit
  if digits.isEmpty then
    match rest with
    | [] => .error (.ended part)
    | c :: _ => .error (.unexpected c part)
  else if hasLeadingZero digits then .error (.leadingZero part)
  else if numberOf digits ≥ UInt64.size then .error (.tooLarge part)
  else .ok (numberOf digits, rest)

/-- The rest of the text after the dot that ends a number. -/
def dot (part : Part) : List Char → Except Fault (List Char)
  | [] => .error (.ended part)
  | c :: r => if c = '.' then .ok r else .error (.unexpectedAfter c part)

/-- A character of an identifier. -/
def isIdentifierChar (c : Char) : Bool := c.isAlphanum || c == '-'

/-- What is wrong with one identifier of a pre-release or of build metadata. -/
def segmentFault? (part : Part) (segment : List Char) : Option Fault :=
  if segment.isEmpty then some (.emptySegment part)
  else if part = .pre && segment.all Char.isDigit && hasLeadingZero segment then
    some (.leadingZero part)
  else none

/-- The identifiers at the start of the text, and the rest. -/
def identifiers (part : Part) (s : List Char) : Except Fault (List Char × List Char) :=
  let text := s.takeWhile fun c => isIdentifierChar c || c == '.'
  match (Text.splitAll '.' text).findSome? (segmentFault? part) with
  | some fault => .error fault
  | none => .ok (text, s.drop text.length)

/-- Identifiers after the sign that announces them, none where the sign is absent. The second
component is the part that was read last. -/
def announced (sign : Char) (part last : Part) :
    List Char → Except Fault (List Char × Part × List Char)
  | [] => .ok ([], last, [])
  | c :: r =>
    if c = sign then (identifiers part r).map fun (text, rest) => (text, part, rest)
    else .ok ([], last, c :: r)

/-- Reads a version. -/
def parse (s : List Char) : Except Fault Semantic := do
  if s.isEmpty then throw .empty
  let (major, s) ← number .major s
  let s ← dot .major s
  let (minor, s) ← number .minor s
  let s ← dot .minor s
  let (patch, s) ← number .patch s
  let (pre, last, s) ← announced '-' .pre .patch s
  let (build, last, s) ← announced '+' .build last s
  match s with
  | [] => return ⟨major, minor, patch, pre, build⟩
  | c :: _ => throw (.unexpectedAfter c last)

/-! ## Writing -/

/-- Writes a version. -/
def text (v : Semantic) : List Char :=
  s!"{v.major}.{v.minor}.{v.patch}".toList
    ++ (if v.pre.isEmpty then [] else '-' :: v.pre)
    ++ if v.build.isEmpty then [] else '+' :: v.build

end Semantic

end ImageRelay
