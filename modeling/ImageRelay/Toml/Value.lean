import ImageRelay.Decimal.Binary64

/-!
# TOML values

The values of a TOML document and its tables. How a table came to be decides what may still be
added to it, so a table carries its origin.

## Main definitions
* `Value`, `Entries`: values, and the entries of a table.
* `Entries.descend`: the table at the end of a path.
* `Entries.addHeader`, `Entries.addArrayHeader`, `Entries.addEntry`: what a line adds.
-/

set_option autoImplicit false

namespace ImageRelay.Toml

/-- How a table came to be: by a header of its own, on the way to the table of a header, on the way
of a dotted key, or between braces. -/
inductive Origin
  | header
  | implied
  | dotted
  | inlined
  deriving Repr, DecidableEq

/-- A value. Numbers are kept exact; a float is kept as it is written. -/
inductive Value
  | string (s : String)
  | integer (n : Int)
  | float (numeral : List Char)
  | boolean (b : Bool)
  | datetime
  | array (items : List Value) (ofTables : Bool)
  | table (origin : Origin) (entries : List (String × Value))

/-- The entries of a table, in the order of the text. -/
abbrev Entries : Type := List (String × Value)

namespace Entries

/-- Replaces the value at a key. -/
def set (es : Entries) (k : String) (v : Value) : Entries :=
  es.map fun e => if e.1 = k then (k, v) else e

/-- Changes the table at the end of a path, and makes the tables that are missing on the way. The
way leads through the last table of an array of tables. Tables between braces are closed, and a
dotted key only passes tables without a header. -/
def descend (dotted : Bool) (change : Origin → Entries → Option Entries) :
    List String → Origin → Entries → Option Entries
  | [], origin, es => change origin es
  | k :: path, _, es =>
    match es.lookup k with
    | none =>
      let origin := if dotted then .dotted else .implied
      (descend dotted change path origin []).map fun inner => es ++ [(k, .table origin inner)]
    | some (.table origin inner) =>
      if origin = .inlined || (dotted && origin = .header) then none
      else (descend dotted change path origin inner).map fun inner => es.set k (.table origin inner)
    | some (.array items true) =>
      match items.getLast? with
      | some (.table origin inner) =>
        if dotted && origin = .header then none
        else
          (descend dotted change path origin inner).map fun inner =>
            es.set k (.array (items.dropLast ++ [.table origin inner]) true)
      | _ => none
    | some _ => none

/-- Opens the table of a header; it must be new, or known only from the way to another. -/
def addHeader (path : List String) (root : Entries) : Option Entries :=
  match path.getLast? with
  | none => none
  | some k =>
    descend false (fun _ es =>
      match es.lookup k with
      | none => some (es ++ [(k, .table .header [])])
      | some (.table .implied inner) => some (es.set k (.table .header inner))
      | some _ => none) path.dropLast .header root

/-- Opens a further table of an array of tables. -/
def addArrayHeader (path : List String) (root : Entries) : Option Entries :=
  match path.getLast? with
  | none => none
  | some k =>
    descend false (fun _ es =>
      match es.lookup k with
      | none => some (es ++ [(k, .array [.table .header []] true)])
      | some (.array items true) => some (es.set k (.array (items ++ [.table .header []]) true))
      | some _ => none) path.dropLast .header root

/-- Adds an entry by its dotted key to the table of the given origin. -/
def addEntry (key : List String) (v : Value) (origin : Origin) (es : Entries) : Option Entries :=
  match key.getLast? with
  | none => none
  | some k =>
    descend true (fun here es =>
      if (here = .dotted) = (key.length = 1) then none
      else if (es.lookup k).isSome then none
      else some (es ++ [(k, v)])) key.dropLast origin es

end Entries

/-! ## Limits of numbers -/

/-- Whether an integer fits into 128 bits. -/
def fitsInteger (n : Int) : Bool := -(Nat.pow 2 127 : Int) ≤ n && n < Nat.pow 2 128

/-- The decimal digits of a numeral up to another character, and the rest. -/
def splitDigits (s : List Char) : List Char × List Char :=
  (s.takeWhile Char.isDigit, s.dropWhile Char.isDigit)

/-- The number that decimal digits spell. -/
def digitsValue (s : List Char) : Nat := s.foldl (fun n c => 10 * n + (c.toNat - '0'.toNat)) 0

/-- Whether a float is too large for a binary floating-point number. -/
def overflows (numeral : List Char) : Bool :=
  let s := match numeral with
    | '+' :: r | '-' :: r => r
    | r => r
  let (whole, s) := splitDigits s
  let (fraction, s) := match s with
    | '.' :: r => splitDigits r
    | r => ([], r)
  let exponent : Int := match s with
    | _ :: '-' :: r => -digitsValue r
    | _ :: '+' :: r => digitsValue r
    | _ :: r => digitsValue r
    | [] => 0
  let digits := (whole ++ fraction).dropWhile (· == '0')
  let top : Int := exponent - fraction.length + digits.length
  if digits.isEmpty || top < 300 then false
  else if top > 310 then true
  else
    let shift := exponent - fraction.length
    let n := digitsValue digits
    (if shift ≥ 0 then Decimal.Magnitude.nearest (n * Nat.pow 10 shift.toNat) 1
      else Decimal.Magnitude.nearest n (Nat.pow 10 (-shift).toNat)).isNone

mutual

/-- Whether all numbers of a value are within the limits. -/
def Value.fits : Value → Bool
  | .integer n => fitsInteger n
  | .float numeral => !overflows numeral
  | .array items _ => Value.itemsFit items
  | .table _ entries => Value.entriesFit entries
  | _ => true

/-- Whether all numbers of some items are within the limits. -/
def Value.itemsFit : List Value → Bool
  | [] => true
  | v :: r => v.fits && Value.itemsFit r

/-- Whether all numbers of some entries are within the limits. -/
def Value.entriesFit : List (String × Value) → Bool
  | [] => true
  | (_, v) :: r => v.fits && Value.entriesFit r

end

end ImageRelay.Toml
