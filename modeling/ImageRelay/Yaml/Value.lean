import ImageRelay.Decimal.Binary64
import ImageRelay.Yaml.Flat

/-!
# Values of documents

The value of a document with the types of its scalars: a plain scalar that looks like nothing, a
truth value or a number is one, and every other scalar is a text, unless its tag says otherwise. No
key of a mapping may be repeated.

## Main definitions
* `Value.ofPlain`: the value of a plain scalar.
* `Document.value?`: the value of a document.
-/

set_option autoImplicit false

namespace ImageRelay.Yaml

/-- The value of a document. Of a number only its text is known. -/
inductive Value
  | null
  | bool (b : Bool)
  | number (text : List Char)
  | string (s : String)
  | sequence (items : List Value)
  | mapping (entries : List (Value × Value))

/-! ## Plain scalars -/

namespace Plain

/-- Whether a plain scalar stands for nothing. -/
def isNull (s : List Char) : Bool :=
  s.isEmpty || ["null", "Null", "NULL", "~"].contains (String.ofList s)

/-- The truth value that a plain scalar stands for. -/
def bool? (s : List Char) : Option Bool :=
  if ["true", "True", "TRUE"].contains (String.ofList s) then some true
  else if ["false", "False", "FALSE"].contains (String.ofList s) then some false
  else none

/-- A text without a sign before it. -/
def unsigned (s : List Char) : List Char :=
  match s with
  | '+' :: r | '-' :: r => r
  | _ => s

/-- Whether a text has digits only. -/
def isDigits (s : List Char) : Bool := !s.isEmpty && s.all Char.isDigit

/-- Whether a text has digits behind a leading zero, which are a text and no number. -/
def isZeroLed (s : List Char) : Bool :=
  match unsigned s with
  | '0' :: r => isDigits r
  | _ => false

/-- The value of digits of some radix, if there are digits only. -/
def radixValue? (radix : Nat) (s : List Char) : Option Nat :=
  if s.isEmpty then none
  else
    s.foldlM (fun v c =>
      let d := if c.isDigit then c.toNat - '0'.toNat
        else if c.isAlpha then c.toLower.toNat - 'a'.toNat + 10
        else radix
      if d < radix then some (v * radix + d) else none) 0

/-- Whether a text is a whole number of at most 128 bits, in decimal digits or in those of another
radix behind its mark. -/
def isInteger (s : List Char) : Bool :=
  let negative := s.head? == some '-'
  let bound := if negative then Nat.pow 2 127 + 1 else Nat.pow 2 128
  let fits (v : Option Nat) : Bool := v.any (· < bound)
  match unsigned s with
  | '0' :: 'x' :: r => fits (radixValue? 16 r)
  | '0' :: 'o' :: r => fits (radixValue? 8 r)
  | '0' :: 'b' :: r => fits (radixValue? 2 r)
  | r => !isZeroLed s && fits (radixValue? 10 r)

/-- Whether a number of these digits and this power of ten is within the range of binary
floating-point numbers. -/
def isFinite (digits : List Char) (exponent : Int) : Bool :=
  let value := digits.foldl (fun v c => 10 * v + (c.toNat - '0'.toNat)) 0
  let order := exponent + digits.length
  if value = 0 || order < -400 then true
  else if order > 400 + digits.length then false
  else if exponent ≥ 0 then (Decimal.Magnitude.nearest (value * Nat.pow 10 exponent.toNat) 1).isSome
  else (Decimal.Magnitude.nearest value (Nat.pow 10 exponent.natAbs)).isSome

/-- The power of ten behind the mark of an exponent, if it is well formed. -/
def exponent? (s : List Char) : Option Int :=
  let digits := unsigned s
  if isDigits digits then
    let n : Nat := digits.foldl (fun v c => 10 * v + (c.toNat - '0'.toNat)) 0
    some (if s.head? == some '-' then -n else n)
  else none

/-- Whether a text is a decimal number in the range of binary floating-point numbers. -/
def isDecimal (s : List Char) : Bool :=
  let s := unsigned s
  let (whole, s) := (s.takeWhile Char.isDigit, s.dropWhile Char.isDigit)
  let (fraction, s) := match s with
    | '.' :: r => (r.takeWhile Char.isDigit, r.dropWhile Char.isDigit)
    | _ => ([], s)
  if whole.isEmpty && fraction.isEmpty then false
  else
    match s with
    | [] => isFinite (whole ++ fraction) (-fraction.length)
    | c :: r =>
      if c == 'e' || c == 'E' then
        match exponent? r with
        | some e => isFinite (whole ++ fraction) (e - fraction.length)
        | none => false
      else false

/-- Whether a text is a number that is not whole, or one of the special numbers. -/
def isFloat (s : List Char) : Bool :=
  let t := if s.head? == some '+' then s.drop 1 else s
  [".inf", ".Inf", ".INF"].contains (String.ofList t) ||
    ["-.inf", "-.Inf", "-.INF", ".nan", ".NaN", ".NAN"].contains (String.ofList s) ||
    (!isZeroLed s && isDecimal s)

end Plain

/-- The value of a plain scalar. -/
def Value.ofPlain (s : List Char) : Value :=
  if Plain.isNull s then .null
  else
    match Plain.bool? s with
    | some b => .bool b
    | none =>
      if Plain.isInteger s || Plain.isFloat s then .number s else .string (String.ofList s)

/-- The tag of a type that every document knows. -/
def coreTag (name : String) : List Char := s!"tag:yaml.org,2002:{name}".toList

/-- The value of a scalar: a tag of a known type is binding, any other known tag makes a text, and a
tag of the document's own changes nothing. -/
def Value.ofScalar (props : Properties Nat) (text : List Char) (plain : Bool) :
    Except Fault Value :=
  let resolved := if plain then ofPlain text else .string (String.ofList text)
  let malformed : Except Fault Value := .error ⟨"invalid value for its tag", none⟩
  match props.tag with
  | none => .ok resolved
  | some tag =>
    if tag = coreTag "bool" then
      match Plain.bool? text with
      | some b => .ok (.bool b)
      | none => malformed
    else if tag = coreTag "int" then
      if Plain.isInteger text then .ok (.number text) else malformed
    else if tag = coreTag "float" then
      if Plain.isFloat text || Plain.isInteger text then .ok (.number text) else malformed
    else if tag = coreTag "null" then
      if Plain.isNull text then .ok .null else malformed
    else if tag.head? == some '!' then .ok resolved
    else .ok (.string (String.ofList text))

/-! ## Documents -/

/-- The deepest nesting of a document. -/
def maxNesting : Nat := 128

/-- Whether two keys are scalars of the same value. -/
def Value.sameKey : Value → Value → Bool
  | .null, .null => true
  | .bool a, .bool b => a == b
  | .number a, .number b => a == b
  | .string a, .string b => a == b
  | _, _ => false

/-- Whether a key is among those of some entries. -/
def Value.hasKey (k : Value) (entries : List (Value × Value)) : Bool :=
  entries.any fun e => k.sameKey e.1

mutual

/-- The number of events that spell a node. -/
def Node.events : Node Nat → Nat
  | .scalar .. | .alias _ => 1
  | .sequence _ items => 2 + Node.itemEvents items
  | .mapping _ entries => 2 + Node.entryEvents entries

/-- `Node.events` on the items of a sequence. -/
def Node.itemEvents : List (Node Nat) → Nat
  | [] => 0
  | n :: r => Node.events n + Node.itemEvents r

/-- `Node.events` on the entries of a mapping. -/
def Node.entryEvents : List (Node Nat × Node Nat) → Nat
  | [] => 0
  | (k, v) :: r => Node.events k + Node.events v + Node.entryEvents r

end

namespace Document

/-- The value of a node that may be nested `depth` deep, and how many aliases may still be followed.
-/
def nodeValue? (d : Document) : Nat → Nat → Node Nat → Except Fault (Value × Nat)
  | depth, aliases, n =>
    let start : Except Fault Nat := match n with
      | .alias _ =>
        if aliases = 0 then .error ⟨"repetition limit exceeded", none⟩ else .ok (aliases - 1)
      | _ => .ok aliases
    match start with
    | .error fault => .error fault
    | .ok aliases =>
      match depth, d.follow n with
      | _, .scalar props text plain => (Value.ofScalar props text plain).map (·, aliases)
      | _, .alias _ => .error ⟨"unknown anchor", none⟩
      | 0, _ => .error ⟨"recursion limit exceeded", none⟩
      | depth + 1, .sequence _ items => do
        let (items, aliases) ← items.foldlM (fun (done, aliases) n => do
          let (v, aliases) ← nodeValue? d depth aliases n
          return (v :: done, aliases)) (([] : List Value), aliases)
        return (.sequence items.reverse, aliases)
      | depth + 1, .mapping _ entries => do
        let (entries, aliases) ← entries.foldlM (fun (done, aliases) (k, v) => do
          let (k, aliases) ← nodeValue? d depth aliases k
          if k.hasKey done then throw ⟨"duplicate entry", none⟩
          let (v, aliases) ← nodeValue? d depth aliases v
          return ((k, v) :: done, aliases)) (([] : List (Value × Value)), aliases)
        return (.mapping entries.reverse, aliases)

/-- The value of a document. -/
def value? (d : Document) : Except Fault Value :=
  (d.nodeValue? maxNesting (100 * d.root.events) d.root).map (·.1)

end Document

/-- The values of the documents of a text. -/
def valuesOf (text : String) : Except Fault (List Value) := do
  (← documentsOf text).mapM Document.value?

end ImageRelay.Yaml
