import ImageRelay.Decimal.Binary64
import ImageRelay.Json.Written
import ImageRelay.Keyed

/-!
# JSON values

A written text with a meaning: strings are texts, the fields of objects are in key order and
without repetition, and a number is a 64-bit integer where it is written as one that fits, else a
binary floating-point number.

## Main definitions
* `Value.parse`: the value of a text.
* `Value.text`: the compact text of a value.
-/

set_option autoImplicit false

namespace ImageRelay.Json

open Decimal (Magnitude)

/-- A number. -/
inductive Number
  | integer (n : Int)
  | float (negative : Bool) (magnitude : Magnitude)
  deriving Repr, DecidableEq

/-- A JSON value. -/
inductive Value
  | null
  | bool (b : Bool)
  | number (n : Number)
  | string (s : String)
  | array (items : List Value)
  | object (fields : List (String × Value))

/-! ## Numbers -/

namespace Numeral

/-- As many of the digits as fit into 64 bits together with what was read before them, and how many
are left over. -/
def significand : Nat → List Nat → Nat × List Nat
  | v, [] => (v, [])
  | v, d :: r => if 10 * v + d < UInt64.size then significand (10 * v + d) r else (v, d :: r)

/-- A magnitude times a power of ten, in steps of at most 308; none if it is too large. -/
def shift (x : Magnitude) (exponent : Int) : Nat → Option Magnitude
  | 0 => none
  | fuel + 1 =>
    if exponent.natAbs ≤ 308 then
      match Magnitude.nearest (Nat.pow 10 exponent.natAbs) 1 with
      | some power => if exponent ≥ 0 then x.mul power else x.div power
      | none => none
    else if x.mantissa = 0 then some x
    else if exponent ≥ 0 then none
    else
      match Magnitude.nearest (Nat.pow 10 308) 1 with
      | some power =>
        match x.div power with
        | some x => shift x (exponent + 308) fuel
        | none => none
      | none => none

/-- A significand times a power of ten, both steps rounded. -/
def scaled (significand : Nat) (exponent : Int) : Option Magnitude :=
  (Magnitude.nearest significand 1).bind fun x => shift x exponent 10

/-- The number that a numeral stands for; none if it is too large. -/
def number? (n : Numeral) : Option Number :=
  let (whole, excess) := significand 0 n.whole
  let float (x : Option Magnitude) : Option Number := x.map (.float n.negative)
  if excess.isEmpty && n.fraction.isNone && n.exponent.isNone then
    if !n.negative then some (.integer whole)
    else if whole ≠ 0 && whole ≤ Nat.pow 2 63 then some (.integer (-whole))
    else float (scaled whole 0)
  else
    let fraction := n.fraction.getD []
    let (value, rest) := significand whole fraction
    let kept := fraction.length - rest.length
    let start : Int := (excess.length : Int) - kept
    match n.exponent with
    | none => float (scaled value start)
    | some (negative, digits) =>
      let e : Nat := digits.foldl (fun v d => 10 * v + d) 0
      if e ≥ Nat.pow 2 31 then
        if value ≠ 0 && !negative then none else float (some ⟨0, Magnitude.minExponent⟩)
      else
        float (scaled value (if negative then start - e else start + e))

end Numeral

/-! ## Reading -/

/-- The deepest nesting of a value. -/
def maxDepth : Nat := 127

mutual

/-- The meaning of a written value that may be nested `depth` deep, if it has one. -/
def Value.ofWritten? : Nat → Written → Option Value
  | _, .null => some .null
  | _, .bool b => some (.bool b)
  | _, .number n => n.number?.map .number
  | _, .string s => (textOf? s).map .string
  | 0, .array _ | 0, .object _ => none
  | depth + 1, .array items => (Value.ofItems? depth items).map .array
  | depth + 1, .object fields =>
    (Value.ofMembers? depth fields).map fun fields => .object (Keyed.ofList fields)

/-- The meanings of the items of an array. -/
def Value.ofItems? : Nat → List Written → Option (List Value)
  | _, [] => some []
  | depth, w :: r =>
    match Value.ofWritten? depth w, Value.ofItems? depth r with
    | some v, some vs => some (v :: vs)
    | _, _ => none

/-- The meanings of the members of an object, in the order of the text. -/
def Value.ofMembers? : Nat → List (List Piece × Written) → Option (List (String × Value))
  | _, [] => some []
  | depth, (k, w) :: r =>
    match textOf? k, Value.ofWritten? depth w, Value.ofMembers? depth r with
    | some k, some v, some vs => some ((k, v) :: vs)
    | _, _, _ => none

end

/-- The value of a text. -/
def Value.parse (s : List UInt8) : Option Value :=
  (Written.parse s).bind (Value.ofWritten? maxDepth)

/-! ## Writing -/

/-- The text of a magnitude: its shortest digits, positional with at least one digit behind the
point for powers of ten from -5 to 15, else with an exponent of a sign and at least two digits. -/
def magnitudeText (x : Magnitude) : String :=
  if x.mantissa = 0 then "0.0"
  else
    let ⟨digits, e⟩ := x.shortest
    if 0 ≤ e && e ≤ 15 then
      let n := e.toNat + 1
      let whole := digits.take n ++ List.replicate (n - digits.length) '0'
      let rest := digits.drop n
      String.ofList (whole ++ '.' :: if rest.isEmpty then ['0'] else rest)
    else if -5 ≤ e && e < 0 then
      String.ofList ("0.".toList ++ List.replicate ((-e).toNat - 1) '0' ++ digits)
    else
      let point := if digits.length ≤ 1 then digits else digits.take 1 ++ '.' :: digits.drop 1
      let n := Nat.toDigits 10 e.natAbs
      let n := if n.length < 2 then '0' :: n else n
      String.ofList (point ++ ['e', if e < 0 then '-' else '+'] ++ n)

/-- The text of a number. -/
def Number.text : Number → String
  | integer n => toString n
  | float negative x => (if negative then "-" else "") ++ magnitudeText x

mutual

/-- The compact text of a value. -/
def Value.text : Value → String
  | .null => "null"
  | .bool b => if b then "true" else "false"
  | .number n => n.text
  | .string s => quote s
  | .array items => "[" ++ ",".intercalate (Value.itemTexts items) ++ "]"
  | .object fields => objectText (Value.memberTexts fields)

/-- The texts of the items of an array. -/
def Value.itemTexts : List Value → List String
  | [] => []
  | v :: r => Value.text v :: Value.itemTexts r

/-- The texts of the values of the fields of an object. -/
def Value.memberTexts : List (String × Value) → List (String × String)
  | [] => []
  | (k, v) :: r => (k, Value.text v) :: Value.memberTexts r

end

end ImageRelay.Json
