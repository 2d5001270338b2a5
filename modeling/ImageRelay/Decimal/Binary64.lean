/-!
# Binary floating point in exact arithmetic

Magnitudes of 64-bit binary floating-point numbers as a natural number times a power of two,
rounding of quotients to the nearest of them, and the shortest decimals that round to one.

## Main definitions
* `Magnitude.nearest`: a quotient rounded to nearest, a tie to the even mantissa.
* `Magnitude.shortest`: the fewest digits that read back, of these the nearest.
-/

set_option autoImplicit false

namespace ImageRelay.Decimal

/-- The value `mantissa * 2 ^ exponent`. In what `nearest` gives, the mantissa has at most 53 bits
and the exponent is at least -1074. -/
structure Magnitude where
  mantissa : Nat
  exponent : Int
  deriving Repr, DecidableEq

/-- A quotient rounded to the nearest whole number, a tie to the even one. -/
def roundDiv (num den : Nat) : Nat :=
  let q := num / den
  let twice := 2 * (num % den)
  if twice > den || (twice = den && q % 2 = 1) then q + 1 else q

namespace Magnitude

/-- The least exponent. -/
def minExponent : Int := -1074

/-- The value as a quotient. -/
def ratio (x : Magnitude) : Nat × Nat :=
  if x.exponent ≥ 0 then (x.mantissa * Nat.pow 2 x.exponent.toNat, 1)
  else (x.mantissa, Nat.pow 2 (-x.exponent).toNat)

/-- The quotient of a fraction and a power of two, as a fraction. -/
def scale (num den : Nat) (exponent : Int) : Nat × Nat :=
  if exponent ≥ 0 then (num, den * Nat.pow 2 exponent.toNat)
  else (num * Nat.pow 2 (-exponent).toNat, den)

/-- The exponent at which a fraction has a mantissa of 53 bits, or the least one. -/
def exponentFor (num den : Nat) : Int :=
  let e : Int := (Nat.log2 num : Int) - Nat.log2 den - 52
  let (n, d) := scale num den e
  max minExponent (if n / d < Nat.pow 2 52 then e - 1 else e)

/-- The magnitude nearest to a fraction, none if it is too large. -/
def nearest (num den : Nat) : Option Magnitude :=
  if num = 0 then some ⟨0, minExponent⟩
  else
    let e := exponentFor num den
    let (n, d) := scale num den e
    let m := roundDiv n d
    let x : Magnitude := if m = Nat.pow 2 53 then ⟨Nat.pow 2 52, e + 1⟩ else ⟨m, e⟩
    if x.exponent > 971 then none else some x

/-- The product of two magnitudes, rounded. -/
def mul (x y : Magnitude) : Option Magnitude :=
  nearest (x.ratio.1 * y.ratio.1) (x.ratio.2 * y.ratio.2)

/-- The quotient of two magnitudes, rounded. -/
def div (x y : Magnitude) : Option Magnitude :=
  nearest (x.ratio.1 * y.ratio.2) (x.ratio.2 * y.ratio.1)

/-! ## Shortest decimals -/

/-- Decimal digits, the first of them before the point, times a power of ten. -/
structure Digits where
  digits : List Char
  exponent : Int
  deriving Repr, DecidableEq

/-- The power of ten below or at a fraction that is not zero. -/
def tenExponent (num den : Nat) : Int :=
  if num ≥ den then ((Nat.toDigits 10 (num / den)).length : Int) - 1
  else -(((List.range 400).find? fun j => num * Nat.pow 10 j ≥ den).getD 400 : Nat)

/-- Whether a fraction `p / q` rounds to the magnitude. -/
def roundsFrom (x : Magnitude) (p q : Nat) : Bool :=
  let (n, d) := x.ratio
  let narrow := x.mantissa = Nat.pow 2 52 && x.exponent > minExponent
  -- In units of a quarter of the last place.
  let (below, above) := if narrow then (1, 2) else (2, 2)
  let unit (k : Nat) : Nat × Nat := ratio ⟨k, x.exponent - 2⟩
  let low := n * (unit below).2 - (unit below).1 * d
  let high := n * (unit above).2 + (unit above).1 * d
  let left := p * (d * (unit below).2)
  let right := p * (d * (unit above).2)
  if x.mantissa % 2 = 0 then low * q ≤ left && right ≤ high * q
  else low * q < left && right < high * q

/-- The nearest decimal of `count` digits that rounds to the magnitude, as a whole number of units
of its last digit, with the exponent of the unit. -/
def withDigits (x : Magnitude) (count : Nat) : Option (Nat × Int) :=
  let (n, d) := x.ratio
  let unit : Int := tenExponent n d - count + 1
  let (n', d') :=
    if unit ≥ 0 then (n, d * Nat.pow 10 unit.toNat) else (n * Nat.pow 10 (-unit).toNat, d)
  let down := n' / d'
  let near := roundDiv n' d'
  let far := if near = down then down + 1 else down
  ([near, far].find? fun k =>
    if unit ≥ 0 then x.roundsFrom (k * Nat.pow 10 unit.toNat) 1
    else x.roundsFrom k (Nat.pow 10 (-unit).toNat)).map (·, unit)

/-- The fewest digits that read back, of these the nearest. -/
def shortest (x : Magnitude) : Digits :=
  match (List.range 17).findSome? fun i => x.withDigits (i + 1) with
  | some (k, unit) =>
    let text := Nat.toDigits 10 k
    let kept := (text.reverse.dropWhile (· == '0')).reverse
    ⟨kept, unit + text.length - 1⟩
  | none => ⟨['0'], 0⟩

end Magnitude

end ImageRelay.Decimal
