/-!
# Hexadecimal numbers

Digits of either case, and numbers of a fixed count of them.

## Main definitions
* `hexDigit?`: the value of a digit.
* `hexNumber?`: the number at the start of a text.
-/

set_option autoImplicit false

namespace ImageRelay.Text

/-- The value of a hexadecimal digit. -/
def hexDigit? (c : Char) : Option Nat :=
  if c.isDigit then some (c.toNat - '0'.toNat)
  else if 'a' ≤ c && c ≤ 'f' then some (c.toNat - 'a'.toNat + 10)
  else if 'A' ≤ c && c ≤ 'F' then some (c.toNat - 'A'.toNat + 10)
  else none

/-- The number that exactly `n` hexadecimal digits spell. -/
def hexNumber? (n : Nat) (s : List Char) : Option Nat :=
  let digits := s.take n
  if digits.length = n then
    digits.foldlM (fun v c => (hexDigit? c).map (16 * v + ·)) 0
  else none

end ImageRelay.Text
