import ImageRelay.Text.Utf8

/-!
# Marked texts

A text file may begin with a mark that tells how its characters are encoded: UTF-16 of either byte
order, or UTF-8. Without a mark it is UTF-8.
-/

set_option autoImplicit false

namespace ImageRelay.Text

/-- The units of some bytes, two bytes each. -/
def unitsOf (low : Bool) : List UInt8 → Option (List Nat)
  | [] => some []
  | [_] => none
  | a :: b :: r =>
    let unit := if low then a.toNat + 256 * b.toNat else 256 * a.toNat + b.toNat
    (unitsOf low r).map (unit :: ·)

/-- The characters of some units; a surrogate has to be one of a pair. -/
def charsOf : List Nat → Option (List Char)
  | [] => some []
  | [u] => if 0xD800 ≤ u && u < 0xE000 then none else some [Char.ofNat u]
  | u :: v :: r =>
    if 0xD800 ≤ u && u < 0xDC00 then
      if 0xDC00 ≤ v && v < 0xE000 then
        (charsOf r).map (Char.ofNat (0x10000 + 1024 * (u - 0xD800) + (v - 0xDC00)) :: ·)
      else none
    else if 0xDC00 ≤ u && u < 0xE000 then none
    else (charsOf (v :: r)).map (Char.ofNat u :: ·)

/-- The text of UTF-16 bytes. -/
def decodeUnits? (low : Bool) (bytes : List UInt8) : Option String :=
  ((unitsOf low bytes).bind charsOf).map String.ofList

/-- The text of the bytes of a file, which may begin with a mark. -/
def decodeMarked? : List UInt8 → Option String
  | 0xFF :: 0xFE :: r => decodeUnits? true r
  | 0xFE :: 0xFF :: r => decodeUnits? false r
  | 0xEF :: 0xBB :: 0xBF :: r => Utf8.decode? r
  | bytes => Utf8.decode? bytes

end ImageRelay.Text
