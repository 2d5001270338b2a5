/-!
# Base64

Bytes as text of 64 characters, padded with `=` to whole groups of four. Reading is strict: the
padding must be there, and the bits that it leaves over must be zero.

## Main definitions
* `Base64.standard`, `Base64.urlSafe`: the two alphabets.
* `Base64.encode`, `Base64.decode?`: writing and reading.
-/

set_option autoImplicit false

namespace ImageRelay.Base64

/-- An alphabet: the characters of the values 62 and 63. -/
structure Alphabet where
  char62 : Char
  char63 : Char

/-- The alphabet with `+` and `/`. -/
def standard : Alphabet := ⟨'+', '/'⟩

/-- The alphabet with `-` and `_`. -/
def urlSafe : Alphabet := ⟨'-', '_'⟩

/-- The character of a value below 64. -/
def Alphabet.char (a : Alphabet) (n : Nat) : Char :=
  if n < 26 then Char.ofNat (0x41 + n)
  else if n < 52 then Char.ofNat (0x61 + (n - 26))
  else if n < 62 then Char.ofNat (0x30 + (n - 52))
  else if n = 62 then a.char62
  else a.char63

/-- The value of a character. -/
def Alphabet.value? (a : Alphabet) (c : Char) : Option Nat :=
  if c.isUpper then some (c.toNat - 0x41)
  else if c.isLower then some (c.toNat - 0x61 + 26)
  else if c.isDigit then some (c.toNat - 0x30 + 52)
  else if c = a.char62 then some 62
  else if c = a.char63 then some 63
  else none

/-- The text of some bytes. -/
def encode (a : Alphabet) : List UInt8 → List Char
  | [] => []
  | [x] =>
    let n := x.toNat
    [a.char (n / 4), a.char (n % 4 * 16), '=', '=']
  | [x, y] =>
    let n := x.toNat * 256 + y.toNat
    [a.char (n / 1024), a.char (n / 16 % 64), a.char (n % 16 * 4), '=']
  | x :: y :: z :: r =>
    let n := (x.toNat * 256 + y.toNat) * 256 + z.toNat
    a.char (n / 262144) :: a.char (n / 4096 % 64) :: a.char (n / 64 % 64) :: a.char (n % 64) ::
      encode a r

/-- The bytes of a text, if it is one that `encode` writes. -/
def decode? (a : Alphabet) : List Char → Option (List UInt8)
  | [] => some []
  | [c, d, '=', '='] => do
    let n := (← a.value? c) * 64 + (← a.value? d)
    if n % 16 = 0 then some [UInt8.ofNat (n / 16)] else none
  | [c, d, e, '='] => do
    let n := ((← a.value? c) * 64 + (← a.value? d)) * 64 + (← a.value? e)
    if n % 4 = 0 then some [UInt8.ofNat (n / 1024), UInt8.ofNat (n / 4)] else none
  | c :: d :: e :: f :: r => do
    let n := (((← a.value? c) * 64 + (← a.value? d)) * 64 + (← a.value? e)) * 64 + (← a.value? f)
    let rest ← decode? a r
    some (UInt8.ofNat (n / 65536) :: UInt8.ofNat (n / 256) :: UInt8.ofNat n :: rest)
  | _ => none

end ImageRelay.Base64
