/-!
# Bytes as text

UTF-8 in both directions. A byte sequence that is no text can still be shown: each longest run of
bytes that begins a character and does not finish it is shown as one replacement character.

## Main statements
* `decode?_encode`: a text is read back from its bytes.
-/

set_option autoImplicit false

namespace ImageRelay.Text.Utf8

/-- The bytes of a text. -/
def encode (s : String) : List UInt8 := s.toUTF8.data.toList

/-- The text that the bytes spell, if they spell one. -/
def decode? (bytes : List UInt8) : Option String := String.fromUTF8? bytes.toByteArray

theorem decode?_encode (s : String) : decode? (encode s) = some s := by
  have h : s.toUTF8.data.toList.toByteArray = s.toUTF8 := ByteArray.ext (by simp)
  have hv : String.fromUTF8? s.toUTF8 = some s := by
    simp [String.fromUTF8?, String.fromUTF8, s.isValidUTF8]
  rw [decode?, encode, h, hv]

/-- What is known of a character of which some bytes are read: how many are missing, the bounds of
the next one, and the value so far. -/
inductive Pending
  | idle
  | more (left : Nat) (low high : UInt8) (value : Nat)

/-- The first byte of a character. -/
def Pending.start (b : UInt8) : Pending × List (Option Char) :=
  let n := b.toNat
  if n < 0x80 then (.idle, [some (Char.ofNat n)])
  else if 0xC2 ≤ n && n ≤ 0xDF then (.more 1 0x80 0xBF (n % 0x20), [])
  else if n == 0xE0 then (.more 2 0xA0 0xBF 0, [])
  else if n == 0xED then (.more 2 0x80 0x9F 0xD, [])
  else if 0xE1 ≤ n && n ≤ 0xEF then (.more 2 0x80 0xBF (n % 0x10), [])
  else if n == 0xF0 then (.more 3 0x90 0xBF 0, [])
  else if 0xF1 ≤ n && n ≤ 0xF3 then (.more 3 0x80 0xBF (n % 8), [])
  else if n == 0xF4 then (.more 3 0x80 0x8F 4, [])
  else (.idle, [none])

/-- One more byte: the characters it finishes, `none` for bytes that finish none. -/
def Pending.feed : Pending → UInt8 → Pending × List (Option Char)
  | .idle, b => start b
  | .more left low high value, b =>
    if low ≤ b && b ≤ high then
      let value := value * 64 + b.toNat % 64
      if left ≤ 1 then (.idle, [some (Char.ofNat value)])
      else (.more (left - 1) 0x80 0xBF value, [])
    else
      let (p, out) := start b
      (p, none :: out)

/-- The characters of a byte sequence, with `none` for each run of bytes that is no character. -/
def pieces (bytes : List UInt8) : List (Option Char) :=
  let (p, out) := bytes.foldl
    (fun (p, out) b => let (p, new) := p.feed b; (p, new.reverse ++ out)) (Pending.idle, [])
  match p with
  | .idle => out.reverse
  | .more .. => (none :: out).reverse

/-- The text of any bytes, with U+FFFD for each run of bytes that is no character. -/
def decodeLossy (bytes : List UInt8) : String :=
  String.ofList ((pieces bytes).map (·.getD '\uFFFD'))

end ImageRelay.Text.Utf8
