import ImageRelay.Text.Utf8

/-!
# Written JSON

A JSON text as it is written, before its strings and numbers are given a meaning. A part that
nobody asks for need not have one: its strings may hold any bytes and any escapes, its numbers may
be of any size, and it may be nested to any depth.

## Main definitions
* `Written`: the tree.
* `Written.parse`: reads a whole text.
-/

set_option autoImplicit false

namespace ImageRelay.Json

/-- A piece of a written string: a byte, also one that a short escape stands for, or the number of
an escape `\u`. -/
inductive Piece
  | byte (b : UInt8)
  | escape (n : Nat)
  deriving Repr, DecidableEq

/-- A written number: its sign, the digits before and behind the point, and the exponent. -/
structure Numeral where
  negative : Bool
  whole : List Nat
  fraction : Option (List Nat)
  exponent : Option (Bool × List Nat)
  deriving Repr, DecidableEq

/-- A written value. -/
inductive Written
  | null
  | bool (b : Bool)
  | number (n : Numeral)
  | string (pieces : List Piece)
  | array (items : List Written)
  | object (fields : List (List Piece × Written))

namespace Written

/-! ## Pieces -/

/-- The byte of an ASCII character. -/
def byteOf (c : Char) : UInt8 := UInt8.ofNat c.toNat

/-- A blank of JSON. -/
def isSpace (b : UInt8) : Bool := b == 0x20 || b == 0x0A || b == 0x0D || b == 0x09

/-- The bytes without blanks before them. -/
def skip (s : List UInt8) : List UInt8 := s.dropWhile isSpace

/-- An ASCII digit. -/
def isDigit (b : UInt8) : Bool := 0x30 ≤ b && b ≤ 0x39

/-- The value of a hexadecimal digit. -/
def hexDigit? (b : UInt8) : Option Nat :=
  if isDigit b then some (b.toNat - 0x30)
  else if 0x61 ≤ b && b ≤ 0x66 then some (b.toNat - 0x61 + 10)
  else if 0x41 ≤ b && b ≤ 0x46 then some (b.toNat - 0x41 + 10)
  else none

/-- The byte that a short escape stands for. -/
def shortEscape? (b : UInt8) : Option UInt8 :=
  if b == 0x22 || b == 0x5C || b == 0x2F then some b
  else if b == byteOf 'b' then some 0x08
  else if b == byteOf 'f' then some 0x0C
  else if b == byteOf 'n' then some 0x0A
  else if b == byteOf 'r' then some 0x0D
  else if b == byteOf 't' then some 0x09
  else none

/-- How far an escape is read: no escape, behind the backslash, or some digits of a number. -/
inductive EscapeState
  | plain
  | letter
  | digits (left value : Nat)

/-- The pieces of a string whose opening quote was passed, in reverse onto `pieces`, and the bytes
behind its closing quote. -/
def stringPieces : EscapeState → List Piece → List UInt8 → Option (List Piece × List UInt8)
  | _, _, [] => none
  | .plain, pieces, b :: r =>
    if b == 0x22 then some (pieces.reverse, r)
    else if b == 0x5C then stringPieces .letter pieces r
    else if b < 0x20 then none
    else stringPieces .plain (.byte b :: pieces) r
  | .letter, pieces, b :: r =>
    if b == byteOf 'u' then stringPieces (.digits 4 0) pieces r
    else
      match shortEscape? b with
      | some c => stringPieces .plain (.byte c :: pieces) r
      | none => none
  | .digits left value, pieces, b :: r =>
    match hexDigit? b with
    | none => none
    | some d =>
      if left ≤ 1 then stringPieces .plain (.escape (16 * value + d) :: pieces) r
      else stringPieces (.digits (left - 1) (16 * value + d)) pieces r

/-- The digits at the start, and the rest. -/
def digits (s : List UInt8) : List Nat × List UInt8 :=
  ((s.takeWhile isDigit).map fun b => b.toNat - 0x30, s.dropWhile isDigit)

/-- The exponent of a number, if it has one. -/
def exponent? : List UInt8 → Option (Option (Bool × List Nat) × List UInt8)
  | b :: r =>
    if b == byteOf 'e' || b == byteOf 'E' then
      let (negative, r) := match r with
        | s :: r' =>
          if s == byteOf '-' then (true, r')
          else if s == byteOf '+' then (false, r')
          else (false, r)
        | [] => (false, r)
      match digits r with
      | ([], _) => none
      | (ds, r) => some (some (negative, ds), r)
    else some (none, b :: r)
  | [] => some (none, [])

/-- The fraction of a number, if it has one. -/
def fraction? : List UInt8 → Option (Option (List Nat) × List UInt8)
  | b :: r =>
    if b == byteOf '.' then
      match digits r with
      | ([], _) => none
      | (ds, r) => some (some ds, r)
    else some (none, b :: r)
  | [] => some (none, [])

/-- A number; its whole part has no leading zero. -/
def numeral (s : List UInt8) : Option (Numeral × List UInt8) :=
  let negative := s.head? == some (byteOf '-')
  match digits (if negative then s.tail else s) with
  | ([], _) => none
  | (0 :: _ :: _, _) => none
  | (whole, r) =>
    match fraction? r with
    | none => none
    | some (fraction, r) =>
      (exponent? r).map fun (exponent, r) => (⟨negative, whole, fraction, exponent⟩, r)

/-- A word at the start, and the rest. -/
def word (w : String) (s : List UInt8) : Option (List UInt8) :=
  let bytes := Text.Utf8.encode w
  if bytes.isPrefixOf s then some (s.drop bytes.length) else none

/-! ## Values -/

mutual

/-- A value at the start, blanks before it passed over, and the rest. -/
def value : Nat → List UInt8 → Option (Written × List UInt8)
  | 0, _ => none
  | fuel + 1, s =>
    match skip s with
    | [] => none
    | b :: r =>
      if b == 0x22 then (stringPieces .plain [] r).map fun (u, r) => (.string u, r)
      else if b == byteOf '[' then
        match skip r with
        | c :: r' =>
          if c == byteOf ']' then some (.array [], r')
          else (items fuel (c :: r')).map fun (l, r) => (.array l, r)
        | [] => none
      else if b == 0x7B then
        match skip r with
        | c :: r' =>
          if c == 0x7D then some (.object [], r')
          else (members fuel (c :: r')).map fun (l, r) => (.object l, r)
        | [] => none
      else if b == byteOf 'n' then (word "null" (b :: r)).map (.null, ·)
      else if b == byteOf 't' then (word "true" (b :: r)).map (.bool true, ·)
      else if b == byteOf 'f' then (word "false" (b :: r)).map (.bool false, ·)
      else (numeral (b :: r)).map fun (n, r) => (.number n, r)

/-- The items of an array up to its bracket, at least one. -/
def items : Nat → List UInt8 → Option (List Written × List UInt8)
  | 0, _ => none
  | fuel + 1, s =>
    match value fuel s with
    | none => none
    | some (v, r) =>
      match skip r with
      | [] => none
      | b :: r =>
        if b == byteOf ',' then (items fuel r).map fun (l, r) => (v :: l, r)
        else if b == byteOf ']' then some ([v], r)
        else none

/-- The members of an object up to its brace, at least one. -/
def members : Nat → List UInt8 → Option (List (List Piece × Written) × List UInt8)
  | 0, _ => none
  | fuel + 1, s =>
    match skip s with
    | [] => none
    | q :: r =>
      if q == 0x22 then
        match stringPieces .plain [] r with
        | none => none
        | some (k, r) =>
          match skip r with
          | [] => none
          | colon :: r =>
            if colon == byteOf ':' then
              match value fuel r with
              | none => none
              | some (v, r) =>
                match skip r with
                | [] => none
                | b :: r =>
                  if b == byteOf ',' then (members fuel r).map fun (l, r) => ((k, v) :: l, r)
                  else if b == 0x7D then some ([(k, v)], r)
                  else none
            else none
      else none

end

/-- Reads a whole text, blanks around it passed over. -/
def parse (s : List UInt8) : Option Written :=
  match value (2 * s.length + 2) s with
  | some (v, r) => if (skip r).isEmpty then some v else none
  | none => none

end Written

/-! ## Strings -/

/-- The bytes of a character. -/
def charBytes (n : Nat) : List UInt8 := String.utf8EncodeChar (Char.ofNat n)

/-- The bytes that pieces stand for. Escapes of surrogates count only in pairs. -/
def bytesOf? : List Piece → Option (List UInt8)
  | [] => some []
  | .byte b :: r => (bytesOf? r).map (b :: ·)
  | .escape n :: r =>
    if 0xD800 ≤ n && n ≤ 0xDBFF then
      match r with
      | .escape m :: r =>
        if 0xDC00 ≤ m && m ≤ 0xDFFF then
          (bytesOf? r).map (charBytes (0x10000 + (n - 0xD800) * 0x400 + (m - 0xDC00)) ++ ·)
        else none
      | _ => none
    else if 0xDC00 ≤ n && n ≤ 0xDFFF then none
    else (bytesOf? r).map (charBytes n ++ ·)

/-- The text that pieces stand for, if they stand for one. -/
def textOf? (pieces : List Piece) : Option String := (bytesOf? pieces).bind Text.Utf8.decode?

/-! ## Writing strings -/

/-- The hexadecimal digit of a number below 16. -/
def hexChar (n : Nat) : Char := if n < 10 then Char.ofNat (0x30 + n) else Char.ofNat (0x57 + n)

/-- A character as it is written in a string: quotes, backslashes and controls are escaped. -/
def writtenChar (c : Char) : List Char :=
  if c = '"' then ['\\', '"']
  else if c = '\\' then ['\\', '\\']
  else if c = '\x08' then ['\\', 'b']
  else if c = '\x0c' then ['\\', 'f']
  else if c = '\n' then ['\\', 'n']
  else if c = '\r' then ['\\', 'r']
  else if c = '\t' then ['\\', 't']
  else if c.toNat < 0x20 then ['\\', 'u', '0', '0', hexChar (c.toNat / 16), hexChar (c.toNat % 16)]
  else [c]

/-- A text as a JSON string. -/
def quote (s : String) : String := "\"" ++ String.ofList (s.toList.flatMap writtenChar) ++ "\""

/-- The text of an object of written members. -/
def objectText (members : List (String × String)) : String :=
  "\x7b" ++ ",".intercalate (members.map fun (k, v) => quote k ++ ":" ++ v) ++ "\x7d"

end ImageRelay.Json
