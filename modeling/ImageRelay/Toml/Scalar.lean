import ImageRelay.Text.Hex
import ImageRelay.Toml.Value

/-!
# TOML scalars

Strings in their four written forms, numbers, booleans and points in time.

## Main definitions
* `stringAt?`: a string at the start of a text.
* `scalar?`: the scalar that a word spells.
-/

set_option autoImplicit false

namespace ImageRelay.Toml

/-- A space or a tab. -/
def isGap (c : Char) : Bool := c == ' ' || c == '\t'

/-- A control character that no string or comment holds. -/
def isControl (c : Char) : Bool := (c.toNat < 0x20 && c != '\t') || c.toNat == 0x7F

/-- The text without spaces and tabs before it. -/
def skipGap (s : List Char) : List Char := s.dropWhile isGap

/-- The text behind a line break, if it begins with one. -/
def newline? : List Char → Option (List Char)
  | '\n' :: r => some r
  | '\r' :: '\n' :: r => some r
  | _ => none

/-! ## Strings -/

/-- The character of a short escape. -/
def shortEscape? : Char → Option Char
  | 'b' => some '\x08'
  | 't' => some '\t'
  | 'n' => some '\n'
  | 'f' => some '\x0c'
  | 'r' => some '\r'
  | 'e' => some '\x1b'
  | '"' => some '"'
  | '\\' => some '\\'
  | _ => none

/-- The character of an escape whose letter is next, and the rest. -/
def escape? : List Char → Option (Char × List Char)
  | [] => none
  | c :: r =>
    match shortEscape? c with
    | some x => some (x, r)
    | none => do
      let n ← if c == 'x' then some 2 else if c == 'u' then some 4
        else if c == 'U' then some 8 else none
      let v ← Text.hexNumber? n r
      if v.isValidChar then some (Char.ofNat v, r.drop n) else none

/-- The text between double quotes whose first was passed, in reverse onto `acc`, and the rest. -/
def basicString? : Nat → List Char → List Char → Option (List Char × List Char)
  | 0, _, _ => none
  | _ + 1, _, [] => none
  | fuel + 1, acc, c :: r =>
    if c == '"' then some (acc.reverse, r)
    else if c == '\\' then
      match escape? r with
      | some (x, r) => basicString? fuel (x :: acc) r
      | none => none
    else if isControl c then none
    else basicString? fuel (c :: acc) r

/-- The text between apostrophes whose first was passed, and the rest. -/
def literalString? (s : List Char) : Option (List Char × List Char) :=
  let text := s.takeWhile fun c => c != '\'' && !isControl c
  match s.drop text.length with
  | '\'' :: r => some (text, r)
  | _ => none

/-- How many of three to five quotes at the end of a string of lines belong to the text, and the
rest; none if there are fewer than three. -/
def closing? (quote : Char) (s : List Char) : Option (List Char × List Char) :=
  let n := min (s.takeWhile (· == quote)).length 5
  if n < 3 then none else some (List.replicate (n - 3) quote, s.drop n)

/-- The text without blanks and line breaks before it. -/
def skipLines (s : List Char) : List Char :=
  s.dropWhile fun c => isGap c || c == '\n' || c == '\r'

/-- The text of a string of lines between triple quotes whose first were passed, in reverse onto
`acc`, and the rest. -/
def linesString? (quote : Char) : Nat → List Char → List Char → Option (List Char × List Char)
  | 0, _, _ => none
  | _ + 1, _, [] => none
  | fuel + 1, acc, c :: r =>
    if c == quote then
      match closing? quote (c :: r) with
      | some (more, r) => some (acc.reverse ++ more, r)
      | none => linesString? quote fuel (c :: acc) r
    else if c == '\\' && quote == '"' then
      match newline? (skipGap r) with
      | some _ => linesString? quote fuel acc (skipLines r)
      | none =>
        match escape? r with
        | some (x, r) => linesString? quote fuel (x :: acc) r
        | none => none
    else
      match newline? (c :: r) with
      | some r' =>
        linesString? quote fuel (if c == '\r' then '\n' :: '\r' :: acc else '\n' :: acc) r'
      | none => if isControl c then none else linesString? quote fuel (c :: acc) r

/-- A string at the start of a text, and the rest. A line break right behind triple quotes is
dropped. -/
def stringAt? (s : List Char) : Option (List Char × List Char) :=
  let size := s.length + 1
  match s with
  | '"' :: '"' :: '"' :: r => linesString? '"' size [] ((newline? r).getD r)
  | '\'' :: '\'' :: '\'' :: r => linesString? '\'' size [] ((newline? r).getD r)
  | '"' :: r => basicString? size [] r
  | '\'' :: r => literalString? r
  | _ => none

/-! ## Numbers -/

/-- Digits with single underscores between them, without the underscores. -/
def grouped? (isDigit : Char → Bool) (s : List Char) : Option (List Char) :=
  let bad := s.isEmpty || s.head? == some '_' || s.getLast? == some '_' ||
    (s.zip s.tail).any fun (a, b) => a == '_' && b == '_'
  if bad || !s.all fun c => isDigit c || c == '_' then none else some (s.filter (· != '_'))

/-- A sign, and the text behind it. -/
def sign : List Char → Bool × List Char
  | '-' :: r => (true, r)
  | '+' :: r => (false, r)
  | s => (false, s)

/-- Decimal digits without a leading zero. -/
def wholePart? (s : List Char) : Option (List Char) := do
  let ds ← grouped? Char.isDigit s
  if ds.head? == some '0' && s.length > 1 then none else some ds

/-- A number in the base that its first two characters name. -/
def based? : List Char → Option Nat
  | '0' :: 'x' :: r =>
    (grouped? (fun c => (Text.hexDigit? c).isSome) r).map
      (·.foldl (fun n c => 16 * n + (Text.hexDigit? c).getD 0) 0)
  | '0' :: 'o' :: r =>
    (grouped? (fun c => '0' ≤ c && c ≤ '7') r).map
      (·.foldl (fun n c => 8 * n + (c.toNat - '0'.toNat)) 0)
  | '0' :: 'b' :: r =>
    (grouped? (fun c => c == '0' || c == '1') r).map
      (·.foldl (fun n c => 2 * n + (c.toNat - '0'.toNat)) 0)
  | _ => none

/-- An integer. -/
def integer? (s : List Char) : Option Int :=
  match based? s with
  | some n => some n
  | none =>
    let (negative, r) := sign s
    (wholePart? r).map fun ds => if negative then -digitsValue ds else digitsValue ds

/-- A float as a numeral without underscores; infinity and no number at all have none. -/
def float? (s : List Char) : Option (List Char) :=
  let (negative, r) := sign s
  if r = "inf".toList || r = "nan".toList then some []
  else
    let whole := r.takeWhile fun c => c.isDigit || c == '_'
    let r := r.drop whole.length
    let (fraction, r) := match r with
      | '.' :: r =>
        let f := r.takeWhile fun c : Char => c.isDigit || c == '_'
        (some f, r.drop f.length)
      | r => (none, r)
    let exponent := match r with
      | [] => some none
      | e :: r => if e == 'e' || e == 'E' then some (some (sign r)) else none
    do
      let exponent ← exponent
      if fraction.isNone && exponent.isNone then none
      let whole ← wholePart? whole
      let fraction ← match fraction with
        | some f => (grouped? Char.isDigit f).map ('.' :: ·)
        | none => some []
      let exponent ← match exponent with
        | some (below, e) =>
          (grouped? Char.isDigit e).map fun e => 'e' :: (if below then ['-'] else []) ++ e
        | none => some []
      return (if negative then ['-'] else []) ++ whole ++ fraction ++ exponent

/-! ## Points in time -/

/-- A number of exactly `n` digits, and the rest. -/
def fixed? (n : Nat) (s : List Char) : Option (Nat × List Char) :=
  let ds := s.take n
  if ds.length = n && ds.all Char.isDigit then some (digitsValue ds, s.drop n) else none

/-- The days of a month. -/
def daysIn (year month : Nat) : Nat :=
  if month = 2 then
    if year % 4 = 0 && (year % 100 ≠ 0 || year % 400 = 0) then 29 else 28
  else if month = 4 || month = 6 || month = 9 || month = 11 then 30
  else 31

/-- The text behind a character. -/
def behind? (c : Char) : List Char → Option (List Char)
  | x :: r => if x == c then some r else none
  | [] => none

/-- The text behind a date. -/
def date? (s : List Char) : Option (List Char) := do
  let (year, s) ← fixed? 4 s
  let (month, s) ← fixed? 2 (← behind? '-' s)
  let (day, s) ← fixed? 2 (← behind? '-' s)
  if 1 ≤ month && month ≤ 12 && 1 ≤ day && day ≤ daysIn year month then some s else none

/-- The text behind a time of day, with or without seconds. -/
def time? (s : List Char) : Option (List Char) := do
  let (hour, s) ← fixed? 2 s
  let (minute, s) ← fixed? 2 (← behind? ':' s)
  if hour > 23 || minute > 59 then none
  match s with
  | ':' :: s =>
    let (second, s) ← fixed? 2 s
    if second > 60 then none
    match s with
    | '.' :: r =>
      let ds := r.takeWhile Char.isDigit
      if ds.isEmpty then none else some (r.drop ds.length)
    | s => some s
  | s => some s

/-- Whether a text is an offset from universal time, or nothing. -/
def isOffset : List Char → Bool
  | [] => true
  | ['Z'] | ['z'] => true
  | c :: s =>
    (c == '+' || c == '-') &&
      match (do
        let (hour, s) ← fixed? 2 s
        let (minute, s) ← fixed? 2 (← behind? ':' s)
        return (hour, minute, s) : Option (Nat × Nat × List Char)) with
      | some (hour, minute, []) => hour ≤ 23 && minute ≤ 59
      | _ => false

/-- Whether a text is a date, a time of day, or both. -/
def isDatetime (s : List Char) : Bool :=
  match date? s with
  | some [] => true
  | some (c :: r) =>
    (c == 'T' || c == 't' || c == ' ') &&
      match time? r with
      | some rest => isOffset rest
      | none => false
  | none => time? s == some []

/-! ## Words -/

/-- A character of a number, a boolean or a point in time. -/
def isScalarChar (c : Char) : Bool :=
  c.isAlphanum || c == '_' || c == '+' || c == '-' || c == '.' || c == ':'

/-- The scalar that a word spells. -/
def scalar? (s : List Char) : Option Value :=
  if s = "true".toList then some (.boolean true)
  else if s = "false".toList then some (.boolean false)
  else if isDatetime s then some .datetime
  else
    match integer? s with
    | some n => some (.integer n)
    | none => (float? s).map .float

/-- A number, a boolean or a point in time at the start of a text, and the rest. A space may stand
between a date and a time. -/
def scalarAt? (s : List Char) : Option (Value × List Char) :=
  let word := s.takeWhile isScalarChar
  let r := s.drop word.length
  match r with
  | ' ' :: c :: r' =>
    if (date? word) == some [] && c.isDigit then
      let time := (c :: r').takeWhile isScalarChar
      (scalar? (word ++ ' ' :: time)).map (·, (c :: r').drop time.length)
    else (scalar? word).map (·, r)
  | _ => (scalar? word).map (·, r)

end ImageRelay.Toml
