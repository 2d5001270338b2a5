/-!
# Writing TOML

A string is written in the first of these forms that shows it without an escape: between double
quotes, between apostrophes, as lines between triple double quotes, as lines between triple
apostrophes. A string that none of them can show is written with escapes.

## Main definitions
* `stringText`: a string as it is written.
* `tableText`: a table as it is written.
-/

set_option autoImplicit false

namespace ImageRelay.Toml

/-- The longest run of a character. -/
def longestRun (c : Char) (s : List Char) : Nat :=
  (s.foldl (fun (longest, run) x =>
    if x = c then (max longest (run + 1), run + 1) else (longest, 0)) (0, 0)).1

/-- A control character that is only written as an escape; a tab and a line feed are not. -/
def needsEscape (c : Char) : Bool := (c.toNat < 0x20 && c != '\t' && c != '\n') || c.toNat == 0x7F

/-- A number in four hexadecimal digits, in upper case. -/
def hex4 (n : Nat) : List Char :=
  let ds := (Nat.toDigits 16 n).map Char.toUpper
  List.replicate (4 - ds.length) '0' ++ ds

/-- The escape of a character that needs one between double quotes. -/
def escapeOf? (lines : Bool) (c : Char) : Option (List Char) :=
  if c = '\x08' then some ['\\', 'b']
  else if c = '\t' then some ['\\', 't']
  else if c = '\n' then if lines then none else some ['\\', 'n']
  else if c = '\x0c' then some ['\\', 'f']
  else if c = '\r' then some ['\\', 'r']
  else if c = '\\' then some ['\\', '\\']
  else if c.toNat < 0x20 || c.toNat = 0x7F then some ('\\' :: 'u' :: hex4 c.toNat)
  else none

/-- A text between double quotes. A quote is escaped where `allowed` of them were written before it
without another character between. -/
def escapedText (lines : Bool) (allowed : Nat) : Nat → List Char → List Char
  | _, [] => []
  | quotes, c :: r =>
    if c = '"' then
      if quotes < allowed then c :: escapedText lines allowed (quotes + 1) r
      else '\\' :: '"' :: escapedText lines allowed 0 r
    else
      match escapeOf? lines c with
      | some e => e ++ escapedText lines allowed 0 r
      | none => c :: escapedText lines allowed 0 r

/-- A string as it is written. -/
def stringText (s : String) : String :=
  let cs := s.toList
  let escapes := cs.any needsEscape
  let backslash := cs.contains '\\'
  let broken := cs.contains '\n'
  let double := longestRun '"' cs
  let single := longestRun '\'' cs
  let start := if broken then "\n" else ""
  if !escapes && !backslash && double = 0 && !broken then
    "\"" ++ String.ofList (escapedText false 0 0 cs) ++ "\""
  else if !escapes && single = 0 && !broken then "'" ++ s ++ "'"
  else if !escapes && !backslash && double ≤ 2 then
    "\"\"\"" ++ start ++ String.ofList (escapedText true 2 0 cs) ++ "\"\"\""
  else if !escapes && single ≤ 2 then "'''" ++ start ++ s ++ "'''"
  else if broken then
    "\"\"\"" ++ start ++ String.ofList (escapedText true 2 0 cs) ++ "\"\"\""
  else "\"" ++ String.ofList (escapedText false 0 0 cs) ++ "\""

/-- A table of written entries under its header. -/
def tableText (name : String) (entries : List (String × String)) : String :=
  s!"[{name}]\n" ++ String.join (entries.map fun (k, v) => s!"{k} = {v}\n")

end ImageRelay.Toml
