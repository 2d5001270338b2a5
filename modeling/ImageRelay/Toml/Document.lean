import ImageRelay.Toml.Scalar

/-!
# TOML documents

A document is a sequence of lines: headers that open a table, and entries that go into the table
opened last. Its value is one table.

## Main definitions
* `Statement`: what a line says.
* `statements?`: the lines of a text.
* `parse?`: the table of a text.
-/

set_option autoImplicit false

namespace ImageRelay.Toml

/-! ## Keys -/

/-- A character of a key without quotes. -/
def isBareChar (c : Char) : Bool := c.isAlphanum || c == '_' || c == '-'

/-- One part of a key, and the rest. -/
def keyPart? (s : List Char) : Option (String × List Char) :=
  match s with
  | '"' :: r => (basicString? (s.length + 1) [] r).map fun (k, r) => (String.ofList k, r)
  | '\'' :: r => (literalString? r).map fun (k, r) => (String.ofList k, r)
  | _ =>
    let k := s.takeWhile isBareChar
    if k.isEmpty then none else some (String.ofList k, s.drop k.length)

/-- A key of parts with dots between them, blanks around the dots passed over, and the rest. -/
def key? : Nat → List Char → Option (List String × List Char)
  | 0, _ => none
  | fuel + 1, s =>
    match keyPart? (skipGap s) with
    | none => none
    | some (k, r) =>
      match skipGap r with
      | '.' :: r => (key? fuel r).map fun (ks, r) => (k :: ks, r)
      | r => some ([k], r)

/-! ## Values -/

/-- The text behind a comment, up to the end of its line; none if the comment holds a control
character. -/
def skipComment? : List Char → Option (List Char)
  | '#' :: r =>
    let r := r.dropWhile (!isControl ·)
    match r with
    | [] => some []
    | '\n' :: _ | '\r' :: '\n' :: _ => some r
    | _ => none
  | s => some s

/-- The text without blanks, line breaks and comments before it. -/
def skipSpace? : Nat → List Char → Option (List Char)
  | 0, _ => none
  | fuel + 1, s =>
    match skipComment? (skipGap s) with
    | none => none
    | some r =>
      match newline? r with
      | some r => skipSpace? fuel r
      | none => some r

/-- The deepest nesting of arrays and inline tables. -/
def maxDepth : Nat := 80

mutual

/-- A value at the start of a text, nested at most `depth` deep, and the rest. -/
def value? : Nat → Nat → List Char → Option (Value × List Char)
  | 0, _, _ => none
  | fuel + 1, depth, s =>
    match s with
    | '[' :: r =>
      match depth with
      | 0 => none
      | depth + 1 => (items? fuel depth [] r).map fun (items, r) => (.array items false, r)
    | '\x7b' :: r =>
      match depth with
      | 0 => none
      | depth + 1 => (members? fuel depth [] r).map fun (es, r) => (.table .inlined es, r)
    | c :: _ =>
      if c == '"' || c == '\'' then
        (stringAt? s).map fun (text, r) => (.string (String.ofList text), r)
      else scalarAt? s
    | [] => none

/-- The items of an array behind its bracket, onto `acc`; a comma may follow the last one. -/
def items? : Nat → Nat → List Value → List Char → Option (List Value × List Char)
  | 0, _, _, _ => none
  | fuel + 1, depth, acc, s =>
    match skipSpace? (s.length + 1) s with
    | none => none
    | some (']' :: r) => some (acc, r)
    | some s =>
      match value? fuel depth s with
      | none => none
      | some (v, r) =>
        match skipSpace? (r.length + 1) r with
        | some (',' :: r) => items? fuel depth (acc ++ [v]) r
        | some (']' :: r) => some (acc ++ [v], r)
        | _ => none

/-- The members of an inline table behind its brace, onto `acc`; a comma may follow the last one. -/
def members? : Nat → Nat → Entries → List Char → Option (Entries × List Char)
  | 0, _, _, _ => none
  | fuel + 1, depth, acc, s =>
    match skipSpace? (s.length + 1) s with
    | none => none
    | some ('\x7d' :: r) => some (acc, r)
    | some s =>
      match key? (s.length + 1) s with
      | some (k, '=' :: r) =>
        match value? fuel depth (skipGap r) with
        | none => none
        | some (v, r) =>
          match Entries.addEntry k v .inlined acc, skipSpace? (r.length + 1) r with
          | some acc, some (',' :: r) => members? fuel depth acc r
          | some acc, some ('\x7d' :: r) => some (acc, r)
          | _, _ => none
      | _ => none

end

/-! ## Lines -/

/-- What a line says. -/
inductive Statement
  | header (path : List String)
  | arrayHeader (path : List String)
  | entry (key : List String) (value : Value)

/-- A statement at the start of a text, and the rest of its line. -/
def statement? (s : List Char) : Option (Statement × List Char) :=
  let size := s.length + 1
  match s with
  | '[' :: '[' :: r =>
    match key? size r with
    | some (path, ']' :: ']' :: r) => some (.arrayHeader path, r)
    | _ => none
  | '[' :: r =>
    match key? size r with
    | some (path, ']' :: r) => some (.header path, r)
    | _ => none
  | s =>
    match key? size s with
    | some (k, '=' :: r) => (value? size maxDepth (skipGap r)).map fun (v, r) => (.entry k v, r)
    | _ => none

/-- The statements of a text; only a comment may follow one on its line. -/
def statementsFrom? : Nat → List Char → Option (List Statement)
  | 0, _ => none
  | fuel + 1, s =>
    match skipSpace? (s.length + 1) s with
    | none => none
    | some [] => some []
    | some s =>
      match statement? s with
      | none => none
      | some (st, r) =>
        match skipComment? (skipGap r) with
        | none => none
        | some [] => some [st]
        | some r =>
          match newline? r with
          | some r => (statementsFrom? fuel r).map (st :: ·)
          | none => none

/-- The statements of a text, behind a byte order mark if there is one. -/
def statements? (s : List Char) : Option (List Statement) :=
  let s := match s with
    | '\uFEFF' :: r => r
    | r => r
  statementsFrom? (s.length + 1) s

/-- A document in progress: its table, and the path of the table that was opened last. -/
structure Draft where
  root : Entries := []
  path : List String := []

/-- What a statement adds. -/
def Draft.add (d : Draft) : Statement → Option Draft
  | .header path => (d.root.addHeader path).map (⟨·, path⟩)
  | .arrayHeader path => (d.root.addArrayHeader path).map (⟨·, path⟩)
  | .entry key v =>
    (Entries.descend false (Entries.addEntry key v) d.path .header d.root).map
      ({ d with root := · })

/-- The table of a text. -/
def parse? (s : String) : Option Entries := do
  let d ← (← statements? s.toList).foldlM Draft.add {}
  return d.root

end ImageRelay.Toml
