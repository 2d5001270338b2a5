import ImageRelay.Yaml.Token.Scalar

/-!
# From text to tokens

Tokens are read from left to right. Two of them cannot be told when their place is passed: that a
scalar or collection is the key of a mapping is known only at the `:` behind it, so the lexer keeps
the places of possible keys, one for each level of brackets, and inserts the tokens there. A key
without `?` stands on one line and is at most 1024 characters long.

## Main definitions
* `Lexer`: what is known in the middle of a text.
* `Token.scan`: the tokens of a text.
-/

set_option autoImplicit false

namespace ImageRelay.Yaml

/-- A place where a key may have begun. -/
structure PossibleKey where
  required : Bool
  position : Nat
  mark : Mark

/-- The state of the lexer: the text left, the tokens so far, the possible key of every open level
of brackets (the innermost first, the last for none), the open indentations, and whether a key may
begin here. -/
structure Lexer where
  cursor : Cursor
  tokens : Array Token := #[]
  keys : List (Option PossibleKey) := [none]
  indent : Int := -1
  indents : List Int := []
  keyAllowed : Bool := true

namespace Lexer

/-! ## Parts of the state -/

/-- Whether the text is inside brackets. -/
def inFlow (l : Lexer) : Bool := l.keys.length > 1

/-- The place of the next character. -/
def mark (l : Lexer) : Mark := l.cursor.mark

/-- Adds a token. -/
def emit (t : Token) (l : Lexer) : Lexer := { l with tokens := l.tokens.push t }

/-- Adds a token that is written with `n` characters. -/
def indicator (t : Token) (n : Nat) (l : Lexer) : Lexer :=
  { l with cursor := l.cursor.skip n, tokens := l.tokens.push t }

/-- Gives up the possible key of this level; one that had to be a key is missing its `:`. -/
def dropKey (l : Lexer) : Except Fault Lexer :=
  match l.keys with
  | some k :: r =>
    if k.required then .error ⟨"could not find expected ':'", l.mark⟩
    else .ok { l with keys := none :: r }
  | _ => .ok l

/-- Remembers that a key may begin here. -/
def saveKey (l : Lexer) : Except Fault Lexer :=
  if l.keyAllowed then do
    let required := !l.inFlow && l.indent == (l.mark.column : Int)
    let l ← l.dropKey
    return { l with keys := some ⟨required, l.tokens.size, l.mark⟩ :: l.keys.tail }
  else .ok l

/-- Gives up the possible keys that are on an earlier line or too long. -/
def dropStaleKeys (l : Lexer) : Except Fault Lexer := do
  let keys ← l.keys.mapM fun
    | some k =>
      if k.mark.line < l.mark.line || k.mark.index + 1024 < l.mark.index then
        if k.required then .error ⟨"could not find expected ':'", l.mark⟩ else .ok none
      else .ok (some k)
    | none => .ok none
  return { l with keys }

/-- Opens a block collection at a column that is deeper than the open ones. The token goes to a
position that was passed, or to the end. -/
def openBlock (column : Nat) (position : Option Nat) (t : Token) (l : Lexer) : Lexer :=
  if l.inFlow || (column : Int) ≤ l.indent then l
  else
    { l with
      indents := l.indent :: l.indents
      indent := column
      tokens := l.tokens.insertIdxIfInBounds (position.getD l.tokens.size) t }

/-- The end of the block collections that are deeper than a column. -/
def closeDeeper (column : Int) : List Int → Int → Array Token → List Int × Int × Array Token
  | [], indent, tokens => ([], indent, tokens)
  | outer :: r, indent, tokens =>
    if indent > column then closeDeeper column r outer (tokens.push .blockEnd)
    else (outer :: r, indent, tokens)

/-- Closes the block collections that are deeper than a column. -/
def closeBlocks (column : Int) (l : Lexer) : Lexer :=
  if l.inFlow then l
  else
    let (indents, indent, tokens) := closeDeeper column l.indents l.indent l.tokens
    { l with indents, indent, tokens }

/-! ## Between tokens -/

/-- Passes blanks, comments and line breaks. A tab is a blank where no key may begin. Outside
brackets a key may begin on a new line. -/
def skipBlanks : Nat → Lexer → Lexer
  | 0, l => l
  | fuel + 1, l =>
    match l.cursor.rest with
    | [] => l
    | x :: _ =>
      if x == '\uFEFF' && l.mark.index == 0 then
        skipBlanks fuel { l with cursor := l.cursor.skip 1 }
      else if x == ' ' || (x == '\t' && (l.inFlow || !l.keyAllowed)) then
        skipBlanks fuel { l with cursor := l.cursor.skip 1 }
      else if x == '#' then
        let c := l.cursor.skipComment
        if c.rest.isEmpty then { l with cursor := c }
        else
          skipBlanks fuel
            { l with cursor := c.breakLine.2, keyAllowed := l.keyAllowed || !l.inFlow }
      else if isBreak x then
        skipBlanks fuel
          { l with cursor := l.cursor.breakLine.2, keyAllowed := l.keyAllowed || !l.inFlow }
      else l

/-! ## Tags and directives -/

/-- A character of a tag; inside `<` and `>` and in directives some indicators are, too. -/
def isTagChar (verbatim : Bool) (c : Char) : Bool :=
  isNameChar c || ";/?:@&=+$.!~*'()%".toList.contains c ||
    (verbatim && (c == ',' || c == '[' || c == ']'))

/-- Replaces the octets written as `%` and two digits by the characters they spell. -/
def unescapeTag : Nat → List Char → Option (List Char)
  | 0, _ => none
  | _ + 1, [] => some []
  | fuel + 1, '%' :: r => do
    let first ← Text.hexNumber? 2 r
    let width ←
      if first < 0x80 then some 1 else if first / 0x20 = 6 then some 2
      else if first / 0x10 = 14 then some 3 else if first / 8 = 30 then some 4 else none
    let rest ← (List.range (width - 1)).foldlM (fun (v, r) _ => match r with
      | '%' :: r => do
        let octet ← Text.hexNumber? 2 r
        if octet / 0x40 = 2 then some (64 * v + octet % 64, r.drop 2) else none
      | _ => none) (if width = 1 then first else first % Nat.pow 2 (7 - width), r.drop 2)
    return Char.ofNat rest.1 :: (← unescapeTag fuel rest.2)
  | fuel + 1, c :: r => (unescapeTag fuel r).map (c :: ·)

/-- A tag or the prefix of one. -/
def tagText (verbatim : Bool) (c : Cursor) : Except Fault (List Char × Cursor) :=
  let (text, c') := c.takeWhile (isTagChar verbatim)
  match unescapeTag (text.length + 1) text with
  | some text => .ok (text, c')
  | none => .error ⟨"invalid octet in a tag", c.mark⟩

/-- A handle: `!`, `!!` or `!name!`; outside directives also `!name`, the start of a tag. -/
def tagHandle (directive : Bool) (c : Cursor) : Except Fault (List Char × Cursor) :=
  if c.rest.head? != some '!' then .error ⟨"expected '!'", c.mark⟩
  else
    let (name, c) := (c.skip 1).takeWhile isNameChar
    if c.rest.head? == some '!' then .ok ('!' :: name ++ ['!'], c.skip 1)
    else if directive && !name.isEmpty then .error ⟨"expected '!'", c.mark⟩
    else .ok ('!' :: name, c)

/-- Refuses an empty tag. -/
def nonEmpty (text : List Char) (c : Cursor) : Except Fault Unit :=
  if text.isEmpty then .error ⟨"expected a tag", c.mark⟩ else .ok ()

/-- A tag, as handle and suffix; a verbatim tag has no handle. -/
def tag (c : Cursor) : Except Fault (Token × Cursor) :=
  if c.rest.tail.head? == some '<' then do
    let (text, c) ← tagText true (c.skip 2)
    nonEmpty text c
    if c.rest.head? != some '>' then throw ⟨"expected '>'", c.mark⟩
    return (.tag [] text, c.skip 1)
  else do
    let (handle, c) ← tagHandle false c
    if handle.length > 1 && handle.getLast? == some '!' then
      let (suffix, c) ← tagText false c
      nonEmpty suffix c
      return (.tag handle suffix, c)
    else
      let (suffix, c) ← tagText false c
      let suffix := handle.tail ++ suffix
      return (if suffix.isEmpty then .tag [] ['!'] else .tag ['!'] suffix, c)

/-- A number of a version directive, of at most nine digits. -/
def versionNumber (c : Cursor) : Except Fault (Nat × Cursor) :=
  let (digits, c') := c.takeWhile Char.isDigit
  if digits.isEmpty || digits.length > 9 then .error ⟨"expected a version number", c.mark⟩
  else .ok (digits.foldl (fun n d => 10 * n + (d.toNat - '0'.toNat)) 0, c')

/-- A directive; its `%` is next. -/
def directive (c : Cursor) : Except Fault (Token × Cursor) := do
  let (name, c) := (c.skip 1).takeWhile isNameChar
  if name.isEmpty then throw ⟨"expected a directive name", c.mark⟩
  if !atGap c.rest then throw ⟨"unexpected character in a directive name", c.mark⟩
  let (t, c) ←
    if name = "YAML".toList then do
      let (major, c) ← versionNumber c.skipGap
      if c.rest.head? != some '.' then throw ⟨"expected '.'", c.mark⟩
      let (minor, c) ← versionNumber (c.skip 1)
      pure (Token.versionDirective major minor, c)
    else if name = "TAG".toList then do
      let (handle, c) ← tagHandle true c.skipGap
      if !(c.rest.head?.any isGap) then throw ⟨"expected a blank", c.mark⟩
      let (text, c) ← tagText true c.skipGap
      nonEmpty text c
      if !atGap c.rest then throw ⟨"expected a blank or a line break", c.mark⟩
      pure (Token.tagDirective handle text, c)
    else throw ⟨"unknown directive name", c.mark⟩
  let c := c.skipGap.skipComment
  if !c.atBreak then throw ⟨"expected a comment or a line break", c.mark⟩
  return (t, c.breakLine.2)

/-! ## Tokens -/

/-- Ends everything that is open: the start of a document or its end, or a directive. -/
def closeAll (l : Lexer) : Except Fault Lexer := do
  let l ← (l.closeBlocks (-1)).dropKey
  return { l with keyAllowed := false }

/-- The start of a collection in brackets. -/
def openFlow (t : Token) (l : Lexer) : Except Fault Lexer := do
  let l ← l.saveKey
  return { l.indicator t 1 with keys := none :: l.keys, keyAllowed := true }

/-- The end of a collection in brackets. -/
def closeFlow (t : Token) (l : Lexer) : Except Fault Lexer := do
  let l ← l.dropKey
  let keys := if l.inFlow then l.keys.tail else l.keys
  return { l.indicator t 1 with keys, keyAllowed := false }

/-- The `-` of a sequence entry. -/
def blockEntry (l : Lexer) : Except Fault Lexer := do
  if !l.inFlow && !l.keyAllowed then
    throw ⟨"sequence entries are not allowed here", l.mark⟩
  let l ← (l.openBlock l.mark.column none .blockSequenceStart).dropKey
  return { l.indicator .blockEntry 1 with keyAllowed := true }

/-- The `?` of a key. -/
def keyIndicator (l : Lexer) : Except Fault Lexer := do
  if !l.inFlow && !l.keyAllowed then
    throw ⟨"mapping keys are not allowed here", l.mark⟩
  let l ← (l.openBlock l.mark.column none .blockMappingStart).dropKey
  return { l.indicator .key 1 with keyAllowed := !l.inFlow }

/-- The `:` of a value; if a key may have begun before it, it did. -/
def valueIndicator (l : Lexer) : Except Fault Lexer :=
  match l.keys with
  | some k :: r =>
    let l := { l with tokens := l.tokens.insertIdxIfInBounds k.position .key, keys := none :: r }
    let l := l.openBlock k.mark.column (some k.position) .blockMappingStart
    .ok { l.indicator .value 1 with keyAllowed := false }
  | _ =>
    if !l.inFlow && !l.keyAllowed then .error ⟨"mapping values are not allowed here", l.mark⟩
    else
      let l := l.openBlock l.mark.column none .blockMappingStart
      .ok { l.indicator .value 1 with keyAllowed := !l.inFlow }

/-- The name of an anchor or alias, whose indicator is next. -/
def anchorName (c : Cursor) : Except Fault (List Char × Cursor) :=
  let (name, c) := (c.skip 1).takeWhile isNameChar
  if name.isEmpty || !(atGap c.rest || c.rest.head?.any ("?:,]\x7d%@`".toList.contains ·)) then
    .error ⟨"unexpected character in the name of an anchor", c.mark⟩
  else .ok (name, c)

/-- A token that may begin a key and that does not allow one to begin behind it. -/
def atom (read : Cursor → Except Fault (Token × Cursor)) (l : Lexer) : Except Fault Lexer := do
  let l ← l.saveKey
  let (t, cursor) ← read l.cursor
  return { l with cursor, tokens := l.tokens.push t, keyAllowed := false }

/-- Whether a character begins a plain scalar. -/
def startsPlain (inFlow : Bool) (x : Char) (r : List Char) : Bool :=
  !(isGap x || isBreak x || "-?:,[]\x7b\x7d#&*!|>'\"%@`".toList.contains x) ||
    (x == '-' && !(r.head?.any isGap)) ||
    (!inFlow && (x == '?' || x == ':') && !atGap r)

/-- The token that begins at the next character. -/
def token (x : Char) (r : List Char) (l : Lexer) : Except Fault Lexer :=
  if l.mark.column == 0 && x == '%' then do
    let l ← l.closeAll
    let (t, cursor) ← directive l.cursor
    return { l with cursor, tokens := l.tokens.push t }
  else if l.mark.column == 0 && atDocumentMarker (x :: r) then do
    return (← l.closeAll).indicator (if x == '-' then .documentStart else .documentEnd) 3
  else if x == '[' then l.openFlow .flowSequenceStart
  else if x == '{' then l.openFlow .flowMappingStart
  else if x == ']' then l.closeFlow .flowSequenceEnd
  else if x == '}' then l.closeFlow .flowMappingEnd
  else if x == ',' then do
    return { (← l.dropKey).indicator .flowEntry 1 with keyAllowed := true }
  else if x == '-' && atGap r then l.blockEntry
  else if x == '?' && (l.inFlow || atGap r) then l.keyIndicator
  else if x == ':' && (l.inFlow || atGap r) then l.valueIndicator
  else if x == '*' then l.atom fun c => (anchorName c).map fun (n, c) => (.alias n, c)
  else if x == '&' then l.atom fun c => (anchorName c).map fun (n, c) => (.anchor n, c)
  else if x == '!' then
    l.atom fun c => do
      let (t, c) ← tag c
      if atGap c.rest || (l.inFlow && c.rest.head? == some ',') then return (t, c)
      else throw ⟨"expected a blank or a line break", c.mark⟩
  else if (x == '|' || x == '>') && !l.inFlow then do
    let l ← l.dropKey
    let (text, cursor) ← l.cursor.blockScalar (x == '|') l.indent
    return { l with cursor, tokens := l.tokens.push (.scalar text false), keyAllowed := true }
  else if x == '\'' || x == '"' then
    l.atom fun c => (c.quotedScalar (x == '\'')).map fun (text, c) => (.scalar text false, c)
  else if startsPlain l.inFlow x r then do
    let l ← l.saveKey
    let (text, broken, cursor) ← l.cursor.plainScalar l.inFlow l.indent
    return { l with cursor, tokens := l.tokens.push (.scalar text true), keyAllowed := broken }
  else .error ⟨"found a character that cannot start any token", l.mark⟩

/-- The loop of `Token.scan`; every round but the last takes a character. -/
def run : Nat → Lexer → Except Fault (List Token)
  | 0, l => .error ⟨"unfinished stream", l.mark⟩
  | fuel + 1, l => do
    let l ← (l.skipBlanks (l.cursor.rest.length + 1)).dropStaleKeys
    let l := l.closeBlocks l.mark.column
    match l.cursor.rest with
    | [] =>
      let l ← (l.closeBlocks (-1)).dropKey
      return l.tokens.toList
    | x :: r => run fuel (← l.token x r)

end Lexer

/-- The tokens of a text. -/
def Token.scan (s : List Char) : Except Fault (List Token) :=
  match s.find? (!isAllowed ·) with
  | some _ => .error ⟨"control characters are not allowed", none⟩
  | none => Lexer.run (s.length + 1) { cursor := .start s }

end ImageRelay.Yaml
