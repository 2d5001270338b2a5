import ImageRelay.Json.Record
import ImageRelay.Text.Blank
import ImageRelay.Text.Split

/-!
# Progress messages

One status update of an engine. Engines write them as lines: as JSON objects, as
`<layer>: <status>`, as errors, or as anything else, which is a plain status.

## Main definitions
* `Message.ofLine`: the message of a line.
* `Message.text`: the line that shows a message.
* `Message.json`: the JSON text of a message.
-/

set_option autoImplicit false

namespace ImageRelay

/-- A status update of an engine. -/
structure Message where
  id : Option String := none
  status : String := ""
  progress : Option String := none
  error : Option String := none
  deriving Repr, DecidableEq

namespace Message

/-- A message of a status alone. -/
def ofStatus (status : String) : Message := { status }

/-- A message of an error alone. -/
def ofError (error : String) : Message := { error := some error }

/-! ## Lines -/

/-- A layer id: 12 to 64 lower-case hexadecimal digits. -/
def isLayerId (s : List Char) : Bool :=
  12 ≤ s.length && s.length ≤ 64 && s.all fun c => c.isDigit || ('a' ≤ c && c ≤ 'f')

/-- The parts before and after the first colon that a space follows. -/
def splitColonSpace : List Char → Option (List Char × List Char)
  | [] => none
  | c :: r =>
    match c, r with
    | ':', ' ' :: r => some ([], r)
    | _, _ => (splitColonSpace r).map fun (b, e) => (c :: b, e)

/-- Whether a line begins with the word of an error, in any case. -/
def isErrorLine (line : List Char) : Bool :=
  "error".toList.isPrefixOf ((line.take 5).map Char.toLower)

/-- What an error line tells: what follows its first colon, the whole line if nothing does. -/
def errorOf (line : List Char) : List Char :=
  match Text.splitOnce ':' line with
  | some (_, rest) =>
    let rest := Text.trim rest
    if rest.isEmpty then line else rest
  | none => line

/-- The message that a JSON text stands for, if it is one. -/
def ofJson? (s : String) : Option Message := do
  let w ← Json.Written.parse (Text.Utf8.encode s)
  let r ← Json.Record.ofWritten? ["id", "status", "progress", "error"] w
  return {
    id := ← r.optionalText "id"
    status := ← r.text "status"
    progress := ← r.optionalText "progress"
    error := ← r.optionalText "error" }

/-- The message of a line that is no JSON message. -/
def ofPlainLine (line : List Char) : Message :=
  if isErrorLine line then ofError (String.ofList (errorOf line))
  else
    match splitColonSpace line with
    | some (id, status) =>
      if isLayerId id then
        { id := some (String.ofList id), status := String.ofList (Text.trim status) }
      else ofStatus (String.ofList line)
    | none => ofStatus (String.ofList line)

/-- The message of a line, blanks around it left out. -/
def ofLine (line : String) : Message :=
  let line := Text.trim line.toList
  if line.head? == some '\x7b' then
    (ofJson? (String.ofList line)).getD (ofPlainLine line)
  else ofPlainLine line

/-! ## Texts -/

/-- The line that shows a message. -/
def text (m : Message) : String :=
  match m.error with
  | some e => s!"ERROR: {e}"
  | none =>
    (match m.id with
      | some id => s!"{id}: "
      | none => "") ++ m.status ++
    match m.progress with
      | some p => s!" {p}"
      | none => ""

/-- The JSON text of a message; the status is always there. -/
def json (m : Message) : String :=
  let optional (name : String) (v : Option String) : List (String × String) :=
    match v with
    | some v => [(name, Json.quote v)]
    | none => []
  Json.objectText <|
    optional "id" m.id ++ [("status", Json.quote m.status)] ++ optional "progress" m.progress ++
      optional "error" m.error

end Message

end ImageRelay
