import ImageRelay.Json.Written

/-!
# Records

Written values that are read as records of texts. A record is written as an object, in which
unknown members count as nothing and a known one is given at most once.

## Main definitions
* `Written.text?`, `Written.optionalText?`: a member that is a text, or a text or `null`.
* `Record.ofWritten?`: the known members of an object.
-/

set_option autoImplicit false

namespace ImageRelay.Json

/-- A value that is a text. -/
def Written.text? : Written → Option String
  | .string s => textOf? s
  | _ => none

/-- A value that is a text or `null`. -/
def Written.optionalText? : Written → Option (Option String)
  | .null => some none
  | w => w.text?.map some

/-- The members of a record by name. -/
abbrev Record : Type := List (String × Written)

namespace Record

/-- The members with the known names; none if the value is no object, if a name is no text, or if a
known name is given twice. -/
def ofWritten? (known : List String) : Written → Option Record
  | .object members =>
    match members.mapM fun (k, v) => (textOf? k).map (·, v) with
    | some fields =>
      let fields := fields.filter fun f => known.contains f.1
      if known.all fun k => (fields.countP (·.1 == k)) ≤ 1 then some fields else none
    | none => none
  | _ => none

/-- A text; the empty text if the member is missing. -/
def text (r : Record) (name : String) : Option String :=
  match r.lookup name with
  | some w => w.text?
  | none => some ""

/-- A text, or none if the member is missing or `null`. -/
def optionalText (r : Record) (name : String) : Option (Option String) :=
  match r.lookup name with
  | some w => w.optionalText?
  | none => some none

end Record

end ImageRelay.Json
