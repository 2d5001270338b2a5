import ImageRelay.Failure
import ImageRelay.Keyed
import ImageRelay.Text.Blank
import ImageRelay.Yaml.Flat

/-!
# Override documents

An override document maps the names of images or registries to locations that replace the built-in
ones. It is a flat document; nothing but blanks is a document without entries.

## Main definitions
* `Overrides`: the entries, in key order.
* `Overrides.parse`: reads a document.
-/

set_option autoImplicit false

namespace ImageRelay

/-- The entries of an override document. -/
structure Overrides where
  entries : List (String × String)
  sorted : Keyed.Sorted entries

namespace Overrides

/-- A document without entries. -/
def empty : Overrides := ⟨[], Keyed.sorted_nil⟩

/-- The document with the given entries; of two with one key the later stays. -/
def ofList (entries : List (String × String)) : Overrides :=
  ⟨Keyed.ofList entries, Keyed.sorted_ofList entries⟩

/-- The value at a key. -/
def get? (o : Overrides) (key : String) : Option String := o.entries.lookup key

/-- Reads a document; `origin` is where it comes from, for errors. -/
def parse (content origin : String) : Except ResolutionError Overrides :=
  if Text.trimmed content = "" then .ok empty
  else
    match Yaml.flatEntries content with
    | .ok entries => .ok (ofList entries)
    | .error fault => .error (.overrideParse origin fault.message)

end Overrides

end ImageRelay
