import ImageRelay.Keyed
import ImageRelay.Yaml.Node
import ImageRelay.Yaml.Token.Lexer

/-!
# Flat documents

A stream of one document that maps texts to texts. Scalars are taken as their text, however they
are written or tagged, and of two entries with one key the later stays.

## Main definitions
* `documentsOf`: the documents of a text.
* `flatEntries`: the entries of a flat document, in key order.
-/

set_option autoImplicit false

namespace ImageRelay.Yaml

/-- The documents of a text. -/
def documentsOf (text : String) : Except Fault (List Document) := do
  (← Node.ofTokens? (← Token.scan text.toList)).mapM Document.ofNode

/-- The text of a scalar, or of the scalar that an alias stands for. -/
def Document.scalarText (d : Document) (n : Node Nat) : Except Fault String :=
  match d.follow n with
  | .scalar _ text _ => .ok (String.ofList text)
  | _ => .error ⟨"expected a string", none⟩

/-- The entries of a mapping of texts to texts; a document without content has none. -/
def Document.flatEntries (d : Document) : Except Fault (List (String × String)) :=
  match d.root with
  | .mapping _ entries =>
    (entries.mapM fun (k, v) => do return (← d.scalarText k, ← d.scalarText v)).map Keyed.ofList
  | .scalar _ [] _ => .ok []
  | _ => .error ⟨"expected a map", none⟩

/-- The entries of a stream of at most one document. -/
def flatEntries (text : String) : Except Fault (List (String × String)) := do
  match ← documentsOf text with
  | [] => return []
  | [d] => d.flatEntries
  | _ => throw ⟨"more than one document", none⟩

end ImageRelay.Yaml
