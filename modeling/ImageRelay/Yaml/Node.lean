import ImageRelay.Yaml.Token

/-!
# Nodes

A document is a tree of scalars, sequences and mappings. A node may carry an anchor, and an alias
stands for the node that carries it.

## Main definitions
* `Node`: the tree; the type of its aliases is a parameter.
* `Node.ofTokens?`: the documents of a stream, aliases by name.
* `Document`: a tree whose aliases are resolved, with the anchored nodes.
-/

set_option autoImplicit false

namespace ImageRelay.Yaml

/-! ## Trees -/

/-- What may stand before a node: an anchor, and a tag with its handle replaced. -/
structure Properties (α : Type) where
  anchor : Option α := none
  tag : Option (List Char) := none

/-- A node; `α` is what anchors and aliases are known by. -/
inductive Node (α : Type)
  | scalar (props : Properties α) (text : List Char) (plain : Bool)
  | sequence (props : Properties α) (items : List (Node α))
  | mapping (props : Properties α) (entries : List (Node α × Node α))
  | alias (target : α)

/-- The node of a place that holds nothing. -/
def Node.empty {α : Type} (props : Properties α := {}) : Node α := .scalar props [] true

/-- A node whose anchors and aliases are names. -/
abbrev NamedNode : Type := Node (List Char)

/-! ## Tags -/

/-- The prefixes that tag handles stand for. -/
abbrev TagPrefixes : Type := List (List Char × List Char)

/-- The prefixes that every document has. -/
def defaultPrefixes : TagPrefixes :=
  [("!".toList, "!".toList), ("!!".toList, "tag:yaml.org,2002:".toList)]

/-- A tag with its handle replaced. -/
def resolveTag (prefixes : TagPrefixes) (handle suffix : List Char) :
    Except Fault (Option (List Char)) :=
  let tag? := if handle.isEmpty then some suffix else (prefixes.lookup handle).map (· ++ suffix)
  match tag? with
  | some [] => .ok none
  | some tag => .ok (some tag)
  | none => .error ⟨"undefined tag handle", none⟩

/-- The anchor and the tag before a node, in either order. -/
def properties (prefixes : TagPrefixes) :
    List Token → Except Fault (Option (Properties (List Char)) × List Token)
  | .anchor a :: .tag h s :: r | .tag h s :: .anchor a :: r =>
    (resolveTag prefixes h s).map fun tag => (some ⟨some a, tag⟩, r)
  | .anchor a :: r => .ok (some ⟨some a, none⟩, r)
  | .tag h s :: r => (resolveTag prefixes h s).map fun tag => (some ⟨none, tag⟩, r)
  | r => .ok (none, r)

/-! ## From tokens to trees -/

/-- A node and the tokens after it. -/
abbrev NodeResult : Type := Except Fault (NamedNode × List Token)

/-- Where a node stands: among blocks, where a sequence may or may not keep the indentation of the
mapping around it, or inside brackets. -/
inductive Place
  | block (indentless : Bool)
  | flow
  deriving DecidableEq

/-- Whether the next token is one of these. -/
def nextIs (ts : List Token) (p : Token → Bool) : Bool := ts.head?.any p

mutual

/-- A node. -/
def node (prefixes : TagPrefixes) : Nat → Place → List Token → NodeResult
  | 0, _, _ => .error ⟨"nodes too deep", none⟩
  | _ + 1, _, .alias name :: r => .ok (.alias name, r)
  | fuel + 1, place, ts =>
    match properties prefixes ts with
    | .error fault => .error fault
    | .ok (props?, ts) =>
      let props := props?.getD {}
      match place, ts with
      | .block true, .blockEntry :: _ =>
        (indentlessEntries prefixes fuel ts).map fun (items, r) => (.sequence props items, r)
      | _, .scalar text plain :: r => .ok (.scalar props text plain, r)
      | _, .flowSequenceStart :: r =>
        (flowItems prefixes fuel true r).map fun (items, r) => (.sequence props items, r)
      | _, .flowMappingStart :: r =>
        (flowEntries prefixes fuel true r).map fun (entries, r) => (.mapping props entries, r)
      | .block _, .blockSequenceStart :: r =>
        (blockEntries prefixes fuel r).map fun (items, r) => (.sequence props items, r)
      | .block _, .blockMappingStart :: r =>
        (blockPairs prefixes fuel r).map fun (entries, r) => (.mapping props entries, r)
      | _, _ =>
        if props?.isSome then .ok (.empty props, ts)
        else .error ⟨"did not find expected node content", none⟩

/-- A node, or nothing if the next token is one of those that may follow an empty place. -/
def optionalNode (prefixes : TagPrefixes) (stop : Token → Bool) :
    Nat → Place → List Token → NodeResult
  | 0, _, _ => .error ⟨"nodes too deep", none⟩
  | fuel + 1, place, ts => if nextIs ts stop then .ok (.empty, ts) else node prefixes fuel place ts

/-- The entries of a block sequence, to its end. -/
def blockEntries (prefixes : TagPrefixes) :
    Nat → List Token → Except Fault (List NamedNode × List Token)
  | 0, _ => .error ⟨"nodes too deep", none⟩
  | fuel + 1, .blockEntry :: ts =>
    match optionalNode prefixes (fun t => t == .blockEntry || t == .blockEnd) fuel (.block false) ts
    with
    | .error fault => .error fault
    | .ok (n, ts) => (blockEntries prefixes fuel ts).map fun (ns, r) => (n :: ns, r)
  | _ + 1, .blockEnd :: ts => .ok ([], ts)
  | _ + 1, _ => .error ⟨"did not find expected '-' indicator", none⟩

/-- The entries of a sequence that keeps the indentation of the mapping around it. -/
def indentlessEntries (prefixes : TagPrefixes) :
    Nat → List Token → Except Fault (List NamedNode × List Token)
  | 0, _ => .error ⟨"nodes too deep", none⟩
  | fuel + 1, .blockEntry :: ts =>
    let stop t := t == Token.blockEntry || t == .key || t == .value || t == .blockEnd
    match optionalNode prefixes stop fuel (.block false) ts with
    | .error fault => .error fault
    | .ok (n, ts) => (indentlessEntries prefixes fuel ts).map fun (ns, r) => (n :: ns, r)
  | _ + 1, ts => .ok ([], ts)

/-- The entries of a block mapping, to its end. -/
def blockPairs (prefixes : TagPrefixes) :
    Nat → List Token → Except Fault (List (NamedNode × NamedNode) × List Token)
  | 0, _ => .error ⟨"nodes too deep", none⟩
  | _ + 1, .blockEnd :: ts => .ok ([], ts)
  | fuel + 1, ts =>
    let stop t := t == Token.key || t == .value || t == .blockEnd
    let key : NodeResult := match ts with
      | .key :: ts => optionalNode prefixes stop fuel (.block true) ts
      | _ => .error ⟨"did not find expected key", none⟩
    match key with
    | .error fault => .error fault
    | .ok (k, ts) =>
      let value : NodeResult := match ts with
        | .value :: ts => optionalNode prefixes stop fuel (.block true) ts
        | ts => .ok (.empty, ts)
      match value with
      | .error fault => .error fault
      | .ok (v, ts) => (blockPairs prefixes fuel ts).map fun (ps, r) => ((k, v) :: ps, r)

/-- The items of a sequence in brackets, to its end. An item may be a mapping of one entry without
brackets of its own. -/
def flowItems (prefixes : TagPrefixes) :
    Nat → Bool → List Token → Except Fault (List NamedNode × List Token)
  | 0, _, _ => .error ⟨"nodes too deep", none⟩
  | _ + 1, _, .flowSequenceEnd :: ts => .ok ([], ts)
  | fuel + 1, first, ts =>
    let start := match first, ts with
      | true, ts => some ts
      | false, .flowEntry :: ts => some ts
      | false, _ => none
    match start with
    | none => .error ⟨"did not find expected ',' or ']'", none⟩
    | some (.flowSequenceEnd :: ts) => .ok ([], ts)
    | some ts =>
      let item : NodeResult := match ts with
        | .key :: ts => flowPair prefixes fuel ts
        | ts => node prefixes fuel .flow ts
      match item with
      | .error fault => .error fault
      | .ok (n, ts) => (flowItems prefixes fuel false ts).map fun (ns, r) => (n :: ns, r)

/-- A mapping of one entry inside a sequence in brackets, after the `?` or at the place of its key.
Where the key is empty, the token behind its place is passed, whatever it is. -/
def flowPair (prefixes : TagPrefixes) : Nat → List Token → NodeResult
  | 0, _ => .error ⟨"nodes too deep", none⟩
  | fuel + 1, ts =>
    let key : NodeResult :=
      if nextIs ts fun t => t == Token.value || t == .flowEntry || t == .flowSequenceEnd then
        .ok (.empty, ts.tail)
      else node prefixes fuel .flow ts
    match key with
    | .error fault => .error fault
    | .ok (k, ts) =>
      let value : NodeResult := match ts with
        | .value :: ts =>
          let stop t := t == Token.flowEntry || t == .flowSequenceEnd
          optionalNode prefixes stop fuel .flow ts
        | ts => .ok (.empty, ts)
      value.map fun (v, ts) => (.mapping {} [(k, v)], ts)

/-- The entries of a mapping in brackets, to its end. -/
def flowEntries (prefixes : TagPrefixes) :
    Nat → Bool → List Token → Except Fault (List (NamedNode × NamedNode) × List Token)
  | 0, _, _ => .error ⟨"nodes too deep", none⟩
  | _ + 1, _, .flowMappingEnd :: ts => .ok ([], ts)
  | fuel + 1, first, ts =>
    let start := match first, ts with
      | true, ts => some ts
      | false, .flowEntry :: ts => some ts
      | false, _ => none
    let entry : Except Fault (Option (NamedNode × NamedNode) × List Token) := match start with
      | none => .error ⟨"did not find expected ',' or '\x7d'", none⟩
      | some (.flowMappingEnd :: ts) => .ok (none, ts)
      | some (.key :: ts) =>
        let stop t := t == Token.value || t == .flowEntry || t == .flowMappingEnd
        match optionalNode prefixes stop fuel .flow ts with
        | .error fault => .error fault
        | .ok (k, .value :: ts) =>
          let stop t := t == Token.flowEntry || t == .flowMappingEnd
          (optionalNode prefixes stop fuel .flow ts).map fun (v, ts) => (some (k, v), ts)
        | .ok (k, ts) => .ok (some (k, .empty), ts)
      | some ts => (node prefixes fuel .flow ts).map fun (k, ts) => (some (k, .empty), ts)
    match entry with
    | .error fault => .error fault
    | .ok (none, ts) => .ok ([], ts)
    | .ok (some e, ts) => (flowEntries prefixes fuel false ts).map fun (es, r) => (e :: es, r)

end

/-- The directives before a document, as the tag prefixes they set. -/
def directives (versioned : Bool) (prefixes : TagPrefixes) :
    List Token → Except Fault (TagPrefixes × List Token)
  | .versionDirective major minor :: r =>
    if versioned then .error ⟨"duplicate %YAML directive", none⟩
    else if major = 1 && (minor = 1 || minor = 2) then directives true prefixes r
    else .error ⟨"incompatible YAML document", none⟩
  | .tagDirective handle tagPrefix :: r =>
    if (prefixes.lookup handle).isSome then .error ⟨"duplicate %TAG directive", none⟩
    else directives versioned ((handle, tagPrefix) :: prefixes) r
  | r => .ok (prefixes, r)

/-- Whether a token cannot begin the content of a document. -/
def Token.endsContent : Token → Bool
  | .versionDirective .. | .tagDirective .. | .documentStart | .documentEnd => true
  | _ => false

/-- The documents of a stream. Only the first may begin without `---`. -/
def documents : Nat → Bool → List Token → Except Fault (List NamedNode)
  | 0, _, _ => .error ⟨"too many documents", none⟩
  | fuel + 1, first, ts => do
    let ts := if first then ts else ts.dropWhile (· == .documentEnd)
    match ts with
    | [] => return []
    | t :: _ =>
      let implicit := first && (!t.endsContent || t == .documentEnd)
      let (prefixes, ts) ← if implicit then pure ([], ts) else directives false [] ts
      let ts ← match implicit, ts with
        | true, ts => pure ts
        | false, .documentStart :: ts => pure ts
        | false, _ => throw ⟨"did not find expected <document start>", none⟩
      let place := Place.block false
      let all := prefixes ++ defaultPrefixes
      let size := 4 * ts.length + 4
      let (root, ts) ←
        if implicit then node all size place ts
        else if ts.isEmpty then pure (.empty, ts)
        else optionalNode all Token.endsContent size place ts
      let ts := match ts with
        | .documentEnd :: ts => ts
        | ts => ts
      return root :: (← documents fuel false ts)

/-- The documents of a stream of tokens. -/
def Node.ofTokens? (ts : List Token) : Except Fault (List NamedNode) :=
  documents (ts.length + 1) true ts

/-! ## Anchors -/

/-- The numbers that the names of anchors stand for, the latest first. A name that is given again
gets the number of names known by then, so two names may come to share a number. -/
abbrev AnchorNumbers : Type := List (List Char × Nat)

/-- Gives a name its number. -/
def AnchorNumbers.define (numbers : AnchorNumbers) (name : List Char) : AnchorNumbers :=
  (name, numbers.length) :: numbers.filter (·.1 != name)

/-- Replaces the name of an anchor by its number. -/
def Properties.number (p : Properties (List Char)) (numbers : AnchorNumbers) :
    Properties Nat × AnchorNumbers :=
  match p.anchor with
  | none => (⟨none, p.tag⟩, numbers)
  | some name => (⟨some numbers.length, p.tag⟩, numbers.define name)

mutual

/-- Replaces names by numbers, in the order of the text; an alias needs an anchor before it. -/
def Node.number : NamedNode → AnchorNumbers → Except Fault (Node Nat × AnchorNumbers)
  | .scalar p text plain, numbers =>
    let (p, numbers) := p.number numbers
    .ok (.scalar p text plain, numbers)
  | .sequence p items, numbers =>
    let (p, numbers) := p.number numbers
    (numberItems items numbers).map fun (items, numbers) => (.sequence p items, numbers)
  | .mapping p entries, numbers =>
    let (p, numbers) := p.number numbers
    (numberEntries entries numbers).map fun (entries, numbers) => (.mapping p entries, numbers)
  | .alias name, numbers =>
    match numbers.lookup name with
    | some n => .ok (.alias n, numbers)
    | none => .error ⟨"unknown anchor", none⟩

/-- `Node.number` on the items of a sequence. -/
def Node.numberItems :
    List NamedNode → AnchorNumbers → Except Fault (List (Node Nat) × AnchorNumbers)
  | [], numbers => .ok ([], numbers)
  | n :: r, numbers =>
    match Node.number n numbers with
    | .error fault => .error fault
    | .ok (n, numbers) => (numberItems r numbers).map fun (r, numbers) => (n :: r, numbers)

/-- `Node.number` on the entries of a mapping. -/
def Node.numberEntries : List (NamedNode × NamedNode) → AnchorNumbers →
    Except Fault (List (Node Nat × Node Nat) × AnchorNumbers)
  | [], numbers => .ok ([], numbers)
  | (k, v) :: r, numbers =>
    match Node.number k numbers with
    | .error fault => .error fault
    | .ok (k, numbers) =>
      match Node.number v numbers with
      | .error fault => .error fault
      | .ok (v, numbers) => (numberEntries r numbers).map fun (r, numbers) => ((k, v) :: r, numbers)

end

mutual

/-- The anchored nodes with their numbers, the latest first. -/
def Node.anchored : Node Nat → List (Nat × Node Nat) → List (Nat × Node Nat)
  | .scalar p text plain, found =>
    match p.anchor with
    | some a => (a, .scalar p text plain) :: found
    | none => found
  | .sequence p items, found =>
    anchoredItems items <| match p.anchor with
      | some a => (a, .sequence p items) :: found
      | none => found
  | .mapping p entries, found =>
    anchoredEntries entries <| match p.anchor with
      | some a => (a, .mapping p entries) :: found
      | none => found
  | .alias _, found => found

/-- `Node.anchored` on the items of a sequence. -/
def Node.anchoredItems : List (Node Nat) → List (Nat × Node Nat) → List (Nat × Node Nat)
  | [], found => found
  | n :: r, found => anchoredItems r (Node.anchored n found)

/-- `Node.anchored` on the entries of a mapping. -/
def Node.anchoredEntries :
    List (Node Nat × Node Nat) → List (Nat × Node Nat) → List (Nat × Node Nat)
  | [], found => found
  | (k, v) :: r, found => anchoredEntries r (Node.anchored v (Node.anchored k found))

end

/-- A document: its tree, and the nodes that its aliases stand for by their numbers; of two nodes
with one number the later counts. -/
structure Document where
  root : Node Nat
  anchored : List (Nat × Node Nat)

namespace Document

/-- The document of a tree. -/
def ofNode (n : NamedNode) : Except Fault Document :=
  (n.number []).map fun (root, _) => ⟨root, root.anchored []⟩

/-- The node itself, or the one that an alias stands for. -/
def follow (d : Document) : Node Nat → Node Nat
  | .alias n => (d.anchored.lookup n).getD .empty
  | n => n

end Document

end ImageRelay.Yaml
