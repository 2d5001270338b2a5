import ImageRelay.Text.Split

/-!
# URIs

Which texts are URIs of a server: an authority, with a scheme before it and a path and query behind
it, or a path alone.

## Main definitions
* `Uri.isValid`: whether a text is a URI.
-/

set_option autoImplicit false

namespace ImageRelay.Uri

/-! ## Schemes -/

/-- A character of a scheme. -/
def isSchemeChar (c : Char) : Bool := c.isAlphanum || c == '+' || c == '-' || c == '.'

/-- The longest scheme. -/
def maxScheme : Nat := 64

/-- The text behind the scheme, and whether there is one; none if it is too long. -/
def afterScheme (s : List Char) : Option (List Char × Bool) :=
  let scheme := s.takeWhile isSchemeChar
  match s.drop scheme.length with
  | ':' :: '/' :: '/' :: r => if scheme.length > maxScheme then none else some (r, true)
  | _ => some (s, false)

/-! ## Authorities -/

/-- A character of an authority. -/
def isAuthorityChar (c : Char) : Bool :=
  c.isAlphanum || "!$&'()*+,-.:;=@[]_~".toList.contains c

/-- What was seen of an authority: the colons and percent signs that belong to the host, brackets,
and whether it ends in an `@`. -/
structure Seen where
  colons : Nat := 0
  percent : Bool := false
  opened : Bool := false
  closed : Bool := false
  atEnd : Bool := false

/-- The most colons of an authority. -/
def maxColons : Nat := 8

/-- One more character of an authority. -/
def Seen.next (s : Seen) (c : Char) : Option Seen :=
  let s := { s with atEnd := c == '@' }
  if c == '%' then some { s with percent := true }
  else if !isAuthorityChar c then none
  else if c == ':' then
    if s.colons ≥ maxColons then none else some { s with colons := s.colons + 1 }
  else if c == '[' then if s.percent || s.opened then none else some { s with opened := true }
  else if c == ']' then
    if !s.opened || s.closed then none
    else some { s with closed := true, colons := 0, percent := false }
  else if c == '@' then some { s with colons := 0, percent := false }
  else some s

/-- Whether what was seen is a whole authority. -/
def Seen.isWhole (s : Seen) : Bool :=
  s.opened == s.closed && s.colons ≤ 1 && !s.atEnd && !s.percent

/-- Whether a text is an authority, which may be empty. -/
def isAuthority (s : List Char) : Bool := (s.foldlM Seen.next {}).any Seen.isWhole

/-- Whether a character ends an authority. -/
def endsAuthority (c : Char) : Bool := c == '/' || c == '?' || c == '#'

/-! ## Paths and queries -/

/-- A character of a path. -/
def isPathChar (c : Char) : Bool :=
  let n := c.toNat
  n == 0x21 || (0x24 ≤ n && n ≤ 0x3B) || n == 0x3D || (0x40 ≤ n && n ≤ 0x5F) ||
    (0x61 ≤ n && n ≤ 0x7A) || n == 0x7C || 0x7E ≤ n || c == '"' || c == '\x7b' || c == '\x7d'

/-- A character of a query. -/
def isQueryChar (c : Char) : Bool :=
  let n := c.toNat
  n == 0x21 || (0x24 ≤ n && n ≤ 0x3B) || n == 0x3D || 0x3F ≤ n

/-- Whether a text is a path, perhaps with a query; a fragment is ignored. -/
def isPathAndQuery (s : List Char) : Bool :=
  let s := s.takeWhile (· != '#')
  match Text.splitOnce '?' s with
  | some (path, query) => path.all isPathChar && query.all isQueryChar
  | none => s.all isPathChar

/-! ## Whole URIs -/

/-- The most bytes of a URI. -/
def maxLength : Nat := 65534

/-- Whether a text is a URI. -/
def isValid (uri : String) : Bool :=
  let s := uri.toList
  if uri.utf8ByteSize > maxLength then false
  else if s = ['*'] then true
  else
    match s with
    | [] => false
    | '/' :: _ => isPathAndQuery s
    | _ =>
      match afterScheme s with
      | none => false
      | some (s, hasScheme) =>
        let authority := s.takeWhile (!endsAuthority ·)
        let rest := s.dropWhile (!endsAuthority ·)
        isAuthority authority && !authority.isEmpty &&
          if hasScheme then isPathAndQuery rest else rest.isEmpty

end ImageRelay.Uri
