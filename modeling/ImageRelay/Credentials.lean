import ImageRelay.Base64
import ImageRelay.Failure
import ImageRelay.Json.Record
import ImageRelay.Text.Blank

/-!
# Registry credentials

The user name and password of a push. They travel in a header: the URL-safe base64 text of the JSON
object of both. Credentials without a user name are anonymous.

## Main definitions
* `Credentials.header`: the header of credentials.
* `Credentials.ofHeader`: the credentials of a header.
-/

set_option autoImplicit false

namespace ImageRelay

/-- The credentials of a push. -/
structure Credentials where
  username : String
  password : String
  deriving Repr, DecidableEq

namespace Credentials

/-- Credentials without a user name. -/
def anonymous : Credentials := ⟨"", ""⟩

/-- Whether there is no user name. -/
def isAnonymous (c : Credentials) : Bool := c.username.isEmpty

theorem isAnonymous_iff {c : Credentials} : c.isAnonymous = true ↔ c.username = "" := by
  simp [isAnonymous]

/-- The JSON text of credentials. -/
def json (c : Credentials) : String :=
  Json.objectText [("username", Json.quote c.username), ("password", Json.quote c.password)]

/-- The header of credentials. -/
def header (c : Credentials) : String :=
  String.ofList (Base64.encode Base64.urlSafe (Text.Utf8.encode c.json))

/-- The credentials of a written value: an object, or an array of both in this order; what is
missing is empty. -/
def ofWritten? : Json.Written → Option Credentials
  | .array [] => some anonymous
  | .array [u] => do return ⟨← u.text?, ""⟩
  | .array [u, p] => do return ⟨← u.text?, ← p.text?⟩
  | w => do
    let r ← Json.Record.ofWritten? ["username", "password"] w
    return ⟨← r.text "username", ← r.text "password"⟩

/-- The credentials of a header, blanks around it left out. -/
def ofHeader (header : String) : Except Chain Credentials :=
  match Base64.decode? Base64.urlSafe (Text.trim header.toList) with
  | none =>
    .error ((Chain.root "malformed base64").within "registry auth header is not valid base64")
  | some bytes =>
    match (Json.Written.parse bytes).bind ofWritten? with
    | none =>
      .error <|
        (Chain.root "malformed object").within "registry auth header is not a credentials object"
    | some c => .ok c

end Credentials

end ImageRelay
