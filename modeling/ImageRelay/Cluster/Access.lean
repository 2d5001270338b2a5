import ImageRelay.Base64
import ImageRelay.Cluster.Reading
import ImageRelay.Console
import ImageRelay.Environment
import ImageRelay.Text.Blank
import ImageRelay.Uri

/-!
# Access to a cluster

The current context of a kubeconfig tells which server is asked and by which user. A kubeconfig is
usable when the server, its authority and its proxy can be read; a client can be made when the
credentials of the user can be read.

## Main definitions
* `Access.ofKubeconfig`: the server and the user of the current context.
* `Access.client`: whether a client can be made.
* `Cluster.serverVersion`: the version that the server of a kubeconfig tells.
-/

set_option autoImplicit false

namespace ImageRelay

/-! ## Certificates -/

namespace Pem

/-- The text before and behind the first occurrence of a mark. -/
def cutAt (mark : List Char) : List Char → Option (List Char × List Char)
  | [] => none
  | c :: r =>
    if mark.isPrefixOf (c :: r) then some ([], (c :: r).drop mark.length)
    else (cutAt mark r).map fun (b, e) => (c :: b, e)

/-- The labels of the blocks of a text; none if a block is malformed. The number bounds the blocks.
-/
def labelsIn : Nat → List Char → Option (List (List Char))
  | 0, _ => some []
  | n + 1, s =>
    let block? := do
      let (_, s) ← cutAt "-----BEGIN ".toList s
      let (label, s) ← cutAt "-----".toList s
      let (body, s) ← cutAt "-----END ".toList s
      let (finish, s) ← cutAt "-----".toList s
      return (label, body, finish, s)
    match block? with
    | none => some []
    | some (label, body, finish, s) =>
      let data := body.filter (!Text.isBlank ·)
      if label = finish && (Base64.decode? Base64.standard data).isSome then
        (labelsIn n s).map (label :: ·)
      else none

/-- The labels of the blocks of some bytes; none if a block is malformed. -/
def labels? (bytes : List UInt8) : Option (List (List Char)) :=
  let text := (Text.Utf8.decodeLossy bytes).toList
  labelsIn text.length text

/-- Whether some bytes hold a certificate and a private key. -/
def isIdentity (bytes : List UInt8) : Bool :=
  (labels? bytes).any fun ls =>
    ls.contains "CERTIFICATE".toList &&
      ls.any fun l =>
        ["PRIVATE KEY", "RSA PRIVATE KEY", "EC PRIVATE KEY"].contains (String.ofList l)

end Pem

/-! ## Contexts -/

open Kubeconfig (Cluster User)

/-- The server that is asked, and the user that asks. -/
structure Access where
  cluster : Cluster
  user : User
  server : String
  proxy : Option String := none
  deriving Repr, DecidableEq

namespace Access

/-- The bytes that a base64 text or else a file gives; none if neither is there. -/
def dataOf? (files : Files.Tree) (data path : Option String) : Option (Option (List UInt8)) :=
  match data, path with
  | some text, _ => (Base64.decode? Base64.standard text.toList).map some
  | none, some path =>
    match files.read path with
    | .ok bytes => some (some bytes)
    | .error _ => none
  | none, none => some none

/-- The content of the current context of a kubeconfig. -/
def context? (k : Kubeconfig) : Except String Kubeconfig.Context :=
  match k.currentContext with
  | none => .error "the current context is not set"
  | some name =>
    match (Kubeconfig.find? name k.contexts).bind (·.content) with
    | some c => .ok c
    | none => .error s!"there is no context {name}"

/-- The content of an entry. -/
def entry? {α : Type} (what name : String) (entries : List (Kubeconfig.Named α)) :
    Except String α :=
  match (Kubeconfig.find? name entries).bind (·.content) with
  | some c => .ok c
  | none => .error s!"there is no {what} {name}"

/-- The proxy of a cluster, or the one that the environment names. -/
def proxy? (e : Environment) (c : Cluster) : Option String :=
  let named := ["HTTP_PROXY", "http_proxy", "HTTPS_PROXY", "https_proxy"].map e.get?
  (c.proxy :: named).findSome? fun p => p.filter (!·.isEmpty)

/-- Whether the authority of a cluster can be read. -/
def checkAuthority (files : Files.Tree) (c : Cluster) : Except String Unit :=
  match dataOf? files c.authorityData c.authority with
  | none => .error "the certificate authority cannot be read"
  | some none => .ok ()
  | some (some bytes) =>
    if (Pem.labels? bytes).isSome then .ok () else .error "the certificate authority is malformed"

/-- The server and the user of the current context. -/
def ofKubeconfig (e : Environment) (files : Files.Tree) (k : Kubeconfig) :
    Except String Access := do
  let context ← context? k
  let cluster ← entry? "cluster" context.cluster k.clusters
  let user ← match context.user with
    | some name => entry? "user" name k.users
    | none => .ok {}
  let server ← match cluster.server with
    | some s => if Uri.isValid s then .ok s else .error s!"{s} is no server"
    | none => .error "there is no server"
  checkAuthority files cluster
  let proxy := proxy? e cluster
  if proxy.all Uri.isValid then return ⟨cluster, user, server, proxy⟩
  else throw "the proxy is malformed"

/-! ## Clients -/

/-- The certificate and key of a user, if both can be read. -/
def identity? (files : Files.Tree) (u : User) : Option (List UInt8) := do
  let certificate ← (← dataOf? files u.certificateData u.certificate)
  let key ← (← dataOf? files u.keyData u.key)
  return key ++ 10 :: certificate

/-- Whether the credentials of a user can be used: a provider or a command of the user's would have
to be run, a name with a password counts before a token, and a token before a file with one. -/
def checkCredentials (files : Files.Tree) (u : User) : Except String Unit :=
  if u.hasProvider then .error "the provider of credentials cannot be used"
  else if u.username.isSome && u.password.isSome then .ok ()
  else if u.token.isSome then .ok ()
  else
    match u.tokenFile with
    | some path =>
      match files.readText path with
      | .ok _ => .ok ()
      | .error trouble => .error trouble.message
    | none => if u.hasCommand then .error "the command for credentials failed" else .ok ()

/-- Whether a client can be made; none goes through a proxy. -/
def client (files : Files.Tree) (a : Access) : Except String Unit :=
  if ((identity? files a.user).all Pem.isIdentity) then
    if a.proxy.isSome then .error "proxies are not supported" else checkCredentials files a.user
  else .error "the client certificate is malformed"

end Access

/-! ## Asking -/

/-- What a server answers when it is asked for its version. -/
abbrev Network : Type := Access → Except String String

/-- A network without servers. -/
def Network.none : Network := fun _ => .error "client error (Connect)"

namespace Cluster

/-- The file that is read when no kubeconfig is named. -/
def defaultPath? (e : Environment) : Option String :=
  e.home?.map fun home => Path.join (Path.join home ".kube") "config"

/-- The kubeconfig that the environment names, or else the one in the home directory. -/
def inferred (e : Environment) (files : Files.Tree) : Except String Kubeconfig :=
  match Kubeconfig.pathsOf ((e.get? "KUBECONFIG").getD "") with
  | [] =>
    match defaultPath? e with
    | some path => Kubeconfig.readFile files path
    | none => .error "there is no home directory"
  | paths => do
    let ks ← paths.mapM (Kubeconfig.readFile files)
    match ks.foldlM Kubeconfig.merge {} with
    | some k => return k
    | none => throw "kubeconfigs of different kinds"

/-- A result whose failure is seen from one context further out. -/
def inContext {α : Type} (context : String) (r : Except String α) : Except Chain α :=
  r.mapError fun reason => (Chain.root reason).within context

/-- The access that a list of kubeconfig paths gives, or what is inferred if there is none. -/
def access (e : Environment) (files : Files.Tree) (paths : Option String) :
    Except Chain Access :=
  match paths.filter (!·.isEmpty) with
  | some list =>
    match Kubeconfig.readList files list with
    | .error fault => .error fault
    | .ok k => inContext s!"Invalid kubeconfig {list}" (Access.ofKubeconfig e files k)
  | none =>
    inContext "Failed to infer Kubernetes configuration"
      ((inferred e files).bind (Access.ofKubeconfig e files))

/-- The version that the server of a kubeconfig tells, with what is told on the way: the client logs
a request that failed. -/
def serverVersion (network : Network) (e : Environment) (files : Files.Tree)
    (paths : Option String) : Except Chain String × List Emission :=
  match access e files paths with
  | .error fault => (.error fault, [])
  | .ok a =>
    match a.client files with
    | .error reason =>
      (.error ((Chain.root reason).within "Failed to create Kubernetes client"), [])
    | .ok () =>
      match network a with
      | .ok version => (.ok version, [])
      | .error reason =>
        (.error ((Chain.root reason).within "Failed to get server version"),
          [.clientLog .error s!"failed with error {reason}"])

end Cluster

end ImageRelay
