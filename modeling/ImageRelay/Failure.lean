import ImageRelay.Console

/-!
# Failures

What can go wrong, as causes and not as texts. A failure is a cause and the contexts it was given
on its way out; its texts follow from them.

* `Chain`: a failure of another program or library, known by its texts only.
* `ResolutionError`: a version or an override document that gives no image set.
* `TransferError`: an engine operation, an archive or a whole batch that failed.
* `Advice`: the form in which a failure is told to the user, with suggestions.
* `Failure`: any of these, with contexts.

At its end stand the two lemmas by which results without an error are taken apart.
-/

set_option autoImplicit false

namespace ImageRelay

/-! ## Operations -/

/-- What is done to an image. -/
inductive Operation
  | pull
  | tag
  | push
  | delete
  | save
  deriving Repr, DecidableEq

/-- The name of an operation. -/
def Operation.name : Operation → String
  | pull => "pull"
  | tag => "tag"
  | push => "push"
  | delete => "delete"
  | save => "save"

/-- The operation in progress, as error texts name it. -/
def Operation.verb : Operation → String
  | pull => "pulling"
  | tag => "tagging"
  | push => "pushing"
  | delete => "deleting"
  | save => "saving"

/-! ## Chains -/

/-- A failure as its texts: the outermost first, then what caused it, down to the root. -/
structure Chain where
  top : String
  causes : List String
  deriving Repr, DecidableEq

namespace Chain

/-- A failure without a cause of its own. -/
def root (text : String) : Chain := ⟨text, []⟩

/-- The failure seen from one context further out. -/
def within (context : String) (c : Chain) : Chain := ⟨context, c.top :: c.causes⟩

/-- All texts, outermost first. -/
def full (c : Chain) : String := ": ".intercalate (c.top :: c.causes)

end Chain

/-! ## Resolution -/

/-- Why a version and an override document give no image set. -/
inductive ResolutionError
  | invalidVersion (version reason : String)
  | clusterVersion (source : Chain)
  | overrideFileNotFound (path reason : String)
  | overrideParse (path reason : String)
  | invalidOverride (key value : String)
  | invalidReference (reference reason : String)
  | unknownImage (name : String)
  | unsupportedPlugin (name : String)
  deriving Repr, DecidableEq

/-- The text of a resolution error. -/
def ResolutionError.message : ResolutionError → String
  | invalidVersion version reason => s!"invalid Kubernetes version '{version}': {reason}"
  | clusterVersion source => s!"couldn't determine the cluster version: {source.full}"
  | overrideFileNotFound path _ => s!"override file does not exist or cannot be opened: {path}"
  | overrideParse path reason =>
    s!"override file {path} is not a flat key/value document: {reason}"
  | invalidOverride key value =>
    s!"override '{key}' has an invalid registry location '{value}'"
  | invalidReference reference reason =>
    s!"'{reference}' is not a valid image reference: {reason}"
  | unknownImage name => s!"unknown image '{name}'"
  | unsupportedPlugin name => s!"unsupported plugin '{name}' (valid plugins are: e2e)"

/-- The texts of what caused a resolution error. -/
def ResolutionError.causes : ResolutionError → List String
  | clusterVersion source => source.top :: source.causes
  | overrideFileNotFound _ reason | overrideParse _ reason => [reason]
  | _ => []

/-! ## Transfers -/

/-- Why an engine operation, an archive or a batch failed. -/
inductive TransferError
  | engineCall (operation : Operation) (reference : String) (source : Chain)
  | streamDrain (reason : String)
  | archiveWrite (path reason : String)
  | cancelled
  | batchFailed (operation : Operation) (failures total : Nat)
  deriving Repr, DecidableEq

/-- The text of a transfer error. -/
def TransferError.message : TransferError → String
  | engineCall operation reference source =>
    s!"error {operation.verb} image {reference}: {source.full}"
  | streamDrain reason => s!"error exporting images: {reason}"
  | archiveWrite path reason => s!"couldn't write archive {path}: {reason}"
  | cancelled => "operation cancelled"
  | batchFailed operation failures total =>
    s!"{operation.name} completed with {failures} failure(s) out of {total} image(s)"

/-- The texts of what caused a transfer error. -/
def TransferError.causes : TransferError → List String
  | engineCall _ _ source => source.top :: source.causes
  | streamDrain reason | archiveWrite _ reason => [reason]
  | _ => []

/-! ## Advice -/

/-- A failure as the user is told of it. -/
structure Advice where
  message : String
  suggestions : List String
  deriving Repr, DecidableEq

namespace Advice

/-- No container engine is installed. -/
def engineNotFound : Advice where
  message := "Neither docker nor podman found"
  suggestions :=
    ["Docker: https://docs.docker.com/get-docker/",
      "Podman: https://podman.io/getting-started/installation"]

/-- What to do about a resolution error. -/
def suggestionsFor : ResolutionError → List String
  | .invalidVersion .. =>
    ["Pass a semantic version such as v1.18.0 with --kubernetes-version",
      "Or use --kubernetes-version auto to ask the cluster"]
  | .clusterVersion .. =>
    ["Check that the cluster is reachable with the given --kubeconfig",
      "Or pass --kubernetes-version explicitly"]
  | .overrideFileNotFound .. => ["Verify the path passed to --e2e-repo-config"]
  | .overrideParse .. | .invalidOverride .. =>
    ["The file must map names to registries, e.g.\n      conformance: myregistry.local/conformance"]
  | .invalidReference .. => ["Registry locations must be lowercase host[/path] values"]
  | .unknownImage .. => ["Run 'conformance-images list' to see the known images"]
  | .unsupportedPlugin .. => ["Use --plugin e2e"]

/-- A batch of which some images failed. -/
def batchFailed (operation : Operation) (failures total : Nat) : Advice where
  message := s!"{operation.name} failed for {failures} of {total} image(s)"
  suggestions := ["Review the per-image errors above", "Run with -v for engine output"]

/-- The lines in which the advice is shown. -/
def text (a : Advice) : String :=
  let head := s!"error: {a.message}\n"
  if a.suggestions.isEmpty then head
  else
    head ++ "\nSuggestions:\n" ++ String.join (a.suggestions.map fun s => s!"  → {s}\n")

/-- What is told when the advice is given. -/
def emissions (a : Advice) : List Emission := [.error a.message, .err a.text]

end Advice

/-! ## Failures with contexts -/

/-- The cause of a failure. -/
inductive Cause
  | resolution (error : ResolutionError)
  | transfer (error : TransferError)
  | advice (advice : Advice)
  | other (chain : Chain)
  deriving Repr, DecidableEq

/-- The texts of a cause and of what caused it in turn. -/
def Cause.chain : Cause → Chain
  | resolution e => ⟨e.message, e.causes⟩
  | transfer e => ⟨e.message, e.causes⟩
  | advice a => ⟨a.message, []⟩
  | other c => c

/-- A cause and the contexts it was given, the outermost first. -/
structure Failure where
  contexts : List String
  cause : Cause
  deriving Repr, DecidableEq

namespace Failure

/-- A cause without contexts. -/
def ofCause (cause : Cause) : Failure := ⟨[], cause⟩

/-- The failure seen from one context further out. -/
def within (context : String) (f : Failure) : Failure := ⟨context :: f.contexts, f.cause⟩

/-- A resolution error as a failure. -/
def ofResolution (e : ResolutionError) : Failure := ofCause (.resolution e)

/-- A transfer error as a failure. -/
def ofTransfer (e : TransferError) : Failure := ofCause (.transfer e)

/-- Advice as a failure. -/
def ofAdvice (a : Advice) : Failure := ofCause (.advice a)

/-- A failure that is known by its texts only. -/
def ofChain (c : Chain) : Failure := ofCause (.other c)

instance : Coe ResolutionError Failure := ⟨ofResolution⟩
instance : Coe TransferError Failure := ⟨ofTransfer⟩
instance : Coe Advice Failure := ⟨ofAdvice⟩
instance : Coe Chain Failure := ⟨ofChain⟩

/-- All texts of the failure. -/
def chain (f : Failure) : Chain := f.contexts.foldr Chain.within f.cause.chain

/-- The outermost text. -/
def message (f : Failure) : String := f.chain.top

/-- All texts in one, outermost first. -/
def full (f : Failure) : String := f.chain.full

/-- Any failure as the user is told of it: what can be helped is told by its cause alone, the rest
with all its contexts. -/
def advice (f : Failure) : Advice :=
  match f.cause with
  | .resolution e => ⟨e.message, Advice.suggestionsFor e⟩
  | .transfer (.batchFailed operation failures total) =>
    Advice.batchFailed operation failures total
  | .advice a => a
  | _ =>
    if (f.full.splitOn "permission denied").length > 1 then
      ⟨f.full, ["Check that your user may talk to the container engine socket"]⟩
    else ⟨f.full, ["Run with -v for more details"]⟩

end Failure

/-! ## Results without an error -/

theorem bind_eq_ok_iff {ε α β : Type} {x : Except ε α} {f : α → Except ε β} {b : β} :
    x >>= f = .ok b ↔ ∃ a, x = .ok a ∧ f a = .ok b := by
  cases x with
  | error e =>
    constructor
    · intro h
      cases h
    · rintro ⟨a, h, -⟩
      cases h
  | ok a =>
    constructor
    · intro h
      exact ⟨a, rfl, h⟩
    · rintro ⟨a', h, hf⟩
      cases h
      exact hf

theorem mapError_eq_ok_iff {ε ε' α : Type} {f : ε → ε'} {x : Except ε α} {a : α} :
    x.mapError f = .ok a ↔ x = .ok a := by
  constructor
  · intro h
    cases x with
    | error e => cases h
    | ok b =>
      cases h
      rfl
  · rintro rfl
    rfl

end ImageRelay
