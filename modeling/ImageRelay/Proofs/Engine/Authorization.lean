import ImageRelay.Engine.Container
import ImageRelay.Proofs.Credentials
import ImageRelay.Proofs.Image.Parts
import ImageRelay.Proofs.Json.Values
import ImageRelay.Proofs.Registry.Sorted

/-!
# Configurations for pushes

The throwaway configuration of a push is the one that the user has but for what decides on the
credentials of the registry.

* `Original`: the fields that the user has, whatever is in the file.
* `Edited`: what a configuration has in common with these fields, and where it differs.
* `Configured`: such a configuration in a throwaway directory, and the text of it there.
* `Container.push_configuration`: the pushes that are started with it.
-/

set_option autoImplicit false

namespace ImageRelay

namespace Authorization

open Json (Value Number Written maxDepth)
open Text.Utf8

/-! ## The user's configuration -/

/-- The fields of the user's configuration: those of the object in the file, and none if there is no
directory, no file that can be read, or no object in it. -/
inductive Original (files : Files.Tree) : Option String → Fields → Prop
  | nowhere : Original files none []
  | unreadable {directory : String} {trouble : Files.Trouble}
      (h : files.read (Path.join directory "config.json") = .error trouble) :
      Original files (some directory) []
  | object {directory : String} {content : List UInt8} {fields : Fields}
      (h : files.read (Path.join directory "config.json") = .ok content)
      (hc : Value.parse content = some (.object fields)) : Original files (some directory) fields
  | other {directory : String} {content : List UInt8}
      (h : files.read (Path.join directory "config.json") = .ok content)
      (hc : ∀ fields, Value.parse content ≠ some (.object fields)) :
      Original files (some directory) []

/-- These are the fields that a throwaway configuration is made of. -/
theorem original_iff {files : Files.Tree} {base : Option String} {fields : Fields} :
    Original files base fields ↔ fields = (base.map (fieldsIn files)).getD [] := by
  constructor
  · intro h
    cases h with
    | nowhere => rfl
    | unreadable h => simp [fieldsIn, h]
    | object h hc => simp [fieldsIn, h, fieldsOf, hc]
    | other h hc =>
      rw [Option.map_some, Option.getD_some, fieldsIn, h]
      dsimp only
      rw [fieldsOf]
      split
      · exact absurd ‹_› (hc _)
      · rfl
  · rintro rfl
    cases base with
    | none => exact .nowhere
    | some directory =>
      rw [Option.map_some, Option.getD_some, fieldsIn]
      split
      · rename_i content h
        rw [fieldsOf]
        split
        · exact .object h ‹_›
        · rename_i hc
          exact .other h fun fields hf => hc fields hf
      · exact .unreadable ‹_›

theorem Original.proper {files : Files.Tree} {base : Option String} {fields : Fields}
    (h : Original files base fields) : (Value.object fields).Proper Number.Fits maxDepth := by
  have hempty : (Value.object []).Proper Number.Fits maxDepth :=
    .object Keyed.sorted_nil (by simp)
  cases h with
  | object _ hc => exact Value.proper_of_parse hc
  | _ => exact hempty

/-! ## Edits -/

/-- The fields of the object at a key, if there is one. -/
def objectAt? (k : String) (fields : Fields) : Option Fields :=
  match fields.lookup k with
  | some (.object inner) => some inner
  | _ => none

/-- The fields `after` are the fields `before` without the store of all credentials and without the
helper of the registry, and with the credentials as its only entry. -/
structure Edited (c : Credentials) (host : String) (before after : Fields) : Prop where
  proper : (Value.object after).Proper Number.Fits maxDepth
  store : after.lookup "credsStore" = none
  helpers : match objectAt? "credHelpers" before with
    | some helpers => ∃ kept, objectAt? "credHelpers" after = some kept ∧
        ∀ k, kept.lookup k = if k = host then none else helpers.lookup k
    | none => after.lookup "credHelpers" = before.lookup "credHelpers"
  entries : ∃ entries, objectAt? "auths" after = some entries ∧
    (∃ t, entries.lookup host = some (.object [("auth", .string t)]) ∧
      Base64.decode? Base64.standard t.toList = some (encode (c.username ++ ":" ++ c.password))) ∧
    ∀ k, k ≠ host → entries.lookup k = (objectAt? "auths" before).bind (·.lookup k)
  rest : ∀ k, k ≠ "credsStore" → k ≠ "credHelpers" → k ≠ "auths" → after.lookup k = before.lookup k

theorem decode?_token (c : Credentials) :
    Base64.decode? Base64.standard (token c).toList =
      some (encode (c.username ++ ":" ++ c.password)) := by
  rw [token, String.toList_ofList, Base64.decode?_encode Base64.proper_standard]
  rfl

theorem objectAt?_insert (k : String) (inner fields : Fields) :
    objectAt? k (Keyed.insert k (.object inner) fields) = some inner := by
  rw [objectAt?, Keyed.lookup_insert, if_pos rfl]

theorem objectAt?_congr {k : String} {fields fields' : Fields}
    (h : fields.lookup k = fields'.lookup k) : objectAt? k fields = objectAt? k fields' := by
  rw [objectAt?, objectAt?, h]

section
variable (c : Credentials) (host : String) (fields : Fields)

theorem withoutHelper_eq : withoutHelper host fields =
    match objectAt? "credHelpers" fields with
    | some helpers => Keyed.insert "credHelpers" (.object (Keyed.erase host helpers)) fields
    | none => fields := by
  rw [withoutHelper, objectAt?]
  rcases fields.lookup "credHelpers" with _ | v
  · rfl
  · cases v <;> rfl

theorem withEntry_eq : withEntry host c fields =
    Keyed.insert "auths"
      (.object (Keyed.insert host (entry c) ((objectAt? "auths" fields).getD []))) fields := by
  rw [withEntry, objectAt?]
  rcases fields.lookup "auths" with _ | v
  · rfl
  · cases v <;> rfl

theorem lookup_withoutHelper_of_ne {k : String} (h : k ≠ "credHelpers") :
    (withoutHelper host fields).lookup k = fields.lookup k := by
  rw [withoutHelper]
  split
  · rw [Keyed.lookup_insert, if_neg h]
  · rfl

theorem lookup_withEntry_of_ne {k : String} (h : k ≠ "auths") :
    (withEntry host c fields).lookup k = fields.lookup k := by
  rw [withEntry, Keyed.lookup_insert, if_neg h]

theorem lookup_configuration_of_ne {k : String} (hs : k ≠ "credsStore") (hh : k ≠ "credHelpers")
    (ha : k ≠ "auths") : (configuration c host fields).lookup k = fields.lookup k := by
  rw [configuration, lookup_withEntry_of_ne c host _ ha, lookup_withoutHelper_of_ne host _ hh,
    Keyed.lookup_erase, if_neg hs]

end

section
variable {p : Number → Prop} {depth : Nat} {fields : Fields}

theorem proper_insert {k : String} {v : Value} (h : (Value.object fields).Proper p (depth + 1))
    (hv : v.Proper p depth) : (Value.object (Keyed.insert k v fields)).Proper p (depth + 1) := by
  cases h with
  | object hs h =>
    refine .object (Keyed.sorted_insert k v hs) fun f hf => ?_
    rcases Keyed.mem_insert hf with rfl | hf
    · exact hv
    · exact h f hf

theorem proper_erase (k : String) (h : (Value.object fields).Proper p (depth + 1)) :
    (Value.object (Keyed.erase k fields)).Proper p (depth + 1) := by
  cases h with
  | object hs h => exact .object (Keyed.sorted_erase k hs) fun f hf => h f (List.mem_filter.1 hf).1

theorem proper_of_objectAt? {k : String} {inner : Fields}
    (h : (Value.object fields).Proper p (depth + 1)) (hl : objectAt? k fields = some inner) :
    (Value.object inner).Proper p depth := by
  rw [objectAt?] at hl
  split at hl
  · rename_i hlookup
    cases hl
    cases h with
    | object hs h => exact h _ ((Keyed.lookup_eq_some_iff hs).1 hlookup)
  · cases hl

/-- Of the edits none nests a value deeper than three objects. -/
theorem proper_configuration (c : Credentials) (host : String)
    (h : (Value.object fields).Proper p (depth + 3)) :
    (Value.object (configuration c host fields)).Proper p (depth + 3) := by
  have herased := proper_erase "credsStore" h
  have hhelper : (Value.object (withoutHelper host (Keyed.erase "credsStore" fields))).Proper p
      (depth + 3) := by
    rw [withoutHelper_eq]
    split
    · exact proper_insert herased (proper_erase host (proper_of_objectAt? herased ‹_›))
    · exact herased
  have hentry : (entry c).Proper p (depth + 1) := by
    refine .object (List.pairwise_singleton _ _) fun f hf => ?_
    obtain rfl := List.mem_singleton.1 hf
    exact .string depth _
  rw [configuration, withEntry_eq]
  refine proper_insert hhelper (proper_insert ?_ hentry)
  -- the entries are those behind the removal of the helper, which leaves them as they are
  cases ha : objectAt? "auths" (withoutHelper host (Keyed.erase "credsStore" fields)) with
  | none => exact .object Keyed.sorted_nil (by simp)
  | some entries => exact proper_of_objectAt? hhelper ha

end

theorem configuration_edited (c : Credentials) (host : String) {fields : Fields}
    (h : (Value.object fields).Proper Number.Fits maxDepth) :
    Edited c host fields (configuration c host fields) where
  proper := proper_configuration c host h
  store := by
    rw [configuration, lookup_withEntry_of_ne _ _ _ (by decide),
      lookup_withoutHelper_of_ne _ _ (by decide), Keyed.lookup_erase, if_pos rfl]
  helpers := by
    have herased : (Keyed.erase "credsStore" fields).lookup "credHelpers" =
        fields.lookup "credHelpers" := by
      rw [Keyed.lookup_erase, if_neg (by decide)]
    have hafter : (configuration c host fields).lookup "credHelpers" =
        (withoutHelper host (Keyed.erase "credsStore" fields)).lookup "credHelpers" := by
      rw [configuration, lookup_withEntry_of_ne _ _ _ (by decide)]
    rw [objectAt?_congr hafter, hafter, withoutHelper_eq, objectAt?_congr herased]
    cases objectAt? "credHelpers" fields with
    | none => exact herased
    | some helpers =>
      exact ⟨_, objectAt?_insert _ _ _, fun k => Keyed.lookup_erase host k helpers⟩
  entries := by
    have hauths : (withoutHelper host (Keyed.erase "credsStore" fields)).lookup "auths" =
        fields.lookup "auths" := by
      rw [lookup_withoutHelper_of_ne _ _ (by decide), Keyed.lookup_erase, if_neg (by decide)]
    rw [configuration, withEntry_eq, objectAt?_congr hauths]
    refine ⟨_, objectAt?_insert _ _ _, ⟨token c, ?_, decode?_token c⟩, fun k hk => ?_⟩
    · rw [Keyed.lookup_insert, if_pos rfl]
      rfl
    · rw [Keyed.lookup_insert, if_neg hk]
      cases objectAt? "auths" fields <;> rfl
  rest k hs hh ha := lookup_configuration_of_ne c host fields hs hh ha

/-! ## Throwaway directories -/

/-- The directory holds the edited configuration of the user. Its text is a written form of it, and
what is read there, if the user's floating-point numbers are read back. -/
def Configured (files : Files.Tree) (base : Option String) (c : Credentials) (host : String)
    (d : Directory) : Prop :=
  ∃ fields, Original files base fields ∧ Edited c host fields d.configuration ∧
    (∃ w, Written.parse (encode d.text) = some w ∧ (Value.object d.configuration).WrittenAs w) ∧
    ((Value.object fields).Proper Number.Exact maxDepth →
      Value.parse (encode d.text) = some (.object d.configuration))

theorem parse_directory_text {files : Files.Tree} {base : Option String} {fields : Fields}
    (h : Original files base fields) (he : (Value.object fields).Proper Number.Exact maxDepth)
    (c : Credentials) (host : String) :
    Value.parse (encode (directory files base c host).text) =
      some (.object (configuration c host fields)) := by
  have hproper := h.proper.imp₂ (fun _ => Number.readsBack_of_exact) he
  rw [Directory.text, directory, ← original_iff.1 h]
  exact Value.parse_text (proper_configuration c host hproper)

theorem directory_configured (files : Files.Tree) (base : Option String) (c : Credentials)
    (host : String) : Configured files base c host (directory files base c host) := by
  have horiginal := original_iff.2 (rfl : (base.map (fieldsIn files)).getD [] = _)
  exact ⟨_, horiginal, configuration_edited c host horiginal.proper, Value.parse_written _,
    fun hexact => parse_directory_text horiginal hexact c host⟩

end Authorization

/-! ## Pushes -/

namespace Container

/-- The header carries no credentials: it is empty, or its credentials are anonymous. -/
def Bare (header : String) : Prop :=
  header = "" ∨ ∃ auth, Credentials.ofHeader header = .ok auth ∧ auth.username = ""

/-- The throwaway directory that is made for a push with these credentials. -/
def pushDirectory (k : Container) (m : Machine) (reference : String) (auth : Credentials) :
    Authorization.Directory :=
  Authorization.directory m.files (k.baseDirectory m.environment) auth
    (Authorization.registryHost reference)

/-- How docker and podman are started for a push whose credentials lie in the directory `path`, and
on which ground that directory is made: docker is told of the directory and has the user's own one
as its ground, podman is told of the file and has none. -/
inductive AuthorizedPush (e : Environment) (path reference : String) :
    Container → (base : Option String) → Program.Invocation → Prop
  | dockerSet {directory : String} (h : e.get? "DOCKER_CONFIG" = some directory)
      (hd : directory ≠ "") :
      AuthorizedPush e path reference docker (some directory)
        ⟨"docker", ["--config", path, "push", reference]⟩
  | dockerHome {home : String}
      (h : ∀ directory, e.get? "DOCKER_CONFIG" = some directory → directory = "")
      (hh : e.home? = some home) :
      AuthorizedPush e path reference docker (some (Path.join home ".docker"))
        ⟨"docker", ["--config", path, "push", reference]⟩
  | dockerBare (h : ∀ directory, e.get? "DOCKER_CONFIG" = some directory → directory = "")
      (hh : e.home? = none) :
      AuthorizedPush e path reference docker none ⟨"docker", ["--config", path, "push", reference]⟩
  | podman :
      AuthorizedPush e path reference podman none
        ⟨"podman", ["push", "--authfile", Path.join path "config.json", reference]⟩

theorem userDirectory?_of_set {e : Environment} {directory : String}
    (h : e.get? "DOCKER_CONFIG" = some directory) (hd : directory ≠ "") :
    Authorization.userDirectory? e = some directory := by
  simp [Authorization.userDirectory?, Option.filter, h, hd]

theorem userDirectory?_of_unset {e : Environment}
    (h : ∀ directory, e.get? "DOCKER_CONFIG" = some directory → directory = "") :
    Authorization.userDirectory? e = e.home?.map (Path.join · ".docker") := by
  cases hget : e.get? "DOCKER_CONFIG" with
  | none => simp [Authorization.userDirectory?, hget]
  | some directory =>
    simp [Authorization.userDirectory?, Option.filter, hget, h directory hget]

theorem authorizedPush_iff {e : Environment} {path reference : String} {k : Container}
    {base : Option String} {invocation : Program.Invocation} :
    AuthorizedPush e path reference k base invocation ↔
      base = k.baseDirectory e ∧ invocation = ⟨k.command, k.authorizedPush path reference⟩ := by
  constructor
  · intro h
    cases h with
    | dockerSet h hd => exact ⟨(userDirectory?_of_set h hd).symm, rfl⟩
    | dockerHome h hh =>
      refine ⟨?_, rfl⟩
      rw [baseDirectory, userDirectory?_of_unset h, hh]
      rfl
    | dockerBare h hh =>
      refine ⟨?_, rfl⟩
      rw [baseDirectory, userDirectory?_of_unset h, hh]
      rfl
    | podman => exact ⟨rfl, rfl⟩
  · rintro ⟨rfl, rfl⟩
    cases k with
    | podman => exact .podman
    | docker =>
      rw [baseDirectory]
      by_cases h : ∀ directory, e.get? "DOCKER_CONFIG" = some directory → directory = ""
      · rw [userDirectory?_of_unset h]
        cases hh : e.home? with
        | none => exact .dockerBare h hh
        | some home => exact .dockerHome h hh
      · obtain ⟨directory, hget, hd⟩ : ∃ directory, e.get? "DOCKER_CONFIG" = some directory ∧
            directory ≠ "" := by simpa using h
        rw [userDirectory?_of_set hget hd]
        exact .dockerSet hget hd

theorem authorize_of_bare (k : Container) (m : Machine) (reference : String) {header : String}
    (h : Bare header) : k.authorize m reference header = (.ok none, []) := by
  unfold authorize
  rcases h with rfl | ⟨auth, hauth, hanonymous⟩
  · rfl
  · rw [hauth]
    dsimp only
    rw [Credentials.isAnonymous_iff.2 hanonymous]
    split <;> rfl

theorem authorize_header (k : Container) (m : Machine) (reference : String) {auth : Credentials}
    (h : auth.username ≠ "") (x : Option (String × Authorization.Directory)) :
    (k.authorize m reference auth.header).1 = .ok x ↔
      ∃ path, m.throwaway = .ok path ∧
        m.fillingFault? (k.pushDirectory m reference auth) = none ∧
        x = some (path, k.pushDirectory m reference auth) := by
  have hempty : auth.header.isEmpty = false := by simpa using auth.header_ne_empty
  have hnamed : auth.isAnonymous = false := Bool.eq_false_iff.2 (mt Credentials.isAnonymous_iff.1 h)
  unfold authorize pushDirectory
  rw [hempty, auth.ofHeader_header]
  dsimp only
  rw [hnamed]
  generalize Authorization.directory m.files (k.baseDirectory m.environment) auth
    (Authorization.registryHost reference) = d
  cases m.throwaway with
  | error => simp
  | ok path =>
    cases m.fillingFault? d with
    | none => simp [eq_comm]
    | some fault => simp

/-- A call is started behind its directory, if its program can be. -/
theorem begin_eq_ok_iff (k : Container) (m : Machine) (now : Request) (s : Started) :
    k.begin m now = .ok s ↔ k.launch m now = .ok () ∧
      ∃ directory, (k.callDirectory m now.call).1 = .ok directory ∧
        s = ⟨⟨k.command, k.arguments (directory.map (·.1)) now.call⟩, directory.map (·.2)⟩ := by
  unfold begin opening
  rcases k.callDirectory m now.call with ⟨fault | directory, history⟩
  · simp
  · cases k.launch m now with
    | error => simp
    | ok => simp [eq_comm]

/-- **A push with credentials changes the user's configuration only where they are looked up.**
Whatever the user's file holds, and for every registry and all credentials, the configuration in a
throwaway directory is the object in that file without the store of all credentials, without the
helper of the registry, and with the credentials as the whole entry of the registry. A push with the
header of named credentials is started exactly with such a directory for the registry of its
reference, which docker makes of the user's file and podman of nothing; without credentials no
directory is made or passed. The text in the directory is read as the configuration again, if the
floating-point numbers of the user's file are. -/
theorem push_configuration (m : Machine) (reference : String) (auth : Credentials)
    (cancelled : Bool) :
    (∀ files base host, Authorization.Configured files base auth host
      (Authorization.directory files base auth host)) ∧
    ∀ (k : Container) (s : Started),
      (k.begin m ⟨.push reference auth.header, cancelled⟩ = .ok s ↔
        k.launch m ⟨.push reference auth.header, cancelled⟩ = .ok () ∧
        if auth.username = "" then s = ⟨⟨k.command, ["push", reference]⟩, none⟩
        else ∃ path base invocation host, m.throwaway = .ok path ∧
          AuthorizedPush m.environment path reference k base invocation ∧
          Authorization.RegistryOf reference host ∧
          m.fillingFault? (Authorization.directory m.files base auth host) = none ∧
          s = ⟨invocation, some (Authorization.directory m.files base auth host)⟩) ∧
      ∀ header, Bare header → (k.begin m ⟨.push reference header, cancelled⟩ = .ok s ↔
        k.launch m ⟨.push reference header, cancelled⟩ = .ok () ∧
        s = ⟨⟨k.command, ["push", reference]⟩, none⟩) := by
  have hbare (k : Container) (s : Started) (header : String) (h : Bare header) :
      k.begin m ⟨.push reference header, cancelled⟩ = .ok s ↔
        k.launch m ⟨.push reference header, cancelled⟩ = .ok () ∧
        s = ⟨⟨k.command, ["push", reference]⟩, none⟩ := by
    rw [begin_eq_ok_iff, callDirectory, k.authorize_of_bare m reference h]
    simp [arguments]
  refine ⟨fun files base host => Authorization.directory_configured files base auth host,
    fun k s => ⟨?_, hbare k s⟩⟩
  -- a header that was written is never empty, so only the name decides on the directory
  by_cases ha : auth.username = ""
  · rw [if_pos ha]
    exact hbare k s auth.header (.inr ⟨auth, auth.ofHeader_header, ha⟩)
  · rw [if_neg ha, begin_eq_ok_iff, callDirectory]
    refine and_congr_right fun _ => ?_
    constructor
    · rintro ⟨directory, hd, rfl⟩
      obtain ⟨path, hp, hf, rfl⟩ := (k.authorize_header m reference ha directory).1 hd
      exact ⟨path, _, _, _, hp, authorizedPush_iff.2 ⟨rfl, rfl⟩,
        Authorization.registryOf_iff.2 rfl, hf, rfl⟩
    · rintro ⟨path, base, invocation, host, hp, hauthorized, hhost, hf, rfl⟩
      obtain ⟨rfl, rfl⟩ := authorizedPush_iff.1 hauthorized
      obtain rfl := Authorization.registryOf_iff.1 hhost
      exact ⟨_, (k.authorize_header m reference ha _).2 ⟨path, hp, hf, rfl⟩, rfl⟩

/-- A configuration with a store of all credentials, and with a helper for one registry. -/
def deskText : String :=
  "\x7b\"credsStore\":\"desktop\",\"credHelpers\":\x7b\"ghcr.io\":\"gh\"\x7d," ++
    "\"currentContext\":\"ci\"\x7d"

/-- The fields of this configuration. -/
def deskFields : Authorization.Fields :=
  [("credHelpers", .object [("ghcr.io", .string "gh")]), ("credsStore", .string "desktop"),
    ("currentContext", .string "ci")]

theorem deskFields_proper {p : Json.Number → Prop} :
    (Json.Value.object deskFields).Proper p Json.maxDepth := by
  have hsorted : Keyed.Sorted deskFields := by
    show deskFields.Pairwise (·.1 < ·.1)
    decide
  refine .object hsorted ?_
  rw [deskFields, List.forall_mem_cons, List.forall_mem_cons, List.forall_mem_singleton]
  refine ⟨.object (List.pairwise_singleton _ _) ?_, .string _ _, .string _ _⟩
  exact List.forall_mem_singleton.2 (.string _ _)

/-- A machine with docker and this configuration. -/
def desk : Machine where
  environment := ⟨[("HOME", "/home")], none⟩
  files :=
    ⟨[(["home"], .directory), (["home", ".docker"], .directory),
      (["home", ".docker", "config.json"], .file (Text.Utf8.encode deskText) false),
      (["bin"], .directory), (["bin", "docker"], .file [] true)], []⟩

/-- A push to the registry of the helper: the context stays, and neither the store nor the helper
does. -/
theorem helper_gives_way :
    (⟨"ci", "winter"⟩ : Credentials).username ≠ "" ∧ Bare "" ∧
    ∃ d : Authorization.Directory,
      docker.begin desk ⟨.push "ghcr.io/app:v1" (⟨"ci", "winter"⟩ : Credentials).header, false⟩ =
        .ok ⟨⟨"docker", ["--config", "/tmp/conformance-images-auth", "push", "ghcr.io/app:v1"]⟩,
          some d⟩ ∧
      docker.begin desk ⟨.push "ghcr.io/app:v1" "", false⟩ =
        .ok ⟨⟨"docker", ["push", "ghcr.io/app:v1"]⟩, none⟩ ∧
      d.configuration.lookup "credsStore" = none ∧
      d.configuration.lookup "currentContext" = some (.string "ci") ∧
      Json.Value.parse (Text.Utf8.encode d.text) = some (.object d.configuration) ∧
      ∃ kept, Authorization.objectAt? "credHelpers" d.configuration = some kept ∧
        kept.lookup "ghcr.io" = none := by
  have hnamed : (⟨"ci", "winter"⟩ : Credentials).username ≠ "" := by decide
  have hbare : Bare "" := .inl rfl
  obtain ⟨hconfigured, hpush⟩ := push_configuration desk "ghcr.io/app:v1" ⟨"ci", "winter"⟩ false
  have hlaunch (header : String) :
      docker.launch desk ⟨.push "ghcr.io/app:v1" header, false⟩ = .ok () := rfl
  obtain ⟨fields, horiginal, hedited, -, hread⟩ :=
    hconfigured desk.files (some "/home/.docker") "ghcr.io"
  obtain rfl : fields = deskFields := Authorization.original_iff.1 horiginal
  obtain ⟨kept, hkept, hlookup⟩ := hedited.helpers
  have hregistry : Authorization.RegistryOf "ghcr.io/app:v1" "ghcr.io" :=
    Authorization.registryOf_iff.2 rfl
  have hauthorized : AuthorizedPush desk.environment "/tmp/conformance-images-auth" "ghcr.io/app:v1"
      docker (some "/home/.docker")
      ⟨"docker", ["--config", "/tmp/conformance-images-auth", "push", "ghcr.io/app:v1"]⟩ :=
    authorizedPush_iff.2 ⟨rfl, rfl⟩
  exact ⟨hnamed, hbare, docker.pushDirectory desk "ghcr.io/app:v1" ⟨"ci", "winter"⟩,
    (hpush docker _).1.2 ⟨hlaunch _, _, _, _, "ghcr.io", rfl, hauthorized, hregistry, rfl, rfl⟩,
    ((hpush docker _).2 "" hbare).2 ⟨hlaunch "", rfl⟩, hedited.store,
    hedited.rest "currentContext" (by decide) (by decide) (by decide),
    hread deskFields_proper,
    kept, hkept, (hlookup "ghcr.io").trans (if_pos rfl)⟩

end Container

end ImageRelay
