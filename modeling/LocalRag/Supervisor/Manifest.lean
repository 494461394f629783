import LocalRag.Supervisor.Controller
import LocalRag.Supervisor.Firewall
import LocalRag.Supervisor.Order
import LocalRag.Supervisor.RestartBudget
import LocalRag.Supervisor.WindowsPath

/-!
# The deployment manifest — from a JSON object to the services of a host

`DeploymentManifest.from_dict` of `apps/supervisor/manifest.py`, and what it calls:
`_parse_service`, `_validate_listeners`, `_validate_dependencies`, `_state_config` and the
small readers of a field.

The body is one chain of checks, and each stage of it is a function here: the
header, the services, the settings. A service is read in two steps, because what is
read of its URL may raise what the loader does not: `serviceDraft` is everything in front of
`urlsplit`, and `parseService` the rest.

Mirroring notes.
* `LoadFault.type` is the `TypeError` of a value without a hash, `LoadFault.value` a
  `ValueError` that is no `ManifestError`.
* `listen_host` and `listen_port` are set together or not at all, and are one field here. A
  number that is checked against two bounds carries the check with it.
* The `state` of a state configuration says whether there is a value, so it is left out.
* `str.lower` and its like are those of `Unicode`, an argument of all.
-/

namespace LocalRag.Deployment

open LocalRag.Core
open Supervisor (RestartPolicy Url WindowsPath validateDependencies fieldOf sameSet after
  before)
open Transfer (fieldsAre)

/-- The functions of `str` and `unicodedata` that the loader calls. -/
structure Unicode where
  lower : String → String
  upper : String → String
  casefold : String → String
  nfkc : String → String

/-- What `from_dict` raises. -/
inductive LoadFault where
  /-- `ManifestError`. -/
  | manifest (message : String)
  /-- `TypeError`. -/
  | type
  /-- `ValueError`, and no `ManifestError`. -/
  | value
deriving Repr, DecidableEq

abbrev Load := Except LoadFault

/-- A `ManifestError`. -/
def LoadFault.IsManifest (e : LoadFault) : Prop := ∃ message, e = .manifest message

/-- `raise ManifestError(message)`. -/
def refuse {α : Type} (message : String) : Load α := .error (.manifest message)

/-- `if not ok: raise ManifestError(message)`. -/
def require (ok : Bool) (message : String) : Load Unit := if ok then .ok () else refuse message

abbrev Members := List (String × Json)

/-! ## The readers of a field -/

/-- A number between two bounds. -/
abbrev Bounded (low high : Nat) := {n : Nat // low ≤ n ∧ n ≤ high}

theorem bounded_toNat {low high : Nat} {n : Int} (h : (low : Int) ≤ n ∧ n ≤ high) :
    low ≤ n.toNat ∧ n.toNat ≤ high := by omega

/-- `isinstance(value, int)`, no `bool`, and between the bounds. -/
def boundedInt (low high : Nat) (message : String) : Json → Load (Bounded low high)
  | .int n =>
    if h : (low : Int) ≤ n ∧ n ≤ high then .ok ⟨n.toNat, bounded_toNat h⟩ else refuse message
  | _ => refuse message

/-- `isinstance(value, dict)`. -/
def objectOf (message : String) : Json → Load Members
  | .obj members => .ok members
  | _ => refuse message

/-- `_require_exact_keys`. -/
def requireExactKeys (members : Members) (keys : List String) (label : String) : Load Unit :=
  require (fieldsAre members keys) s!"{label} fields are invalid"

/-- An object with exactly these keys. -/
def exactObject (label : String) (keys : List String) (value : Json) : Load Members := do
  let members ← objectOf s!"{label} must be an object" value
  requireExactKeys members keys label
  .ok members

/-- `_required_string`. -/
def requiredString (label : String) : Json → Load String
  | .str s => if strip s = "" then refuse s!"{label} must be a nonempty string" else .ok s
  | _ => refuse s!"{label} must be a nonempty string"

/-- `_optional_string`. -/
def optionalString (label : String) : Json → Load (Option String)
  | .null => .ok none
  | value => (requiredString label value).map some

/-- `_optional_string`, and `None` is refused behind it. -/
def presentString (label : String) (value : Json) : Load String := do
  match ← optionalString label value with
  | none => refuse s!"{label} is required"
  | some s => .ok s

/-- A digest in hexadecimal digits, of this length. -/
def isDigest (length : Nat) (s : String) : Bool :=
  s.toList.length = length ∧ s.toList.all (· ∈ "0123456789abcdef".toList)

/-- `_optional_sha256` and `_optional_sha512`. -/
def optionalDigest (u : Unicode) (length : Nat) (kind label : String) :
    Json → Load (Option String)
  | .null => .ok none
  | value => do
    let s ← requiredString label value
    require (isDigest length (u.lower s)) s!"{label} must be a lowercase {kind} digest"
    .ok (some (u.lower s))

def optionalSha256 (u : Unicode) : String → Json → Load (Option String) :=
  optionalDigest u 64 "SHA-256"

def optionalSha512 (u : Unicode) : String → Json → Load (Option String) :=
  optionalDigest u 128 "SHA-512"

def nonemptyString (message : String) : Json → Load String
  | .str s => if s = "" then refuse message else .ok s
  | _ => refuse message

/-- `_string_array`. -/
def stringArray (label : String) : Json → Load (List String)
  | .arr items => items.mapM (nonemptyString s!"{label} must be an array of nonempty strings")
  | _ => refuse s!"{label} must be an array of nonempty strings"

/-- The value has a hash. -/
def hashable : Json → Bool
  | .arr _ => false
  | .obj _ => false
  | _ => true

/-- `if value not in words: raise ManifestError(message)`, of a set: the value is hashed. -/
def choice {α : Type} (words : List (String × α)) (message : String) : Json → Load α
  | .arr _ => .error .type
  | .obj _ => .error .type
  | .str s =>
    match words.lookup s with
    | some a => .ok a
    | none => refuse message
  | _ => refuse message

/-! ## A service -/

inductive Profile where
  | teamLan
  | teamLanPreviewUnsigned
deriving Repr, DecidableEq

def Profile.value : Profile → String
  | .teamLan => "team_lan"
  | .teamLanPreviewUnsigned => "team_lan_preview_unsigned"

def loopbackHosts : List String := ["127.0.0.1", "::1", "localhost"]

/-- `listen_host` and `listen_port`. -/
structure Listen where
  host : String
  port : Bounded 1 65535
deriving DecidableEq

structure Service where
  name : String
  executable : String
  arguments : List String
  workingDirectory : String
  identity : String
  listen : Option Listen
  dependencies : List String
  environmentFile : String
  identitySecretFile : String
  environmentKeys : List String
  readinessUrl : Option String
  readinessTokenEnvironment : Option String
  readinessTimeoutSeconds : Bounded 1 300

/-- `SERVICE_IDENTITY_PATTERN`. -/
def isServiceIdentity (s : String) : Bool :=
  let account := s.toList.drop 5
  s.toList.take 5 = ".\\Rag".toList ∧ account.all Char.isAlphanum ∧ 4 ≤ account.length ∧
    account.rtake 3 = "Svc".toList

/-- `ENVIRONMENT_NAME_PATTERN`. -/
def isEnvironmentName (s : String) : Bool :=
  s.toList.head?.any Char.isUpper ∧ s.toList.length ≤ 128 ∧
    s.toList.all fun c => c.isUpper ∨ c.isDigit ∨ c = '_'

/-- The work path of Caddy, as the profile asks for it. -/
def isReleaseStage (u : Unicode) (profile : Profile) (work : WindowsPath) : Bool :=
  match profile with
  | .teamLan =>
    (work.parts.any fun part => u.casefold (String.ofList part) = "signed-stage") ∧
      "release-".toList <+: work.name
  | .teamLanPreviewUnsigned =>
    work.same u.lower (WindowsPath.parse "C:\\Program Files\\LocalRAG\\current".toList)

/-- Caddy and its configuration, side by side in the release. -/
def isCaddyProgram (u : Unicode) (profile : Profile) (executable workingDirectory : String)
    (arguments : List String) : Bool :=
  let path := WindowsPath.parse executable.toList
  let work := WindowsPath.parse workingDirectory.toList
  let config := WindowsPath.parse
    (WindowsPath.join workingDirectory.toList "Caddyfile".toList)
  u.casefold (String.ofList path.name) = "caddy.exe" ∧ path.parent.same u.lower work ∧
    isReleaseStage u profile work ∧ arguments = ["run", "--config", String.ofList config.str]

def serviceKeys : List String :=
  ["name", "executable", "arguments", "working_directory", "identity", "listen_host",
    "listen_port", "dependencies", "environment_file", "identity_secret_file",
    "environment_keys", "readiness"]

/-- `name` to `arguments`. -/
structure Program where
  name : String
  executable : String
  workingDirectory : String
  identity : String
  arguments : List String

def serviceProgram (u : Unicode) (profile : Profile) (members : Members) : Load Program := do
  let name ← requiredString "service.name" (fieldOf members "name")
  let executable ← requiredString s!"{name}.executable" (fieldOf members "executable")
  let workingDirectory ← requiredString s!"{name}.working_directory"
    (fieldOf members "working_directory")
  let identity ← requiredString s!"{name}.identity" (fieldOf members "identity")
  require (¬ "NT SERVICE\\".toList <+: (u.upper identity).toList)
    (s!"{name}.identity cannot claim an NT SERVICE identity because the " ++
      "supervisor launches children with explicit user tokens")
  require (isServiceIdentity identity) s!"{name}.identity must be a dedicated local Rag*Svc account"
  let arguments ← stringArray s!"{name}.arguments" (fieldOf members "arguments")
  require (name = "caddy" → isCaddyProgram u profile executable workingDirectory arguments)
    ("Caddy executable and config must be co-located in the profile's " ++
      "immutable release stage")
  .ok ⟨name, executable, workingDirectory, identity, arguments⟩

/-- `dependencies` to `environment_keys`. -/
structure Environment where
  dependencies : List String
  environmentFile : String
  identitySecretFile : String
  environmentKeys : List String

def serviceEnvironment (name : String) (members : Members) : Load Environment := do
  let dependencies ← stringArray s!"{name}.dependencies" (fieldOf members "dependencies")
  let environmentFile ← presentString s!"{name}.environment_file"
    (fieldOf members "environment_file")
  let identitySecretFile ← presentString s!"{name}.identity_secret_file"
    (fieldOf members "identity_secret_file")
  let environmentKeys ← stringArray s!"{name}.environment_keys"
    (fieldOf members "environment_keys")
  require (environmentKeys.Nodup ∧ environmentKeys.all isEnvironmentName ∧
    "RAG_WINDOWS_ACCOUNT_PASSWORD" ∉ environmentKeys) s!"{name}.environment_keys are invalid"
  .ok ⟨dependencies, environmentFile, identitySecretFile, environmentKeys⟩

/-- `readiness`, before its URL is taken apart. -/
structure Readiness where
  url : Option String
  token : Option String
  timeout : Bounded 1 300

def serviceReadiness (name : String) (environmentKeys : List String) (members : Members) :
    Load Readiness := do
  let readiness ← exactObject s!"{name}.readiness" ["url", "token_environment", "timeout_seconds"]
    (fieldOf members "readiness")
  let url ← optionalString s!"{name}.readiness.url" (fieldOf readiness "url")
  let token ← optionalString s!"{name}.readiness.token_environment"
    (fieldOf readiness "token_environment")
  require (token.all (· ∈ environmentKeys))
    s!"{name}.readiness.token_environment must be an allowed environment key"
  let timeout ← boundedInt 1 300 s!"{name}.readiness.timeout_seconds is invalid"
    (fieldOf readiness "timeout_seconds")
  .ok ⟨url, token, timeout⟩

/-- What is known of a service when `urlsplit` is called. -/
structure Draft where
  members : Members
  program : Program
  environment : Environment
  readiness : Readiness

def serviceDraft (u : Unicode) (profile : Profile) (value : Json) : Load Draft := do
  let members ← objectOf "each service must be an object" value
  requireExactKeys members serviceKeys "service"
  let program ← serviceProgram u profile members
  let environment ← serviceEnvironment program.name members
  let readiness ← serviceReadiness program.name environment.environmentKeys members
  .ok ⟨members, program, environment, readiness⟩

/-- A URL of this machine, with neither a user nor a fragment. -/
def isLoopbackHttp (u : Unicode) (url : Url) : Bool :=
  (url.scheme = "http".toList ∨ url.scheme = "https".toList) ∧
    (url.hostname u.lower).any (· ∈ loopbackHosts) ∧ ¬ url.hasUser ∧ url.fragment = []

/-- `urlsplit`, and the check of its result. -/
def readinessParsed (u : Unicode) (name : String) : Option String → Load (Option Url)
  | none => .ok none
  | some text =>
    match Url.urlsplit u.nfkc text with
    | none => .error .value
    | some url =>
      if isLoopbackHttp u url then .ok (some url)
      else refuse s!"{name}.readiness.url must be a loopback HTTP URL"

def isNull : Json → Bool
  | .null => true
  | _ => false

def serviceListen (name : String) (members : Members) : Load (Option Listen) :=
  let host := fieldOf members "listen_host"
  let port := fieldOf members "listen_port"
  if isNull host ≠ isNull port then
    refuse s!"{name} listener host and port must be set together"
  else if isNull host then .ok none
  else do
    let host ← requiredString s!"{name}.listen_host" host
    let port ← boundedInt 1 65535 s!"{name}.listen_port is invalid" port
    .ok (some ⟨host, port⟩)

/-- `443 if scheme == "https" else 80`. -/
def defaultPort (url : Url) : Nat := if url.scheme = "https".toList then 443 else 80

/-- `port or default`: a port that is zero counts as none. -/
def portOr (explicit : Option Nat) (default : Nat) : Nat :=
  if explicit.getD 0 = 0 then default else explicit.getD 0

/-- The URL against the listener; the port is read when the hosts agree. -/
def checkReadiness (u : Unicode) (name : String) : Option Url → Option Listen → Load Unit
  | none, _ => .ok ()
  | some _, none => refuse s!"{name}.readiness.url must match the declared loopback listener"
  | some url, some listen =>
    if url.hostname u.lower ≠ some listen.host then
      refuse s!"{name}.readiness.url must match the declared loopback listener"
    else
      match url.port with
      | none => .error .value
      | some explicit =>
        require (portOr explicit (defaultPort url) = listen.port.val)
          s!"{name}.readiness.url must match the declared loopback listener"

/-- `_parse_service`. -/
def parseService (u : Unicode) (profile : Profile) (value : Json) : Load Service := do
  let draft ← serviceDraft u profile value
  let url ← readinessParsed u draft.program.name draft.readiness.url
  let listen ← serviceListen draft.program.name draft.members
  checkReadiness u draft.program.name url listen
  .ok {
    name := draft.program.name
    executable := draft.program.executable
    arguments := draft.program.arguments
    workingDirectory := draft.program.workingDirectory
    identity := draft.program.identity
    listen := listen
    dependencies := draft.environment.dependencies
    environmentFile := draft.environment.environmentFile
    identitySecretFile := draft.environment.identitySecretFile
    environmentKeys := draft.environment.environmentKeys
    readinessUrl := draft.readiness.url
    readinessTokenEnvironment := draft.readiness.token
    readinessTimeoutSeconds := draft.readiness.timeout }

/-! ## The services -/

def requiredServices : List String :=
  ["caddy", "web", "api", "ingestion", "deletion", "inference", "ocr"]

/-- A literal address of this machine. -/
def isLoopbackAddress (host : String) : Bool :=
  (IpAddress.parse host.toList).any IpAddress.isLoopback

/-- One turn of `_validate_listeners`. -/
def checkListener (s : Service) : Load Unit :=
  if s.name = "caddy" then
    require (s.listen.any fun listen => listen.host = "0.0.0.0" ∧ listen.port.val = 443)
      "Caddy must be the sole LAN listener on TCP 443"
  else
    match s.listen with
    | none => .ok ()
    | some listen => do
      -- the error of an address that is no loopback address is a `ValueError`, and is caught too
      require (listen.host ∈ loopbackHosts ∨ isLoopbackAddress listen.host)
        s!"{s.name} listen_host must be a literal loopback address"
      require (listen.port.val ≠ 443) "only Caddy may listen on TCP 443"

/-- `_validate_listeners`. -/
def validateListeners (services : List Service) : Load Unit := services.forM checkListener

def parseServices (u : Unicode) (profile : Profile) : Json → Load (List Service)
  | .arr items => items.mapM (parseService u profile)
  | _ => refuse "services must be an array"

/-- The services of the manifest. -/
def readServices (u : Unicode) (profile : Profile) (value : Json) : Load (List Service) := do
  let services ← parseServices u profile value
  let names := services.map (·.name)
  require names.Nodup "service names must be unique"
  require (sameSet names requiredServices)
    ("services must contain exactly caddy, web, api, ingestion, " ++
      "deletion, inference, and ocr")
  validateListeners services
  (validateDependencies (services.map fun s => ⟨s.name, s.dependencies⟩)).mapError .manifest
  .ok services

/-! ## The settings -/

theorem window_pos (window : Bounded 60 3600) : 0 < window.val := by
  have h := window.property.1
  omega

/-- `backoff_seconds`. -/
def backoffSeconds : Json → Load (List (Bounded 1 300))
  | .arr items =>
    items.mapM (boundedInt 1 300 "backoff_seconds must contain integers from 1 to 300")
  | _ => refuse "backoff_seconds must contain integers from 1 to 300"

theorem backoff_ne {backoff : List (Bounded 1 300)} (h : backoff ≠ []) :
    backoff.map Subtype.val ≠ [] :=
  fun hnil => h (List.map_eq_nil_iff.mp hnil)

def readRestartPolicy (members : Members) : Load RestartPolicy := do
  let policy ← exactObject "restart_policy"
    ["maximum_restarts", "window_seconds", "backoff_seconds"] (fieldOf members "restart_policy")
  let maximum ← boundedInt 1 10 "maximum_restarts must be an integer from 1 to 10"
    (fieldOf policy "maximum_restarts")
  let window ← boundedInt 60 3600 "window_seconds must be an integer from 60 to 3600"
    (fieldOf policy "window_seconds")
  let backoff ← backoffSeconds (fieldOf policy "backoff_seconds")
  if h : backoff ≠ [] then
    .ok ⟨maximum.val, window.val, backoff.map Subtype.val, maximum.property.1, window_pos window,
      backoff_ne h⟩
  else refuse "backoff_seconds must contain integers from 1 to 300"

def stateWords : List (String × Bool) := [("not_configured", false), ("configured", true)]

/-- The value of a state configuration, by its key. -/
def configuredValue (u : Unicode) (keyName label : String) : Json → Load (Option String)
  | .null => .ok none
  | value =>
    if "sha256".toList <:+ keyName.toList then optionalSha256 u label value
    else (requiredString label value).map some

/-- `_state_config`: the value, if it is configured. -/
def stateConfig (u : Unicode) (label keyName : String) (value : Json) : Load (Option String) := do
  let members ← exactObject label ["state", keyName] value
  let configured ← choice stateWords s!"{label}.state is invalid" (fieldOf members "state")
  let value ← configuredValue u keyName s!"{label}.{keyName}" (fieldOf members keyName)
  require (configured = value.isSome) s!"{label} state does not match {keyName}"
  .ok value

def readBackup (u : Unicode) (members : Members) : Load (Option String) := do
  let destination ← stateConfig u "backup" "destination" (fieldOf members "backup")
  require destination.isNone "production backup must remain not_configured without a destination"
  .ok destination

def readUpdates (u : Unicode) (members : Members) : Load (Option String) :=
  stateConfig u "updates" "public_key_sha256" (fieldOf members "updates")

/-- `CADDY_VERSION`. -/
def caddyVersion : String := "2.11.3"

/-- `CADDY_EXECUTABLE_SHA256`. -/
def caddyExecutableSha256 : String :=
  "67514bc0449ae9b1465cf3d59ab269cb451e8ed88d991e461b24d1337b67f536"

/-- `CADDY_ARCHIVE_SHA512`. -/
def caddyArchiveSha512 : String :=
  "338f5557a1554677875b79dbc4b10d008781111ad29223811e64217936fa5d586" ++
    "02ddd54724ef1cb1473b7ec07805cf5286d6aa1e810febde7e36daf497d791f"

structure Caddy where
  version : Option String
  archiveSha512 : Option String
  executableSha256 : Option String

def readCaddy (u : Unicode) (members : Members) : Load Caddy := do
  let caddy ← exactObject "caddy" ["version", "archive_sha512", "executable_sha256"]
    (fieldOf members "caddy")
  let version ← optionalString "caddy.version" (fieldOf caddy "version")
  let archive ← optionalSha512 u "caddy.archive_sha512" (fieldOf caddy "archive_sha512")
  let executable ← optionalSha256 u "caddy.executable_sha256" (fieldOf caddy "executable_sha256")
  require (version = some caddyVersion ∧ archive = some caddyArchiveSha512 ∧
    executable = some caddyExecutableSha256)
    (s!"Caddy must pin version {caddyVersion} and its approved " ++ "SHA-256 together")
  .ok ⟨version, archive, executable⟩

inductive DeploymentState where
  | installable
  | installed
deriving Repr, DecidableEq

def deploymentStates : List (String × DeploymentState) :=
  [("installable", .installable), ("installed", .installed)]

def requiredChecks (profile : Profile) : List String :=
  let checks := ["elevated_installer", "dependency_evidence", "signed_release_chain",
    "caddy_artifact_hash", "openssl_artifact_hash", "service_accounts_and_acls",
    "private_ca_and_leaf_certificates", "certificate_semantics_and_renewal", "firewall_rule",
    "ocr_outbound_firewall", "rag_supervisor_service", "full_graph_network_evidence"]
  match profile with
  | .teamLan => checks
  | .teamLanPreviewUnsigned =>
    checks.filter (· ≠ "signed_release_chain") ++
      ["unsigned_inventory", "preview_profile_isolation", "rfc1918_ipv4"]

structure DeploymentReadiness where
  state : DeploymentState
  blockers : List String
  prerequisiteChecks : List String

def readReadiness (profile : Profile) (members : Members) : Load DeploymentReadiness := do
  let readiness ← exactObject "deployment_readiness" ["state", "blockers", "prerequisite_checks"]
    (fieldOf members "deployment_readiness")
  let state ← choice deploymentStates "deployment readiness must be installable or installed"
    (fieldOf readiness "state")
  let blockers ← stringArray "deployment_readiness.blockers" (fieldOf readiness "blockers")
  let checks ← stringArray "deployment_readiness.prerequisite_checks"
    (fieldOf readiness "prerequisite_checks")
  require (sameSet checks (requiredChecks profile)) "deployment prerequisite checks are incomplete"
  require (state = .installable → blockers = [])
    "installable deployment cannot contain stale blockers"
  require (state = .installed → blockers = []) "installed deployment cannot contain blockers"
  .ok ⟨state, blockers, checks⟩

/-- `restart_policy` to `deployment_readiness`. -/
structure Settings where
  restartPolicy : RestartPolicy
  backupDestination : Option String
  updatePublicKeySha256 : Option String
  caddy : Caddy
  readiness : DeploymentReadiness

def readSettings (u : Unicode) (profile : Profile) (members : Members) : Load Settings := do
  let policy ← readRestartPolicy members
  let backup ← readBackup u members
  let updates ← readUpdates u members
  let caddy ← readCaddy u members
  let readiness ← readReadiness profile members
  .ok ⟨policy, backup, updates, caddy, readiness⟩

/-! ## The manifest -/

/-- The value of a decimal literal is one that rounds to two. -/
def roundsToTwo (literal : List Char) : Bool :=
  let isMark := fun c => decide (c = 'e' ∨ c = 'E')
  let number := literal.takeWhile (¬ isMark ·)
  let mark := (literal.dropWhile (¬ isMark ·)).tail
  let digits := before '.' number ++ after '.' number
  let exponent := Nat.ofDigitChars 10 (mark.filter Char.isDigit) 0
  let up := if mark.head? = some '-' then 0 else exponent
  let down := (after '.' number).length + if mark.head? = some '-' then exponent else 0
  let value := Nat.ofDigitChars 10 digits 0
  -- the neighbours of 2.0 are 2 - 2⁻⁵² and 2 + 2⁻⁵¹, and a tie goes to it
  digits.all Char.isDigit ∧ (2 ^ 54 - 1) * 10 ^ down ≤ 2 ^ 53 * value * 10 ^ up ∧
    2 ^ 53 * value * 10 ^ up ≤ (2 ^ 54 + 2) * 10 ^ down

/-- `value == 2`. -/
def isTwo : Json → Bool
  | .int n => n = 2
  | .float literal => roundsToTwo literal
  | _ => false

/-- `value == text`. -/
def isText (text : String) : Json → Bool
  | .str s => s = text
  | _ => false

/-- `DEPLOYMENT_ID_PATTERN`. -/
def isDeploymentId (s : String) : Bool :=
  s.toList.head?.any Char.isAlphanum ∧ s.toList.length ≤ 64 ∧
    s.toList.all fun c => c.isAlphanum ∨ c ∈ ['_', '.', '-']

/-- `allowed_keys`. -/
def allowedKeys (members : Members) : List String :=
  ["schema_version", "deployment_id", "canonical_host", "firewall_profile", "services",
    "restart_policy", "backup", "updates", "caddy", "deployment_readiness"] ++
    if (Json.get members "product_profile").isSome then ["product_profile"] else []

/-- `value.get("product_profile", "team_lan")`. -/
def productProfile (members : Members) : Json :=
  (Json.get members "product_profile").getD (.str Profile.teamLan.value)

def profileWords : List (String × Profile) :=
  [(Profile.teamLan.value, .teamLan),
    (Profile.teamLanPreviewUnsigned.value, .teamLanPreviewUnsigned)]

/-- `product_profile` and `deployment_id`; the other fields of the header are fixed. -/
structure Header where
  profile : Profile
  deploymentId : String

def readHeader (members : Members) : Load Header := do
  requireExactKeys members (allowedKeys members) "deployment manifest"
  let profile ← choice profileWords
    "product_profile must be team_lan or team_lan_preview_unsigned" (productProfile members)
  require (isTwo (fieldOf members "schema_version")) "schema_version must be 2"
  require (isText "rag.home.arpa" (fieldOf members "canonical_host"))
    "canonical_host must be rag.home.arpa"
  require (isText "Private" (fieldOf members "firewall_profile"))
    "only the Private firewall profile is permitted"
  let deploymentId ← requiredString "deployment_id" (fieldOf members "deployment_id")
  require (isDeploymentId deploymentId) "deployment_id is unsafe for Windows global objects"
  .ok ⟨profile, deploymentId⟩

structure DeploymentManifest where
  schemaVersion : Nat
  deploymentId : String
  canonicalHost : String
  firewallProfile : String
  services : List Service
  settings : Settings
  productProfile : Profile

/-- `DeploymentManifest.from_dict`. -/
def fromDict (u : Unicode) (members : Members) : Load DeploymentManifest := do
  let header ← readHeader members
  let services ← readServices u header.profile (fieldOf members "services")
  let settings ← readSettings u header.profile members
  .ok ⟨2, header.deploymentId, "rag.home.arpa", "Private", services, settings, header.profile⟩

end LocalRag.Deployment
