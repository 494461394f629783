import LocalRag.Admin.Backups

/-!
# The configuration ledger — one effective revision, one change at a time

Mirrors the runtime configuration functions of `0009_runtime_configuration`, with the
preview as `0012_dynamic_ocr_tuning` and the application as `0014_restart_without_backup` replace
it. An administrator previews a configuration, proves their password for its digest, and
applies it: a new revision and a pending change from the effective one to it. The controller
claims the change and finishes it, and only a change that finishes `effective` moves
the effective flag.

`Ledger` keeps beside the tables what they do not say: the revisions that became effective and the
applications, newest first. `LedgerInv` is what every call keeps. The one active change starts
from the effective revision because nothing but its own end can move the flag, and a preview or a
grant is consumed at most once because its row says so in the transaction that
locks it. `call_writes` says once which of five things a successful call writes.

Mirroring notes.
* Every call is one step: each function locks the rows it decides by, and the unique index on
  active changes orders the applications.
* `caller` is what `v4_require_admin` and the session lookup give.
* `sha256` is the digest of a text; it is hexadecimal, and nothing else is used of it.
* The id of a revision is made from the id of its change, so `RevisionId` is that id, or the
  one the migration inserts, or any other text a caller sends.
* SQL's NULL reaches no column but `reason_code`: every other argument is compared with
  a column that is NOT NULL or is written to one, which aborts the call. Audit rows and the
  sessions' reauthentication times are left out.
-/

namespace LocalRag.Admin

open LocalRag.Core

abbrev ChangeId := Nat

inductive RevisionId where
  /-- `v8d-baseline-0001`. -/
  | baseline
  /-- `'v8d-' || replace(change_id::text, '-', '')`. -/
  | ofChange (id : ChangeId)
  | other (text : String)
deriving Repr, DecidableEq

structure Configuration where
  generationProfileId : String
  rerankerProfileId : String
  ocrMode : String
  ocrProfileId : String
  ocrPresetId : String
deriving Repr, DecidableEq

/-- `runtime_configuration_revisions`. -/
structure ConfigurationRevision where
  id : RevisionId
  configuration : Configuration
  createdBy : Option UserId
  effective : Bool
deriving Repr, DecidableEq

/-- `runtime_configuration_previews`. -/
structure ConfigurationPreview where
  id : PreviewId
  actorUserId : UserId
  sessionId : SessionId
  baseRevisionId : RevisionId
  configuration : Configuration
  impactDigest : HexText
  operationClass : String
  expiresAt : Time
  consumedAt : Option Time
deriving Repr, DecidableEq

/-- `system_reauthentication_grants`, unique by `token_hash`. -/
structure ReauthenticationGrant where
  actorUserId : UserId
  sessionId : SessionId
  action : String
  impactDigest : HexText
  tokenHash : HexText
  expiresAt : Time
  consumedAt : Option Time
deriving Repr, DecidableEq

inductive ChangeState where
  | pending | applying | effective | failed | rolledBack | cancelled
deriving Repr, DecidableEq

/-- `state IN ('pending','applying')`. -/
def ChangeState.isActive : ChangeState → Bool
  | .pending | .applying => true
  | _ => false

inductive ChangeStage where
  | queued | preflight | backingUp | draining | applying | restarting | validating | effective
  | failed | rollingBack | rolledBack | cancelled
deriving Repr, DecidableEq

/-- `runtime_configuration_changes`. -/
structure ConfigurationChange where
  id : ChangeId
  actorUserId : UserId
  priorRevisionId : RevisionId
  desiredRevisionId : RevisionId
  previewId : PreviewId
  impactDigest : HexText
  operationClass : String
  state : ChangeState
  stage : ChangeStage
  controllerNonceHash : HexText
  reasonCode : Option String
deriving Repr, DecidableEq

structure ConfigurationDb where
  revisions : List ConfigurationRevision
  previews : List ConfigurationPreview
  grants : List ReauthenticationGrant
  changes : List ConfigurationChange
deriving Repr, DecidableEq

/-- The row the migration inserts. -/
def baselineRevision : ConfigurationRevision where
  id := .baseline
  configuration := ⟨"generation.qwen3-8b.ollama.windows-x64",
    "reranking.bge-v2-m3.cpu.windows-x64", "auto", "ocr.paddleocr-vl-1.6.cpu.windows-x64",
    "balanced"⟩
  createdBy := none
  effective := true

def ConfigurationDb.initial : ConfigurationDb := ⟨[baselineRevision], [], [], []⟩

/-! ## Preview and grant -/

/-- A `SELECT … INTO STRICT` that found several rows. -/
def tooManyRows : SqlError := ⟨"P0003", "query returned more than one row"⟩

/-- `SELECT … INTO STRICT … WHERE effective`. -/
def effectiveRevision (db : ConfigurationDb) : Except SqlError ConfigurationRevision :=
  match db.revisions.filter (·.effective) with
  | [] => .error noDataFound
  | [r] => .ok r
  | _ => .error tooManyRows

/-- `p ~ '^ocr\.[a-z0-9][a-z0-9._-]{2,91}$'`. -/
def isOcrProfile (profile : String) : Bool :=
  "ocr.".toList.isPrefixOf profile.toList ∧ 7 ≤ profile.toList.length ∧
    profile.toList.length ≤ 96 ∧ (profile.toList.drop 4).head?.any isLowerAlnum ∧
    (profile.toList.drop 5).all fun c => isLowerAlnum c ∨ c = '.' ∨ c = '_' ∨ c = '-'

/-- `balanced`, or a manual preset of 1 to 256 threads and 1 to 16 pages. -/
def isOcrPreset (preset : String) : Bool :=
  preset = "balanced" ∨
    (List.range 256).any fun t => (List.range 16).any fun p =>
      preset = "manual-t" ++ toString (t + 1) ++ "-p" ++ toString (p + 1)

/-- No profile of the configuration is unavailable. -/
def Configuration.available (c : Configuration) : Bool :=
  c.generationProfileId = "generation.qwen3-8b.ollama.windows-x64" ∧
    c.rerankerProfileId = "reranking.bge-v2-m3.cpu.windows-x64" ∧
    isOcrProfile c.ocrProfileId ∧ isOcrPreset c.ocrPresetId ∧
    (c.ocrMode = "auto" ∨ c.ocrMode = "explicit")

def RevisionId.text : RevisionId → String
  | .baseline => "v8d-baseline-0001"
  | .ofChange id => "v8d-" ++ toString id
  | .other text => text

variable (sha256 : String → Nat)

/-- `encode(digest(concat_ws('|', …), 'sha256'), 'hex')`. -/
def impactDigest (base : RevisionId) (c : Configuration) : HexText :=
  .digest (sha256 ("|".intercalate [base.text, c.generationProfileId, c.rerankerProfileId,
    c.ocrMode, c.ocrProfileId, c.ocrPresetId, "restart_scoped"]))

/-- `v9_admin_preview_runtime_configuration`. -/
def v9AdminPreviewRuntimeConfiguration (db : ConfigurationDb)
    (caller : Except SqlError (UserId × SessionId)) (previewId : PreviewId) (base : RevisionId)
    (configuration : Configuration) (now : Time) : Except SqlError ConfigurationDb :=
  match caller with
  | .error e => .error e
  | .ok (actor, session) =>
    match effectiveRevision db with
    | .error e => .error e
    | .ok current =>
      if base ≠ current.id then .error ⟨"40001", "runtime configuration preview is stale"⟩
      else if ¬ configuration.available then
        .error ⟨"22023", "runtime configuration contains an unavailable profile"⟩
      else if configuration = current.configuration then
        .error ⟨"22023", "runtime configuration has no changes"⟩
      else if db.previews.any fun p => p.id = previewId then
        .error (uniqueViolation "runtime_configuration_previews_pkey")
      else
        .ok { db with previews := db.previews ++ [{
          id := previewId
          actorUserId := actor
          sessionId := session
          baseRevisionId := base
          configuration := configuration
          impactDigest := impactDigest sha256 base configuration
          operationClass := "restart_scoped"
          expiresAt := now + 5 * minute
          consumedAt := none }] }

/-- `v9_admin_issue_reauthentication_grant`. -/
def v9AdminIssueReauthenticationGrant (db : ConfigurationDb)
    (caller : Except SqlError (UserId × SessionId)) (previewId : PreviewId) (action : String)
    (digest tokenHash : HexText) (now : Time) : Except SqlError ConfigurationDb :=
  match caller with
  | .error e => .error e
  | .ok (actor, session) =>
    if action ≠ "apply_runtime_configuration" ∨ ¬ digest.wellFormed ∨ ¬ tokenHash.wellFormed then
      .error ⟨"22023", "invalid reauthentication grant"⟩
    else if ¬ db.previews.any fun p => p.id = previewId ∧ p.actorUserId = actor ∧
        p.sessionId = session ∧ p.impactDigest = digest ∧ p.consumedAt = none ∧
        now < p.expiresAt then
      .error ⟨"40001", "runtime configuration preview is stale"⟩
    else if db.grants.any fun g => g.tokenHash = tokenHash then
      .error (uniqueViolation "system_reauthentication_grants_token_hash_key")
    else
      .ok { db with grants := db.grants ++ [{
        actorUserId := actor
        sessionId := session
        action := action
        impactDigest := digest
        tokenHash := tokenHash
        expiresAt := now + 5 * minute
        consumedAt := none }] }

/-! ## Application -/

/-- `a runtime configuration change is already active`: what the handler makes of a
`unique_violation`. -/
def alreadyActive : SqlError := ⟨"40001", "a runtime configuration change is already active"⟩

/-- The preview is this caller's, with this digest, unspent, and over the effective revision. -/
def ConfigurationPreview.usable (p : ConfigurationPreview) (actor : UserId) (session : SessionId)
    (digest : HexText) (current : RevisionId) (now : Time) : Bool :=
  p.actorUserId = actor ∧ p.sessionId = session ∧ p.consumedAt = none ∧ now < p.expiresAt ∧
    p.impactDigest = digest ∧ p.baseRevisionId = current ∧ p.operationClass = "restart_scoped"

/-- The grant is this caller's, for this digest, and unspent. -/
def ReauthenticationGrant.usable (g : ReauthenticationGrant) (actor : UserId)
    (session : SessionId) (digest : HexText) (now : Time) : Bool :=
  g.actorUserId = actor ∧ g.sessionId = session ∧ g.action = "apply_runtime_configuration" ∧
    g.impactDigest = digest ∧ g.consumedAt = none ∧ now < g.expiresAt

/-- The rows an application writes. -/
def applied (db : ConfigurationDb) (actor : UserId) (changeId : ChangeId)
    (preview : ConfigurationPreview) (grant : ReauthenticationGrant) (current : RevisionId)
    (digest nonce : HexText) (now : Time) : ConfigurationDb where
  revisions := db.revisions ++ [⟨.ofChange changeId, preview.configuration, some actor, false⟩]
  changes := db.changes ++ [{
    id := changeId
    actorUserId := actor
    priorRevisionId := current
    desiredRevisionId := .ofChange changeId
    previewId := preview.id
    impactDigest := digest
    operationClass := preview.operationClass
    state := .pending
    stage := .queued
    controllerNonceHash := nonce
    reasonCode := none }]
  previews := updateWhere (fun p => p.id = preview.id) (fun p => { p with consumedAt := some now })
    db.previews
  grants := updateWhere (fun g => g.tokenHash = grant.tokenHash)
    (fun g => { g with consumedAt := some now }) db.grants

/-- `v9_admin_apply_runtime_configuration`. -/
def v9AdminApplyRuntimeConfiguration (db : ConfigurationDb)
    (caller : Except SqlError (UserId × SessionId)) (changeId : ChangeId) (previewId : PreviewId)
    (digest grantTokenHash nonce : HexText) (now : Time) : Except SqlError ConfigurationDb :=
  match caller with
  | .error e => .error e
  | .ok (actor, session) =>
    match effectiveRevision db with
    | .error e => .error e
    | .ok current =>
      match rowAt (·.id) db.previews previewId with
      | none => .error ⟨"40001", "runtime configuration preview is stale"⟩
      | some preview =>
        if ¬ preview.usable actor session digest current.id now then
          .error ⟨"40001", "runtime configuration preview is stale"⟩
        else
          match rowAt (·.tokenHash) db.grants grantTokenHash with
          | none => .error ⟨"28000", "reauthentication grant is invalid or expired"⟩
          | some grant =>
            if ¬ grant.usable actor session digest now then
              .error ⟨"28000", "reauthentication grant is invalid or expired"⟩
            else if ¬ nonce.wellFormed then .error ⟨"22023", "controller nonce is invalid"⟩
            else if (db.revisions.any fun r => r.id = .ofChange changeId) ∨
                (db.changes.any fun c => c.id = changeId ∨ c.previewId = preview.id ∨
                  c.state.isActive) then
              .error alreadyActive
            else .ok (applied db actor changeId preview grant current.id digest nonce now)

/-! ## The controller's calls -/

/-- `id = … AND state = … AND controller_nonce_hash = …`. -/
def ConfigurationChange.opens (changeId : ChangeId) (state : ChangeState) (nonce : HexText)
    (c : ConfigurationChange) : Bool :=
  c.id = changeId ∧ c.state = state ∧ c.controllerNonceHash = nonce

/-- `UPDATE runtime_configuration_changes …`, and the error when no row is found. -/
def updateChange (db : ConfigurationDb) (message : String) (p : ConfigurationChange → Bool)
    (f : ConfigurationChange → ConfigurationChange) : Except SqlError ConfigurationDb :=
  if db.changes.any p then .ok { db with changes := updateWhere p f db.changes }
  else .error ⟨"55000", message⟩

/-- `v9_admin_fail_runtime_configuration_delivery`. -/
def v9AdminFailRuntimeConfigurationDelivery (db : ConfigurationDb)
    (caller : Except SqlError UserId) (changeId : ChangeId) (nonce : HexText) :
    Except SqlError ConfigurationDb :=
  match caller with
  | .error e => .error e
  | .ok actor =>
    updateChange db "runtime configuration delivery is unavailable"
      (fun c => c.actorUserId = actor ∧ c.opens changeId .pending nonce)
      fun c => { c with
        state := .failed
        stage := .failed
        reasonCode := some "controller_unavailable"
        controllerNonceHash := .digest 0 }

/-- `v9_controller_runtime_configuration_change`, without the two configurations it returns. -/
def v9ControllerRuntimeConfigurationChange (db : ConfigurationDb) (changeId : ChangeId)
    (nonce : HexText) : Except SqlError ConfigurationDb :=
  updateChange db "controller change is unavailable"
    (ConfigurationChange.opens changeId .pending nonce)
    fun c => { c with state := .applying, stage := .preflight }

/-- The configurations of a change, prior and desired, as the claim returns them. -/
def changeConfigurations (db : ConfigurationDb) (changeId : ChangeId) :
    List (Configuration × Configuration) :=
  (db.changes.filter (·.id = changeId)).flatMap fun c =>
    (db.revisions.filter (·.id = c.priorRevisionId)).flatMap fun prior =>
      (db.revisions.filter (·.id = c.desiredRevisionId)).map fun desired =>
        (prior.configuration, desired.configuration)

/-- The stages the controller may report. -/
def controllerStage (stage : String) : Option ChangeStage :=
  if stage = "backing_up" then some .backingUp
  else if stage = "draining" then some .draining
  else if stage = "applying" then some .applying
  else if stage = "restarting" then some .restarting
  else if stage = "validating" then some .validating
  else if stage = "rolling_back" then some .rollingBack
  else none

/-- `v9_controller_advance_runtime_configuration`. -/
def v9ControllerAdvanceRuntimeConfiguration (db : ConfigurationDb) (changeId : ChangeId)
    (nonce : HexText) (stage : String) : Except SqlError ConfigurationDb :=
  match controllerStage stage with
  | none => .error ⟨"22023", "invalid controller stage"⟩
  | some stage =>
    updateChange db "controller change is unavailable"
      (ConfigurationChange.opens changeId .applying nonce) fun c => { c with stage := stage }

/-- The results the controller may report, each a state and the stage of the same name. -/
def controllerResult (result : String) : Option (ChangeState × ChangeStage) :=
  if result = "effective" then some (.effective, .effective)
  else if result = "failed" then some (.failed, .failed)
  else if result = "rolled_back" then some (.rolledBack, .rolledBack)
  else none

/-- `SET effective = false WHERE …prior`, `SET effective = true WHERE …desired`. -/
def flipEffective (prior desired : RevisionId) (revisions : List ConfigurationRevision) :
    List ConfigurationRevision :=
  updateWhere (·.id = desired) (fun r => { r with effective := true })
    (updateWhere (·.id = prior) (fun r => { r with effective := false }) revisions)

/-- `v9_controller_finish_runtime_configuration`. -/
def v9ControllerFinishRuntimeConfiguration (db : ConfigurationDb) (changeId : ChangeId)
    (nonce : HexText) (result : String) (reasonCode : Option String) :
    Except SqlError ConfigurationDb :=
  match db.changes.find? (ConfigurationChange.opens changeId .applying nonce),
      controllerResult result with
  | some change, some (state, stage) =>
    if reasonCode.any fun reason => !isReasonCode reason then
      .error ⟨"22023", "invalid controller result"⟩
    else
      let revisions := if state = .effective then
        flipEffective change.priorRevisionId change.desiredRevisionId db.revisions else db.revisions
      if 1 < (revisions.filter (·.effective)).length then
        .error (uniqueViolation "uq_runtime_configuration_effective")
      else
        .ok { db with
          revisions := revisions
          changes := updateWhere (fun c => c.id = changeId) (fun c => { c with
            state := state
            stage := stage
            reasonCode := reasonCode
            controllerNonceHash := .digest 0 }) db.changes }
  | _, _ => .error ⟨"22023", "invalid controller result"⟩

/-! ## Runs -/

inductive ConfigurationCall where
  | preview (caller : Except SqlError (UserId × SessionId)) (previewId : PreviewId)
    (base : RevisionId) (configuration : Configuration) (now : Time)
  | grant (caller : Except SqlError (UserId × SessionId)) (previewId : PreviewId)
    (action : String) (digest tokenHash : HexText) (now : Time)
  | apply (caller : Except SqlError (UserId × SessionId)) (changeId : ChangeId)
    (previewId : PreviewId) (digest grantTokenHash nonce : HexText) (now : Time)
  | failDelivery (caller : Except SqlError UserId) (changeId : ChangeId) (nonce : HexText)
  | claim (changeId : ChangeId) (nonce : HexText)
  | advance (changeId : ChangeId) (nonce : HexText) (stage : String)
  | finish (changeId : ChangeId) (nonce : HexText) (result : String) (reasonCode : Option String)

def callConfiguration (db : ConfigurationDb) : ConfigurationCall → Except SqlError ConfigurationDb
  | .preview caller previewId base configuration now =>
    v9AdminPreviewRuntimeConfiguration sha256 db caller previewId base configuration now
  | .grant caller previewId action digest tokenHash now =>
    v9AdminIssueReauthenticationGrant db caller previewId action digest tokenHash now
  | .apply caller changeId previewId digest grantTokenHash nonce now =>
    v9AdminApplyRuntimeConfiguration db caller changeId previewId digest grantTokenHash nonce now
  | .failDelivery caller changeId nonce =>
    v9AdminFailRuntimeConfigurationDelivery db caller changeId nonce
  | .claim changeId nonce => v9ControllerRuntimeConfigurationChange db changeId nonce
  | .advance changeId nonce stage =>
    v9ControllerAdvanceRuntimeConfiguration db changeId nonce stage
  | .finish changeId nonce result reasonCode =>
    v9ControllerFinishRuntimeConfiguration db changeId nonce result reasonCode

/-- An application that went through. -/
structure Application where
  actor : UserId
  session : SessionId
  previewId : PreviewId
  grantTokenHash : HexText
  digest : HexText
  now : Time
deriving Repr, DecidableEq

/-- The tables, the revisions that became effective after the first and the applications, newest
first. -/
structure Ledger where
  db : ConfigurationDb
  effected : List RevisionId
  applications : List Application

def Ledger.initial : Ledger := ⟨ConfigurationDb.initial, [], []⟩

/-- The revisions a successful call makes effective: the desired one of the change it finishes. -/
def effectedBy (db : ConfigurationDb) : ConfigurationCall → List RevisionId
  | .finish changeId _ result _ =>
    if result = "effective" then
      ((db.changes.filter (·.id = changeId)).map (·.desiredRevisionId))
    else []
  | _ => []

/-- The applications of a successful call. -/
def applicationsBy : ConfigurationCall → List Application
  | .apply (.ok (actor, session)) _ previewId digest grantTokenHash _ now =>
    [⟨actor, session, previewId, grantTokenHash, digest, now⟩]
  | _ => []

/-- A call that raises changes nothing. -/
def ledgerStep (l : Ledger) (call : ConfigurationCall) : Ledger :=
  match callConfiguration sha256 l.db call with
  | .error _ => l
  | .ok db => ⟨db, effectedBy l.db call ++ l.effected, applicationsBy call ++ l.applications⟩

/-- The ledger after these calls. -/
def ledgerAfter (calls : List ConfigurationCall) : Ledger :=
  run (ledgerStep sha256) Ledger.initial calls

/-! ## What a call writes -/

/-- The five things a successful call may write, with the revisions it makes effective and the
applications it is. -/
inductive Writes (db : ConfigurationDb) :
    ConfigurationDb → List RevisionId → List Application → Prop where
  | preview (p : ConfigurationPreview) (fresh : ∀ q ∈ db.previews, q.id ≠ p.id)
      (unspent : p.consumedAt = none) :
      Writes db { db with previews := db.previews ++ [p] } [] []
  | grant (g : ReauthenticationGrant) (fresh : ∀ h ∈ db.grants, h.tokenHash ≠ g.tokenHash)
      (unspent : g.consumedAt = none) :
      Writes db { db with grants := db.grants ++ [g] } [] []
  | application {actor : UserId} {session : SessionId} {current : ConfigurationRevision}
      {p : ConfigurationPreview} {g : ReauthenticationGrant} (changeId : ChangeId)
      {digest : HexText} (nonce : HexText) {now : Time}
      (hcurrent : effectiveRevision db = .ok current) (hp : p ∈ db.previews) (hg : g ∈ db.grants)
      (husable : p.usable actor session digest current.id now = true)
      (hgrant : g.usable actor session digest now = true)
      (hrevision : ∀ r ∈ db.revisions, r.id ≠ .ofChange changeId)
      (hchange : ∀ c ∈ db.changes, c.id ≠ changeId ∧ c.state.isActive = false) :
      Writes db (applied db actor changeId p g current.id digest nonce now) []
        [⟨actor, session, p.id, g.tokenHash, digest, now⟩]
  | update (p : ConfigurationChange → Bool) (f : ConfigurationChange → ConfigurationChange)
      (hactive : ∀ c, p c = true → c.state.isActive = true) (hid : ∀ c, (f c).id = c.id)
      (hprior : ∀ c, (f c).priorRevisionId = c.priorRevisionId)
      (hdesired : ∀ c, (f c).desiredRevisionId = c.desiredRevisionId) :
      Writes db { db with changes := updateWhere p f db.changes } [] []
  | finish (change : ConfigurationChange) (hin : change ∈ db.changes)
      (hactive : change.state.isActive = true)
      (f : ConfigurationChange → ConfigurationChange) (hid : ∀ c, (f c).id = c.id)
      (hended : ∀ c, (f c).state.isActive = false) (flips : Bool) :
      Writes db { db with
        revisions := if flips then
          flipEffective change.priorRevisionId change.desiredRevisionId db.revisions
          else db.revisions
        changes := updateWhere (fun c => c.id = change.id) f db.changes }
        (if flips then [change.desiredRevisionId] else []) []

variable {p : ConfigurationChange → Bool} {f : ConfigurationChange → ConfigurationChange}

variable {db' : ConfigurationDb}

theorem updateChange_ok {db : ConfigurationDb} {message : String}
    (h : updateChange db message p f = .ok db') :
    db' = { db with changes := updateWhere p f db.changes } := by
  unfold updateChange at h
  split at h
  · exact (Except.ok.inj h).symm
  · exact absurd h (by simp)

variable {c : ConfigurationChange}

variable {changeId : ChangeId} {nonce : HexText}

/-- A change that a call opens is active. -/
theorem opens_active {state : ChangeState} (hactive : state.isActive = true)
    (h : c.opens changeId state nonce = true) : c.state.isActive = true := by
  obtain ⟨-, hstate, -⟩ := of_decide_eq_true h
  rw [hstate]
  exact hactive

variable {previewId : PreviewId} {now : Time}

theorem preview_writes {db : ConfigurationDb} {caller : Except SqlError (UserId × SessionId)}
    {base : RevisionId} {configuration : Configuration}
    (h : v9AdminPreviewRuntimeConfiguration sha256 db caller previewId base configuration now =
      .ok db') : Writes db db' [] [] := by
  unfold v9AdminPreviewRuntimeConfiguration at h
  split at h
  · exact absurd h (by simp)
  split at h
  · exact absurd h (by simp)
  obtain ⟨-, h⟩ := ite_error_eq_ok.mp h
  obtain ⟨-, h⟩ := ite_error_eq_ok.mp h
  obtain ⟨-, h⟩ := ite_error_eq_ok.mp h
  obtain ⟨hfresh, h⟩ := ite_error_eq_ok.mp h
  obtain rfl := Except.ok.inj h
  refine .preview _ (fun q hq hid => hfresh ?_) rfl
  exact List.any_eq_true.mpr ⟨q, hq, by simpa using hid⟩

variable {digest : HexText}

theorem grant_writes {db : ConfigurationDb} {caller : Except SqlError (UserId × SessionId)}
    {action : String} {tokenHash : HexText}
    (h : v9AdminIssueReauthenticationGrant db caller previewId action digest tokenHash now =
      .ok db') : Writes db db' [] [] := by
  unfold v9AdminIssueReauthenticationGrant at h
  split at h
  · exact absurd h (by simp)
  obtain ⟨-, h⟩ := ite_error_eq_ok.mp h
  obtain ⟨-, h⟩ := ite_error_eq_ok.mp h
  obtain ⟨hfresh, h⟩ := ite_error_eq_ok.mp h
  obtain rfl := Except.ok.inj h
  refine .grant _ (fun g hg hid => hfresh ?_) rfl
  exact List.any_eq_true.mpr ⟨g, hg, by simpa using hid⟩

theorem apply_writes {db : ConfigurationDb} {actor : UserId} {session : SessionId}
    {grantTokenHash : HexText} (hpreviews : Keyed (·.id) db.previews)
    (hgrants : Keyed (·.tokenHash) db.grants)
    (h : v9AdminApplyRuntimeConfiguration db (.ok (actor, session)) changeId previewId digest
      grantTokenHash nonce now = .ok db') :
    Writes db db' [] [⟨actor, session, previewId, grantTokenHash, digest, now⟩] := by
  unfold v9AdminApplyRuntimeConfiguration at h
  split at h
  · exact absurd h (by simp)
  next actor' session' hcaller =>
    obtain ⟨rfl, rfl⟩ := Prod.mk.inj (Except.ok.inj hcaller)
    split at h
    · exact absurd h (by simp)
    next current hcurrent =>
      split at h
      · exact absurd h (by simp)
      next p hp =>
        obtain ⟨husable, h⟩ := ite_error_eq_ok.mp h
        split at h
        · exact absurd h (by simp)
        next g hg =>
          obtain ⟨hgrant, h⟩ := ite_error_eq_ok.mp h
          obtain ⟨-, h⟩ := ite_error_eq_ok.mp h
          obtain ⟨hfree, h⟩ := ite_error_eq_ok.mp h
          obtain rfl := Except.ok.inj h
          obtain ⟨hpin, rfl⟩ := hpreviews.rowAt_eq_some.mp hp
          obtain ⟨hgin, rfl⟩ := hgrants.rowAt_eq_some.mp hg
          refine .application changeId nonce hcurrent hpin hgin (not_not.mp husable)
            (not_not.mp hgrant) (fun r hr hid => hfree (Or.inl ?_)) fun c hc => ⟨?_, ?_⟩
          · exact List.any_eq_true.mpr ⟨r, hr, by simpa using hid⟩
          · intro hid
            exact hfree (Or.inr (List.any_eq_true.mpr ⟨c, hc, by simp [hid]⟩))
          · cases hactive : c.state.isActive with
            | false => rfl
            | true => exact absurd (Or.inr (List.any_eq_true.mpr ⟨c, hc, by simp [hactive]⟩)) hfree

theorem finish_writes {db : ConfigurationDb} {result : String} {reasonCode : Option String}
    (hchanges : Keyed (·.id) db.changes)
    (h : v9ControllerFinishRuntimeConfiguration db changeId nonce result reasonCode = .ok db') :
    Writes db db' (effectedBy db (.finish changeId nonce result reasonCode)) [] := by
  unfold v9ControllerFinishRuntimeConfiguration at h
  split at h
  next change state stage hfind hresult =>
    obtain ⟨-, h⟩ := ite_error_eq_ok.mp h
    obtain ⟨-, h⟩ := ite_error_eq_ok.mp h
    obtain rfl := Except.ok.inj h
    have hin := List.mem_of_find?_eq_some hfind
    have hopens : change.opens changeId .applying nonce = true := List.find?_some hfind
    obtain ⟨hid, hstate, -⟩ := of_decide_eq_true hopens
    have hended : state.isActive = false ∧ (state = .effective ↔ result = "effective") := by
      unfold controllerResult at hresult
      split at hresult
      next heffective =>
        obtain ⟨rfl, -⟩ := Prod.mk.inj (Option.some.inj hresult)
        exact ⟨rfl, fun _ => heffective, fun _ => rfl⟩
      next hnot =>
        split at hresult
        · obtain ⟨rfl, -⟩ := Prod.mk.inj (Option.some.inj hresult)
          exact ⟨rfl, fun h => absurd h (by simp), fun h => absurd h hnot⟩
        · split at hresult
          · obtain ⟨rfl, -⟩ := Prod.mk.inj (Option.some.inj hresult)
            exact ⟨rfl, fun h => absurd h (by simp), fun h => absurd h hnot⟩
          · exact absurd hresult (by simp)
    have heffected : effectedBy db (.finish changeId nonce result reasonCode) =
        if decide (state = .effective) then [change.desiredRevisionId] else [] := by
      show (if result = "effective" then
        (db.changes.filter (·.id = changeId)).map (·.desiredRevisionId) else []) = _
      by_cases heffective : state = .effective
      · rw [if_pos (hended.2.mp heffective), if_pos (decide_eq_true heffective), ← hid,
          hchanges.filter_eq hin]
        rfl
      · rw [if_neg fun hres => heffective (hended.2.mpr hres), if_neg (by simpa using heffective)]
    have hwrites := Writes.finish change hin (by rw [hstate]; rfl)
      (fun c => { c with
        state := state, stage := stage, reasonCode := reasonCode, controllerNonceHash := .digest 0 })
      (fun _ => rfl) (fun _ => hended.1) (decide (state = .effective))
    rw [hid] at hwrites
    rw [heffected]
    simpa using hwrites
  · exact absurd h (by simp)

/-! ## The invariant -/

/-- The rows that an application spent: this caller's, with this digest, at this time, both
unexpired. -/
structure SpentBy (a : Application) (p : ConfigurationPreview) (g : ReauthenticationGrant) :
    Prop where
  preview : p.id = a.previewId ∧ p.actorUserId = a.actor ∧ p.sessionId = a.session ∧
    p.impactDigest = a.digest ∧ a.now < p.expiresAt ∧ p.consumedAt = some a.now
  grant : g.tokenHash = a.grantTokenHash ∧ g.actorUserId = a.actor ∧ g.sessionId = a.session ∧
    g.impactDigest = a.digest ∧ a.now < g.expiresAt ∧ g.consumedAt = some a.now

/-- The revision that is effective by the history. -/
def Ledger.current (l : Ledger) : RevisionId := l.effected.headD .baseline

structure LedgerInv (l : Ledger) : Prop where
  revisions : Keyed (·.id) l.db.revisions
  previews : Keyed (·.id) l.db.previews
  grants : Keyed (·.tokenHash) l.db.grants
  changes : Keyed (·.id) l.db.changes
  effective : (l.db.revisions.filter (·.effective)).map (·.id) = [l.current]
  single : ∀ c ∈ l.db.changes, ∀ d ∈ l.db.changes, c.state.isActive = true →
    d.state.isActive = true → c = d
  prior : ∀ c ∈ l.db.changes, c.state.isActive = true → c.priorRevisionId = l.current ∧
    c.desiredRevisionId ≠ c.priorRevisionId ∧ ∃ r ∈ l.db.revisions, r.id = c.desiredRevisionId
  spent : ∀ a ∈ l.applications, ∃ p ∈ l.db.previews, ∃ g ∈ l.db.grants, SpentBy a p g
  previewOnce : (l.applications.map (·.previewId)).Nodup
  grantOnce : (l.applications.map (·.grantTokenHash)).Nodup
  previewSpent : ∀ p ∈ l.db.previews, p.consumedAt ≠ none →
    ∃ a ∈ l.applications, a.previewId = p.id
  grantSpent : ∀ g ∈ l.db.grants, g.consumedAt ≠ none →
    ∃ a ∈ l.applications, a.grantTokenHash = g.tokenHash

theorem ledgerInv_initial : LedgerInv Ledger.initial := by
  constructor
  case revisions => exact List.nodup_singleton _
  case effective => rfl
  all_goals simp [Ledger.initial, ConfigurationDb.initial, Keyed]

/-- The one effective row is the one the calls look up. -/
theorem effectiveRevision_ok {db : ConfigurationDb} {r : ConfigurationRevision}
    (h : effectiveRevision db = .ok r) : db.revisions.filter (·.effective) = [r] := by
  unfold effectiveRevision at h
  split at h
  · exact absurd h (by simp)
  next r' hone =>
    rw [hone, Except.ok.inj h]
  · exact absurd h (by simp)

/-- A row after the flip. -/
def flipRow (prior desired : RevisionId) (r : ConfigurationRevision) : ConfigurationRevision :=
  { r with effective := r.id = desired ∨ (r.id ≠ prior ∧ r.effective) }

variable {prior desired : RevisionId}

theorem flipEffective_eq (revisions : List ConfigurationRevision) :
    flipEffective prior desired revisions = revisions.map (flipRow prior desired) := by
  unfold flipEffective updateWhere
  rw [List.map_map]
  refine List.map_congr_left fun r _ => ?_
  obtain ⟨id, configuration, createdBy, effective⟩ := r
  unfold flipRow
  by_cases hp : id = prior
  · subst hp
    by_cases hd : id = desired
    · simp [hd]
    · simp [hd]
  · by_cases hd : id = desired
    · subst hd
      simp [hp]
    · simp [hp, hd]

/-- After the flip the desired revision is the effective one. -/
theorem flip_effective {revisions : List ConfigurationRevision} (hkeyed : Keyed (·.id) revisions)
    (hprior : (revisions.filter (·.effective)).map (·.id) = [prior])
    (hin : ∃ r ∈ revisions, r.id = desired) :
    ((flipEffective prior desired revisions).filter (·.effective)).map (·.id) = [desired] := by
  obtain ⟨r, hr, rfl⟩ := hin
  -- a row is effective afterwards exactly if it is the desired one
  have hflip : ∀ x ∈ revisions, (flipRow prior r.id x).effective = decide (x.id = r.id) := by
    intro x hx
    unfold flipRow
    by_cases hxr : x.id = r.id
    · simp [hxr]
    · have hrest : ¬ (x.id ≠ prior ∧ x.effective = true) := by
        rintro ⟨hxp, heffective⟩
        have hmem : x.id ∈ (revisions.filter (·.effective)).map (·.id) :=
          List.mem_map.mpr ⟨x, List.mem_filter.mpr ⟨hx, heffective⟩, rfl⟩
        rw [hprior, List.mem_singleton] at hmem
        exact hxp hmem
      rw [decide_eq_false hxr]
      apply decide_eq_false
      rintro (h | h)
      · exact hxr h
      · exact hrest h
  rw [flipEffective_eq, List.filter_map]
  have hone : revisions.filter ((·.effective) ∘ flipRow prior r.id) = [r] := by
    rw [← hkeyed.filter_eq hr]
    exact List.filter_congr fun x hx => hflip x hx
  rw [hone]
  rfl

/-- The flip writes no ids. -/
theorem flip_ids {revisions : List ConfigurationRevision} :
    (flipEffective prior desired revisions).map (·.id) = revisions.map (·.id) := by
  rw [flipEffective_eq, List.map_map]
  rfl

section Steps

variable {l : Ledger} {db : ConfigurationDb} {effected : List RevisionId}
  {applications : List Application}

theorem update_keeps {changes : List ConfigurationChange} (hc : c ∈ changes) (hp : p c = false) :
    c ∈ updateWhere p f changes := by
  rw [mem_updateWhere]
  exact ⟨c, hc, by rw [hp]; rfl⟩

/-- A finished change stays as it is. -/
theorem writes_kept (hl : LedgerInv l) (hw : Writes l.db db effected applications)
    (hc : c ∈ l.db.changes) (hended : c.state.isActive = false) : c ∈ db.changes := by
  cases hw with
  | preview p fresh unspent => exact hc
  | grant g fresh unspent => exact hc
  | application changeId nonce hcurrent hp hg husable hgrant hrevision hchange =>
    exact List.mem_append_left _ hc
  | update p f hactive hid hprior hdesired =>
    refine update_keeps hc ?_
    by_contra hp
    rw [hactive c (by simpa using hp)] at hended
    exact absurd hended (by simp)
  | finish change hin hactive f hid hend flips =>
    refine update_keeps hc ?_
    apply decide_eq_false
    intro hsame
    rw [hl.changes.eq hc hin hsame, hactive] at hended
    exact absurd hended (by simp)

theorem preview_inv (hl : LedgerInv l) {p : ConfigurationPreview}
    (fresh : ∀ q ∈ l.db.previews, q.id ≠ p.id) (unspent : p.consumedAt = none) :
    LedgerInv ⟨{ l.db with previews := l.db.previews ++ [p] }, l.effected, l.applications⟩ where
  revisions := hl.revisions
  previews := hl.previews.append fresh
  grants := hl.grants
  changes := hl.changes
  effective := hl.effective
  single := hl.single
  prior := hl.prior
  spent a ha := by
    obtain ⟨q, hq, g, hg, hspent⟩ := hl.spent a ha
    exact ⟨q, List.mem_append_left _ hq, g, hg, hspent⟩
  previewOnce := hl.previewOnce
  grantOnce := hl.grantOnce
  previewSpent q hq hconsumed := by
    rcases List.mem_append.mp hq with hq | hq
    · exact hl.previewSpent q hq hconsumed
    · rw [List.mem_singleton.mp hq] at hconsumed
      exact absurd unspent hconsumed
  grantSpent := hl.grantSpent

theorem grant_inv (hl : LedgerInv l) {g : ReauthenticationGrant}
    (fresh : ∀ h ∈ l.db.grants, h.tokenHash ≠ g.tokenHash) (unspent : g.consumedAt = none) :
    LedgerInv ⟨{ l.db with grants := l.db.grants ++ [g] }, l.effected, l.applications⟩ where
  revisions := hl.revisions
  previews := hl.previews
  grants := hl.grants.append fresh
  changes := hl.changes
  effective := hl.effective
  single := hl.single
  prior := hl.prior
  spent a ha := by
    obtain ⟨p, hp, h, hh, hspent⟩ := hl.spent a ha
    exact ⟨p, hp, h, List.mem_append_left _ hh, hspent⟩
  previewOnce := hl.previewOnce
  grantOnce := hl.grantOnce
  previewSpent := hl.previewSpent
  grantSpent h hh hconsumed := by
    rcases List.mem_append.mp hh with hh | hh
    · exact hl.grantSpent h hh hconsumed
    · rw [List.mem_singleton.mp hh] at hconsumed
      exact absurd unspent hconsumed

theorem update_inv (hl : LedgerInv l) (hactive : ∀ c, p c = true → c.state.isActive = true)
    (hid : ∀ c, (f c).id = c.id) (hprior : ∀ c, (f c).priorRevisionId = c.priorRevisionId)
    (hdesired : ∀ c, (f c).desiredRevisionId = c.desiredRevisionId) :
    LedgerInv ⟨{ l.db with changes := updateWhere p f l.db.changes }, l.effected,
      l.applications⟩ := by
  -- an active row afterwards was an active row before, with the same revisions
  have hbefore : ∀ c ∈ updateWhere p f l.db.changes, c.state.isActive = true →
      ∃ c₀ ∈ l.db.changes, c₀.state.isActive = true ∧ c = (if p c₀ then f c₀ else c₀) ∧
        c.priorRevisionId = c₀.priorRevisionId ∧ c.desiredRevisionId = c₀.desiredRevisionId := by
    intro c hc hca
    obtain ⟨c₀, hc₀, rfl⟩ := mem_updateWhere.mp hc
    by_cases hp : p c₀ = true
    · refine ⟨c₀, hc₀, hactive c₀ hp, rfl, ?_, ?_⟩
      · rw [if_pos hp, hprior]
      · rw [if_pos hp, hdesired]
    · rw [if_neg hp] at hca
      refine ⟨c₀, hc₀, hca, rfl, ?_, ?_⟩
      · rw [if_neg hp]
      · rw [if_neg hp]
  refine ⟨hl.revisions, hl.previews, hl.grants, hl.changes.updateWhere hid, hl.effective, ?_, ?_,
    hl.spent, hl.previewOnce, hl.grantOnce, hl.previewSpent, hl.grantSpent⟩
  · intro c hc d hd hca hda
    obtain ⟨c₀, hc₀, hca₀, rfl, -⟩ := hbefore c hc hca
    obtain ⟨d₀, hd₀, hda₀, rfl, -⟩ := hbefore d hd hda
    rw [hl.single c₀ hc₀ d₀ hd₀ hca₀ hda₀]
  · intro c hc hca
    obtain ⟨c₀, hc₀, hca₀, -, hp, hd⟩ := hbefore c hc hca
    obtain ⟨hcurrent, hne, hin⟩ := hl.prior c₀ hc₀ hca₀
    rw [hp, hd]
    exact ⟨hcurrent, hne, hin⟩

theorem finish_inv (hl : LedgerInv l) {change : ConfigurationChange} (hin : change ∈ l.db.changes)
    (hactive : change.state.isActive = true) (hid : ∀ c, (f c).id = c.id)
    (hended : ∀ c, (f c).state.isActive = false) (flips : Bool) :
    LedgerInv ⟨{ l.db with
      revisions := if flips then
        flipEffective change.priorRevisionId change.desiredRevisionId l.db.revisions
        else l.db.revisions
      changes := updateWhere (fun c => c.id = change.id) f l.db.changes },
      (if flips then [change.desiredRevisionId] else []) ++ l.effected, l.applications⟩ := by
  obtain ⟨hprior, -, hdesired⟩ := hl.prior change hin hactive
  -- the one active change is the one that ends
  have hnone : ∀ c ∈ updateWhere (fun c => c.id = change.id) f l.db.changes,
      ¬ c.state.isActive = true := by
    intro c hc hca
    obtain ⟨c₀, hc₀, rfl⟩ := mem_updateWhere.mp hc
    by_cases hsame : c₀.id = change.id
    · rw [if_pos (decide_eq_true hsame), hended] at hca
      exact absurd hca (by simp)
    · rw [if_neg (by simpa using hsame)] at hca
      exact hsame (congrArg (·.id) (hl.single c₀ hc₀ change hin hca hactive))
  refine ⟨?_, hl.previews, hl.grants, hl.changes.updateWhere hid, ?_,
    fun c hc _ _ hca => absurd hca (hnone c hc), fun c hc hca => absurd hca (hnone c hc),
    hl.spent, hl.previewOnce, hl.grantOnce, hl.previewSpent, hl.grantSpent⟩
  · cases flips with
    | false => exact hl.revisions
    | true =>
      show Keyed _ (flipEffective _ _ _)
      unfold Keyed
      rw [flip_ids]
      exact hl.revisions
  · cases flips with
    | false => exact hl.effective
    | true =>
      have hnow : (l.db.revisions.filter (·.effective)).map (·.id) = [change.priorRevisionId] := by
        rw [hl.effective, hprior]
      exact flip_effective hl.revisions hnow hdesired

theorem application_inv (hl : LedgerInv l) {actor : UserId} {session : SessionId}
    {current : ConfigurationRevision} {p : ConfigurationPreview} {g : ReauthenticationGrant}
    (changeId : ChangeId) (nonce : HexText) (hcurrent : effectiveRevision l.db = .ok current)
    (hp : p ∈ l.db.previews) (hg : g ∈ l.db.grants)
    (husable : p.usable actor session digest current.id now = true)
    (hgrant : g.usable actor session digest now = true)
    (hrevision : ∀ r ∈ l.db.revisions, r.id ≠ .ofChange changeId)
    (hchange : ∀ c ∈ l.db.changes, c.id ≠ changeId ∧ c.state.isActive = false) :
    LedgerInv ⟨applied l.db actor changeId p g current.id digest nonce now, l.effected,
      ⟨actor, session, p.id, g.tokenHash, digest, now⟩ :: l.applications⟩ := by
  have hone := effectiveRevision_ok hcurrent
  have heffective : current.id = l.current := by
    have hids := hl.effective
    rw [hone] at hids
    exact (List.cons.inj hids).1
  obtain ⟨hpactor, hpsession, hpunspent, hpexpires, hpdigest, -, -⟩ := of_decide_eq_true husable
  obtain ⟨hgactor, hgsession, -, hgdigest, hgunspent, hgexpires⟩ := of_decide_eq_true hgrant
  have hpid : ∀ q : ConfigurationPreview, ({ q with consumedAt := some now } :
      ConfigurationPreview).id = q.id := fun _ => rfl
  have hgid : ∀ h : ReauthenticationGrant, ({ h with consumedAt := some now } :
      ReauthenticationGrant).tokenHash = h.tokenHash := fun _ => rfl
  -- a spent row keeps its application; the two rows spent now were unspent
  have hpold : ∀ a ∈ l.applications, a.previewId ≠ p.id := by
    intro a ha hsame
    obtain ⟨q, hq, h, hh, hspent⟩ := hl.spent a ha
    obtain ⟨hqid, -, -, -, -, hconsumed⟩ := hspent.preview
    rw [hl.previews.eq hq hp (hqid.trans hsame), hpunspent] at hconsumed
    exact absurd hconsumed (by simp)
  have hgold : ∀ a ∈ l.applications, a.grantTokenHash ≠ g.tokenHash := by
    intro a ha hsame
    obtain ⟨q, hq, h, hh, hspent⟩ := hl.spent a ha
    obtain ⟨hhid, -, -, -, -, hconsumed⟩ := hspent.grant
    rw [hl.grants.eq hh hg (hhid.trans hsame), hgunspent] at hconsumed
    exact absurd hconsumed (by simp)
  constructor
  · exact hl.revisions.append hrevision
  · exact hl.previews.updateWhere hpid
  · exact hl.grants.updateWhere hgid
  · exact hl.changes.append fun c hc => (hchange c hc).1
  · show ((l.db.revisions ++ [(⟨.ofChange changeId, p.configuration, some actor, false⟩ :
      ConfigurationRevision)]).filter (·.effective)).map (·.id) = _
    rw [List.filter_append, List.filter_cons_of_neg (by simp), List.filter_nil, List.append_nil]
    exact hl.effective
  · intro c hc d hd hca hda
    rcases List.mem_append.mp hc with hc | hc
    · rw [(hchange c hc).2] at hca
      exact absurd hca (by simp)
    · rcases List.mem_append.mp hd with hd | hd
      · rw [(hchange d hd).2] at hda
        exact absurd hda (by simp)
      · rw [List.mem_singleton.mp hc, List.mem_singleton.mp hd]
  · intro c hc hca
    rcases List.mem_append.mp hc with hc | hc
    · rw [(hchange c hc).2] at hca
      exact absurd hca (by simp)
    · rw [List.mem_singleton.mp hc]
      refine ⟨heffective, fun hsame => ?_, _, List.mem_append_right _ (List.mem_singleton.mpr rfl),
        rfl⟩
      have hin : current ∈ l.db.revisions.filter (·.effective) := by
        rw [hone]
        exact List.mem_singleton.mpr rfl
      exact hrevision current (List.mem_filter.mp hin).1 hsame.symm
  · intro a ha
    rcases List.mem_cons.mp ha with rfl | ha
    · refine ⟨_, mem_updateWhere.mpr ⟨p, hp, if_pos (by simp)⟩, _,
        mem_updateWhere.mpr ⟨g, hg, if_pos (by simp)⟩, ?_, ?_⟩
      · exact ⟨rfl, hpactor, hpsession, hpdigest, hpexpires, rfl⟩
      · exact ⟨rfl, hgactor, hgsession, hgdigest, hgexpires, rfl⟩
    · obtain ⟨q, hq, h, hh, hspent⟩ := hl.spent a ha
      have hqid : ¬ q.id = p.id := fun hsame => hpold a ha (hspent.preview.1.symm.trans hsame)
      have hhid : ¬ h.tokenHash = g.tokenHash :=
        fun hsame => hgold a ha (hspent.grant.1.symm.trans hsame)
      exact ⟨q, mem_updateWhere.mpr ⟨q, hq, if_neg (by simpa using hqid)⟩, h,
        mem_updateWhere.mpr ⟨h, hh, if_neg (by simpa using hhid)⟩, hspent⟩
  · rw [List.map_cons, List.nodup_cons]
    refine ⟨fun hin => ?_, hl.previewOnce⟩
    obtain ⟨a, ha, hsame⟩ := List.mem_map.mp hin
    exact hpold a ha hsame
  · rw [List.map_cons, List.nodup_cons]
    refine ⟨fun hin => ?_, hl.grantOnce⟩
    obtain ⟨a, ha, hsame⟩ := List.mem_map.mp hin
    exact hgold a ha hsame
  · intro q hq hconsumed
    obtain ⟨q₀, hq₀, rfl⟩ := mem_updateWhere.mp hq
    by_cases hsame : q₀.id = p.id
    · rw [if_pos (decide_eq_true hsame)]
      exact ⟨_, List.mem_cons_self, hsame.symm⟩
    · rw [if_neg (by simpa using hsame)] at hconsumed ⊢
      obtain ⟨a, ha, hid⟩ := hl.previewSpent q₀ hq₀ hconsumed
      exact ⟨a, List.mem_cons_of_mem _ ha, hid⟩
  · intro h hh hconsumed
    obtain ⟨h₀, hh₀, rfl⟩ := mem_updateWhere.mp hh
    by_cases hsame : h₀.tokenHash = g.tokenHash
    · rw [if_pos (decide_eq_true hsame)]
      exact ⟨_, List.mem_cons_self, hsame.symm⟩
    · rw [if_neg (by simpa using hsame)] at hconsumed ⊢
      obtain ⟨a, ha, hid⟩ := hl.grantSpent h₀ hh₀ hconsumed
      exact ⟨a, List.mem_cons_of_mem _ ha, hid⟩

theorem writes_inv (hl : LedgerInv l) (hw : Writes l.db db effected applications) :
    LedgerInv ⟨db, effected ++ l.effected, applications ++ l.applications⟩ := by
  cases hw with
  | preview p fresh unspent => exact preview_inv hl fresh unspent
  | grant g fresh unspent => exact grant_inv hl fresh unspent
  | application changeId nonce hcurrent hp hg husable hgrant hrevision hchange =>
    exact application_inv hl changeId nonce hcurrent hp hg husable hgrant hrevision hchange
  | update p f hactive hid hprior hdesired => exact update_inv hl hactive hid hprior hdesired
  | finish change hin hactive f hid hend flips => exact finish_inv hl hin hactive hid hend flips

/-- Every successful call is one of the five. -/
theorem call_writes (hl : LedgerInv l) {call : ConfigurationCall}
    (h : callConfiguration sha256 l.db call = .ok db) :
    Writes l.db db (effectedBy l.db call) (applicationsBy call) := by
  cases call with
  | preview caller previewId base configuration now => exact preview_writes sha256 h
  | grant caller previewId action digest tokenHash now => exact grant_writes h
  | apply caller changeId previewId digest grantTokenHash nonce now =>
    cases caller with
    | error e => exact absurd h (by simp [callConfiguration, v9AdminApplyRuntimeConfiguration])
    | ok who =>
      obtain ⟨actor, session⟩ := who
      exact apply_writes hl.previews hl.grants h
  | failDelivery caller changeId nonce =>
    cases caller with
    | error e =>
      exact absurd h (by simp [callConfiguration, v9AdminFailRuntimeConfigurationDelivery])
    | ok actor =>
      obtain rfl := updateChange_ok h
      refine .update _ _ (fun c hc => ?_) (fun _ => rfl) (fun _ => rfl) fun _ => rfl
      exact opens_active rfl (of_decide_eq_true hc).2
  | claim changeId nonce =>
    obtain rfl := updateChange_ok h
    exact .update _ _ (fun c hc => opens_active rfl hc) (fun _ => rfl) (fun _ => rfl) fun _ => rfl
  | advance changeId nonce stage =>
    simp only [callConfiguration, v9ControllerAdvanceRuntimeConfiguration] at h
    split at h
    · exact absurd h (by simp)
    · obtain rfl := updateChange_ok h
      exact .update _ _ (fun c hc => opens_active rfl hc) (fun _ => rfl) (fun _ => rfl)
        fun _ => rfl
  | finish changeId nonce result reasonCode => exact finish_writes hl.changes h

theorem ledgerStep_inv (l : Ledger) (call : ConfigurationCall) (hl : LedgerInv l) :
    LedgerInv (ledgerStep sha256 l call) := by
  unfold ledgerStep
  split
  · exact hl
  next db h => exact writes_inv hl (call_writes sha256 hl h)

theorem ledgerStep_kept (hl : LedgerInv l) (call : ConfigurationCall) (hc : c ∈ l.db.changes)
    (hended : c.state.isActive = false) : c ∈ (ledgerStep sha256 l call).db.changes := by
  unfold ledgerStep
  split
  · exact hc
  next db h => exact writes_kept hl (call_writes sha256 hl h) hc hended

theorem ledgerAfter_inv (calls : List ConfigurationCall) : LedgerInv (ledgerAfter sha256 calls) :=
  run_inv_of_step LedgerInv (ledgerStep_inv sha256) calls ledgerInv_initial

/-! ## A finished change is closed -/

/-- The calls that name a change once it is there. -/
def ConfigurationCall.names (changeId : ChangeId) : ConfigurationCall → Prop
  | .failDelivery _ id _ => id = changeId
  | .claim id _ => id = changeId
  | .advance id _ _ => id = changeId
  | .finish id _ _ _ => id = changeId
  | _ => False

theorem updateChange_refused {d : ConfigurationDb} {message : String}
    (h : ∀ c ∈ d.changes, p c = false) : ∃ e, updateChange d message p f = .error e := by
  unfold updateChange
  rw [if_neg]
  · exact ⟨_, rfl⟩
  · intro hany
    obtain ⟨c, hc, hp⟩ := List.any_eq_true.mp hany
    rw [h c hc] at hp
    exact absurd hp (by simp)

/-- No nonce opens a finished change. -/
theorem finished_refused (hl : LedgerInv l) (hc : c ∈ l.db.changes)
    (hended : c.state.isActive = false) {call : ConfigurationCall} (hcall : call.names c.id) :
    ∃ e, callConfiguration sha256 l.db call = .error e := by
  have hclosed : ∀ (state : ChangeState) (nonce : HexText), state.isActive = true →
      ∀ d ∈ l.db.changes, d.opens c.id state nonce = false := by
    intro state nonce hactive d hd
    by_contra hopens
    have hopens : d.opens c.id state nonce = true := by simpa using hopens
    have hdactive := opens_active hactive hopens
    rw [hl.changes.eq hd hc (of_decide_eq_true hopens).1, hended] at hdactive
    exact absurd hdactive (by simp)
  cases call with
  | preview caller previewId base configuration now => exact absurd hcall id
  | grant caller previewId action digest tokenHash now => exact absurd hcall id
  | apply caller changeId previewId digest grantTokenHash nonce now => exact absurd hcall id
  | failDelivery caller changeId nonce =>
    obtain rfl : changeId = c.id := hcall
    cases caller with
    | error e => exact ⟨e, rfl⟩
    | ok actor =>
      refine updateChange_refused fun d hd => ?_
      apply decide_eq_false
      rintro ⟨-, hopens⟩
      rw [hclosed .pending nonce rfl d hd] at hopens
      exact absurd hopens (by simp)
  | claim changeId nonce =>
    obtain rfl : changeId = c.id := hcall
    exact updateChange_refused (hclosed .pending nonce rfl)
  | advance changeId nonce stage =>
    obtain rfl : changeId = c.id := hcall
    simp only [callConfiguration, v9ControllerAdvanceRuntimeConfiguration]
    split
    · exact ⟨_, rfl⟩
    · exact updateChange_refused (hclosed .applying nonce rfl)
  | finish changeId nonce result reasonCode =>
    obtain rfl : changeId = c.id := hcall
    have hnone : l.db.changes.find? (ConfigurationChange.opens c.id .applying nonce) = none := by
      rw [List.find?_eq_none]
      intro d hd
      rw [hclosed .applying nonce rfl d hd]
      simp
    simp only [callConfiguration, v9ControllerFinishRuntimeConfiguration, hnone]
    exact ⟨_, rfl⟩

end Steps

/-- After any calls: exactly one revision is effective, the first one or the desired one of the
change that finished effective last; one change at most is active, and it starts from that
revision; a finished change is never written again and no call that names it succeeds; and every
preview and grant spent was spent by one application, of its own caller, session and digest, before
it expired. -/
theorem ledger_run (calls : List ConfigurationCall) :
    ((ledgerAfter sha256 calls).db.revisions.filter (·.effective)).map (·.id) =
      [(ledgerAfter sha256 calls).current] ∧
    (∀ c ∈ (ledgerAfter sha256 calls).db.changes, ∀ d ∈ (ledgerAfter sha256 calls).db.changes,
      c.state.isActive = true → d.state.isActive = true → c = d) ∧
    (∀ c ∈ (ledgerAfter sha256 calls).db.changes, c.state.isActive = true →
      c.priorRevisionId = (ledgerAfter sha256 calls).current) ∧
    (∀ c ∈ (ledgerAfter sha256 calls).db.changes, c.state.isActive = false → ∀ call,
      c ∈ (ledgerStep sha256 (ledgerAfter sha256 calls) call).db.changes ∧
      (call.names c.id →
        ∃ e, callConfiguration sha256 (ledgerAfter sha256 calls).db call = .error e)) ∧
    (∀ a ∈ (ledgerAfter sha256 calls).applications, ∃ p ∈ (ledgerAfter sha256 calls).db.previews,
      ∃ g ∈ (ledgerAfter sha256 calls).db.grants, SpentBy a p g) ∧
    ((ledgerAfter sha256 calls).applications.map (·.previewId)).Nodup ∧
    ((ledgerAfter sha256 calls).applications.map (·.grantTokenHash)).Nodup ∧
    (∀ p ∈ (ledgerAfter sha256 calls).db.previews, p.consumedAt ≠ none →
      ∃ a ∈ (ledgerAfter sha256 calls).applications, a.previewId = p.id) ∧
    ∀ g ∈ (ledgerAfter sha256 calls).db.grants, g.consumedAt ≠ none →
      ∃ a ∈ (ledgerAfter sha256 calls).applications, a.grantTokenHash = g.tokenHash := by
  have hl := ledgerAfter_inv sha256 calls
  refine ⟨hl.effective, hl.single, fun c hc hca => (hl.prior c hc hca).1, ?_, hl.spent,
    hl.previewOnce, hl.grantOnce, hl.previewSpent, hl.grantSpent⟩
  intro c hc hended call
  exact ⟨ledgerStep_kept sha256 hl call hc hended, fun hcall => finished_refused sha256 hl hc hended hcall⟩

end LocalRag.Admin
