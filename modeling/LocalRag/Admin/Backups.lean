import LocalRag.Schema
import LocalRag.Core.Table
import LocalRag.Core.Run

/-!
# Personal backups — a run, an operation and its verification

Mirrors the personal backup functions of `0009_runtime_configuration`
(`v9_admin_start_personal_backup` to `v9_controller_fail_personal_backup`, and
`v9_controller_record_restore_verification`) and `v4_begin_backup_run`,
`v4_finish_backup_run` of `0001_v4_baseline`. A backup has a row in each of three tables under one
key; `Agree` says which three rows may stand together, and a step changes
the rows of one key, so every step lemma is one case of `Agree` (`inv_of_change`).

Two steps can leave rows that disagree. `v9_admin_fail_personal_backup_delivery` ends
the run before it looks at the operation, which may be running by then.
`v9_controller_record_restore_verification` takes the manifest hash from its caller and
does not compare it with the one the export recorded, and it ends the operation without looking at
its state again. `Harmless` is the condition that they did not, and
`backups_iff` that the books are right along a run exactly when every step meets it.

Mirroring notes.
* A function whose first statement locks a row it changes is one step. The restore
  verification reads without a lock and writes afterwards, so it is two: what passed the
  check waits in `checked`.
* `caller` is what `v4_require_admin` and `v4_current_actor_id` give.
* Texts are not NULL; `ControllerRoutes` sends none. `finished_at`, which a CHECK ties to
  the state, and audit rows are left out.
-/

namespace LocalRag.Admin

open LocalRag.Core

abbrev BackupRunId := Nat

inductive RunStatus where
  | running | succeeded | failed
deriving Repr, DecidableEq

/-- `backup_runs`. -/
structure BackupRun where
  id : BackupRunId
  status : RunStatus
  destinationId : String
  databaseSha256 : Option HexText
  storageManifestSha256 : Option HexText
  databaseBytes : Option Int
  storageBytes : Option Int
  errorCode : Option String
deriving Repr, DecidableEq

inductive BackupState where
  | pending | running | succeeded | failed
deriving Repr, DecidableEq

inductive BackupStage where
  | queued | draining | exporting | verifying | succeeded | failed
deriving Repr, DecidableEq

/-- `personal_backup_operations`. -/
structure BackupOperation where
  backupRunId : BackupRunId
  actorUserId : UserId
  state : BackupState
  stage : BackupStage
  controllerNonceHash : HexText
  manifestSha256 : Option HexText
  reasonCode : Option String
deriving Repr, DecidableEq

/-- `state IN ('pending','running')`. -/
def BackupState.isActive : BackupState → Bool
  | .pending | .running => true
  | .succeeded | .failed => false

/-- `backup_restore_verifications`. -/
structure RestoreVerification where
  backupRunId : BackupRunId
  manifestSha256 : HexText
  verificationProfile : String
deriving Repr, DecidableEq

structure BackupDb where
  runs : List BackupRun
  operations : List BackupOperation
  verifications : List RestoreVerification
  /-- The verifications that passed their check and did not write yet. -/
  checked : List RestoreVerification
deriving Repr, DecidableEq

def BackupDb.empty : BackupDb := ⟨[], [], [], []⟩

def BackupDb.run (db : BackupDb) : BackupRunId → Option BackupRun := rowAt (·.id) db.runs

def BackupDb.operation (db : BackupDb) : BackupRunId → Option BackupOperation :=
  rowAt (·.backupRunId) db.operations

def BackupDb.verification (db : BackupDb) : BackupRunId → Option RestoreVerification :=
  rowAt (·.backupRunId) db.verifications

/-! ## Runs -/

/-- `v4_begin_backup_run`. -/
def v4BeginBackupRun (runs : List BackupRun) (runId : BackupRunId) (destinationId : String) :
    Except SqlError (List BackupRun) :=
  if destinationId.toList.all (· = ' ') then .error ⟨"22023", "backup destination is required"⟩
  else if runs.any fun r => r.id = runId then .error (uniqueViolation "backup_runs_pkey")
  else .ok (runs ++ [⟨runId, .running, destinationId, none, none, none, none, none⟩])

/-- How a run ends: what `v4_finish_backup_run` writes. -/
def BackupRun.finished (succeeded : Bool) (databaseSha256 storageManifestSha256 : Option HexText)
    (databaseBytes storageBytes : Option Int) (errorCode : Option String) (r : BackupRun) :
    BackupRun :=
  { r with
    status := if succeeded then .succeeded else .failed
    databaseSha256 := if succeeded then databaseSha256 else none
    storageManifestSha256 := if succeeded then storageManifestSha256 else none
    databaseBytes := if succeeded then databaseBytes else none
    storageBytes := if succeeded then storageBytes else none
    errorCode := if succeeded then none else errorCode }

/-- `id = p_run_id AND status = 'running'`. -/
def isRunning (runId : BackupRunId) (r : BackupRun) : Bool := r.id = runId ∧ r.status = .running

/-- `v4_finish_backup_run`: the runs, and whether one was found. -/
def v4FinishBackupRun (runs : List BackupRun) (runId : BackupRunId) (succeeded : Bool)
    (databaseSha256 storageManifestSha256 : Option HexText)
    (databaseBytes storageBytes : Option Int) (errorCode : Option String) :
    Except SqlError (List BackupRun × Bool) :=
  if succeeded = true ∧ (¬ databaseSha256.any (·.wellFormed) ∨
      ¬ storageManifestSha256.any (·.wellFormed) ∨ ¬ databaseBytes.any (0 ≤ ·) ∨
      ¬ storageBytes.any (0 ≤ ·) ∨ errorCode ≠ none) then
    .error ⟨"22023", "invalid successful backup result"⟩
  else if succeeded = false ∧ (errorCode.all fun code => code.toList.all (· = ' ')) then
    .error ⟨"22023", "failed backup requires an error code"⟩
  else
    .ok (updateWhere (isRunning runId)
      (BackupRun.finished succeeded databaseSha256 storageManifestSha256 databaseBytes storageBytes
        errorCode) runs,
      runs.any (isRunning runId))

/-! ## Operations -/

/-- `backup_run_id = … AND state = … AND controller_nonce_hash = …`. -/
def opens (runId : BackupRunId) (state : BackupState) (nonce : HexText) (o : BackupOperation) :
    Bool :=
  o.backupRunId = runId ∧ o.state = state ∧ o.controllerNonceHash = nonce

/-- `UPDATE personal_backup_operations …`, and the error when no row is found. -/
def updateOperation (db : BackupDb) (p : BackupOperation → Bool)
    (f : BackupOperation → BackupOperation) : Except SqlError BackupDb :=
  if db.operations.any p then .ok { db with operations := updateWhere p f db.operations }
  else .error ⟨"55000", "backup operation is unavailable"⟩

/-- The row of an operation that failed; its nonce is `repeat('0', 64)`. -/
def BackupOperation.fail (reasonCode : String) (o : BackupOperation) : BackupOperation :=
  { o with
    state := .failed
    stage := .failed
    reasonCode := some reasonCode
    controllerNonceHash := .digest 0 }

/-- `v9_admin_start_personal_backup`. -/
def v9AdminStartPersonalBackup (db : BackupDb) (caller : Except SqlError UserId) (nonce : HexText)
    (runId : BackupRunId) : Except SqlError BackupDb :=
  match caller with
  | .error e => .error e
  | .ok actor =>
    if ¬ nonce.wellFormed then .error ⟨"22023", "controller nonce is invalid"⟩
    else
      match v4BeginBackupRun db.runs runId "personal.attended" with
      | .error e => .error e
      | .ok runs =>
        if db.operations.any fun o => o.backupRunId = runId then
          .error (uniqueViolation "personal_backup_operations_pkey")
        else if db.operations.any fun o => o.state.isActive then
          .error (uniqueViolation "uq_personal_backup_active")
        else
          .ok { db with
            runs := runs
            operations := db.operations ++ [⟨runId, actor, .pending, .queued, nonce, none, none⟩] }

/-- `v9_admin_fail_personal_backup_delivery`. The run is ended whatever the operation is. -/
def v9AdminFailPersonalBackupDelivery (db : BackupDb) (caller : Except SqlError UserId)
    (runId : BackupRunId) (nonce : HexText) : Except SqlError BackupDb :=
  match caller with
  | .error e => .error e
  | .ok _ =>
    match v4FinishBackupRun db.runs runId false none none none none
        (some "controller_unavailable") with
    | .error e => .error e
    | .ok (runs, _) =>
      .ok { db with
        runs := runs
        operations := updateWhere (opens runId .pending nonce)
          (BackupOperation.fail "controller_unavailable") db.operations }

/-- `v9_controller_claim_personal_backup`. -/
def v9ControllerClaimPersonalBackup (db : BackupDb) (runId : BackupRunId) (nonce : HexText) :
    Except SqlError BackupDb :=
  updateOperation db (opens runId .pending nonce) fun o =>
    { o with state := .running, stage := .draining }

/-- `p_stage IN ('draining','exporting','verifying')`. -/
def backupStage (stage : String) : Option BackupStage :=
  if stage = "draining" then some .draining
  else if stage = "exporting" then some .exporting
  else if stage = "verifying" then some .verifying
  else none

/-- `v9_controller_advance_personal_backup`. -/
def v9ControllerAdvancePersonalBackup (db : BackupDb) (runId : BackupRunId) (nonce : HexText)
    (stage : String) : Except SqlError BackupDb :=
  match backupStage stage with
  | none => .error ⟨"22023", "invalid backup stage"⟩
  | some stage =>
    updateOperation db (opens runId .running nonce) fun o => { o with stage := stage }

/-- `v9_controller_finish_personal_backup_export`. -/
def v9ControllerFinishPersonalBackupExport (db : BackupDb) (runId : BackupRunId) (nonce : HexText)
    (databaseSha256 manifestSha256 : HexText) (databaseBytes storageBytes : Int) :
    Except SqlError BackupDb :=
  match v4FinishBackupRun db.runs runId true (some databaseSha256) (some manifestSha256)
      (some databaseBytes) (some storageBytes) none with
  | .error e => .error e
  | .ok (_, false) => .error ⟨"55000", "backup run is unavailable"⟩
  | .ok (runs, true) =>
    updateOperation { db with runs := runs } (opens runId .running nonce) fun o =>
      { o with stage := .verifying, manifestSha256 := some manifestSha256 }

/-- `p ~ '^[a-z0-9][a-z0-9._-]{1,63}$'`. -/
def isReasonCode (reason : String) : Bool :=
  2 ≤ reason.toList.length ∧ reason.toList.length ≤ 64 ∧
    reason.toList.head?.any isLowerAlnum ∧
    reason.toList.all fun c => isLowerAlnum c ∨ c = '.' ∨ c = '_' ∨ c = '-'

/-- `v9_controller_fail_personal_backup`. -/
def v9ControllerFailPersonalBackup (db : BackupDb) (runId : BackupRunId) (nonce : HexText)
    (reasonCode : String) : Except SqlError BackupDb :=
  if ¬ isReasonCode reasonCode then .error ⟨"22023", "invalid backup failure"⟩
  else
    match v4FinishBackupRun db.runs runId false none none none none (some reasonCode) with
    | .error e => .error e
    | .ok (runs, _) =>
      updateOperation { db with runs := runs } (opens runId .running nonce)
        (BackupOperation.fail reasonCode)

/-- The `IF … RAISE` of `v9_controller_record_restore_verification`. -/
def checkRestoreVerification (db : BackupDb) (nonce : HexText) (v : RestoreVerification) :
    Except SqlError BackupDb :=
  if ¬ v.manifestSha256.wellFormed ∨ v.verificationProfile ≠ "personal.isolated-restore.v1" ∨
      ¬ (db.runs.any fun r => r.id = v.backupRunId ∧ r.status = .succeeded) ∨
      ¬ (db.operations.any fun o => o.stage = .verifying ∧ opens v.backupRunId .running nonce o) then
    .error ⟨"22023", "invalid restore verification evidence"⟩
  else .ok { db with checked := db.checked ++ [v] }

/-- The statements after it. -/
def recordRestoreVerification (db : BackupDb) (v : RestoreVerification) :
    Except SqlError BackupDb :=
  if db.verifications.any fun w => w.backupRunId = v.backupRunId then
    .error (uniqueViolation "backup_restore_verifications_pkey")
  else
    .ok { db with
      checked := db.checked.erase v
      verifications := db.verifications ++ [v]
      operations := updateWhere (fun o => o.backupRunId = v.backupRunId)
        (fun o => { o with
          state := .succeeded
          stage := .succeeded
          controllerNonceHash := .digest 0 }) db.operations }

/-! ## Runs of calls -/

inductive BackupCall where
  | start (caller : Except SqlError UserId) (nonce : HexText) (runId : BackupRunId)
  | failDelivery (caller : Except SqlError UserId) (runId : BackupRunId) (nonce : HexText)
  | claim (runId : BackupRunId) (nonce : HexText)
  | advance (runId : BackupRunId) (nonce : HexText) (stage : String)
  | finishExport (runId : BackupRunId) (nonce databaseSha256 manifestSha256 : HexText)
    (databaseBytes storageBytes : Int)
  | fail (runId : BackupRunId) (nonce : HexText) (reasonCode : String)
  | check (nonce : HexText) (verification : RestoreVerification)
  | record (verification : RestoreVerification)

def callBackup (db : BackupDb) : BackupCall → Except SqlError BackupDb
  | .start caller nonce runId => v9AdminStartPersonalBackup db caller nonce runId
  | .failDelivery caller runId nonce => v9AdminFailPersonalBackupDelivery db caller runId nonce
  | .claim runId nonce => v9ControllerClaimPersonalBackup db runId nonce
  | .advance runId nonce stage => v9ControllerAdvancePersonalBackup db runId nonce stage
  | .finishExport runId nonce databaseSha256 manifestSha256 databaseBytes storageBytes =>
    v9ControllerFinishPersonalBackupExport db runId nonce databaseSha256 manifestSha256
      databaseBytes storageBytes
  | .fail runId nonce reasonCode => v9ControllerFailPersonalBackup db runId nonce reasonCode
  | .check nonce v => checkRestoreVerification db nonce v
  | .record v =>
    if v ∈ db.checked then recordRestoreVerification db v
    else .error ⟨"22023", "invalid restore verification evidence"⟩

/-- A call that raises changes nothing. -/
def backupStep (db : BackupDb) (call : BackupCall) : BackupDb :=
  match callBackup db call with
  | .error _ => db
  | .ok db' => db'

/-- No running operation has a failed run, and the operations that succeeded are the ones whose run
succeeded and was verified by the manifest of its export. -/
def Consistent (db : BackupDb) : Prop :=
  ∀ o ∈ db.operations,
    (o.state = .running → ∀ r ∈ db.runs, r.id = o.backupRunId → r.status ≠ .failed) ∧
    (o.state = .succeeded ↔
      (∃ r ∈ db.runs, r.id = o.backupRunId ∧ r.status = .succeeded) ∧
      ∃ v ∈ db.verifications, v.backupRunId = o.backupRunId ∧
        o.manifestSha256 = some v.manifestSha256)

instance decidableConsistent (db : BackupDb) : Decidable (Consistent db) :=
  inferInstanceAs (Decidable (∀ o ∈ db.operations,
    (o.state = .running → ∀ r ∈ db.runs, r.id = o.backupRunId → r.status ≠ .failed) ∧
    (o.state = .succeeded ↔
      (∃ r ∈ db.runs, r.id = o.backupRunId ∧ r.status = .succeeded) ∧
      ∃ v ∈ db.verifications, v.backupRunId = o.backupRunId ∧
        o.manifestSha256 = some v.manifestSha256)))

/-- The rows of ended operations are the same after the call. -/
def TerminalKept (db : BackupDb) (call : BackupCall) : Prop :=
  ∀ o ∈ db.operations, o.state.isActive = false → o ∈ (backupStep db call).operations

/-- The steps that do no harm: a delivery failure ends no run under a running operation, a claim takes
up no operation whose run has failed, and a verification is recorded of an operation that still runs,
with the manifest its export recorded. -/
def Harmless (db : BackupDb) : BackupCall → Prop
  | .failDelivery caller runId _ => ∀ actor o r, caller = .ok actor →
    db.operation runId = some o → db.run runId = some r → o.state = .running →
    r.status ≠ .running
  | .claim runId nonce => ∀ o r, db.operation runId = some o → db.run runId = some r →
    o.state = .pending → o.controllerNonceHash = nonce → r.status ≠ .failed
  | .record v => v ∈ db.checked → db.verification v.backupRunId = none →
    ∃ o, db.operation v.backupRunId = some o ∧ o.state = .running ∧
      o.manifestSha256 = some v.manifestSha256
  | _ => True

/-! ## The invariant -/

/-- The rows of one key that may stand together. -/
def Agree : Option BackupOperation → Option BackupRun → Option RestoreVerification → Prop
  | none, _, v => v = none
  | some _, none, _ => False
  | some o, some r, v =>
    match o.state with
    | .pending => r.status ≠ .succeeded ∧ v = none
    | .running => r.status ≠ .failed ∧ v = none
    | .succeeded => r.status = .succeeded ∧
      ∃ w, v = some w ∧ o.manifestSha256 = some w.manifestSha256
    | .failed => v = none

structure BackupInv (db : BackupDb) : Prop where
  runs : Keyed (·.id) db.runs
  operations : Keyed (·.backupRunId) db.operations
  verifications : Keyed (·.backupRunId) db.verifications
  agree : ∀ id, Agree (db.operation id) (db.run id) (db.verification id)
  checked : ∀ v ∈ db.checked, ∃ o r, db.operation v.backupRunId = some o ∧
    db.run v.backupRunId = some r ∧ r.status = .succeeded

theorem backupInv_empty : BackupInv BackupDb.empty where
  runs := List.nodup_nil
  operations := List.nodup_nil
  verifications := List.nodup_nil
  agree _ := rfl
  checked := by simp [BackupDb.empty]

/-- The invariant is about membership too. -/
theorem BackupInv.consistent {db : BackupDb} (h : BackupInv db) : Consistent db := by
  intro o ho
  have hop : db.operation o.backupRunId = some o := h.operations.rowAt_eq_some.mpr ⟨ho, rfl⟩
  have hagree := h.agree o.backupRunId
  rw [hop] at hagree
  have hrow : ∀ r ∈ db.runs, r.id = o.backupRunId → db.run o.backupRunId = some r := by
    intro r hr hid
    exact h.runs.rowAt_eq_some.mpr ⟨hr, hid⟩
  have hver : ∀ v ∈ db.verifications, v.backupRunId = o.backupRunId →
      db.verification o.backupRunId = some v := by
    intro v hv hid
    exact h.verifications.rowAt_eq_some.mpr ⟨hv, hid⟩
  constructor
  · intro hrunning r hr hid
    rw [hrow r hr hid] at hagree
    simp only [Agree, hrunning] at hagree
    exact hagree.1
  · cases hrun : db.run o.backupRunId with
    | none =>
      rw [hrun] at hagree
      exact absurd hagree id
    | some r =>
      rw [hrun] at hagree
      obtain ⟨hr, hid⟩ := h.runs.rowAt_eq_some.mp hrun
      constructor
      · intro hstate
        simp only [Agree, hstate] at hagree
        obtain ⟨hstatus, w, hw, hmanifest⟩ := hagree
        obtain ⟨hwin, hwid⟩ := h.verifications.rowAt_eq_some.mp hw
        exact ⟨⟨r, hr, hid, hstatus⟩, w, hwin, hwid, hmanifest⟩
      · rintro ⟨-, v, hv, hvid, -⟩
        rw [hver v hv hvid] at hagree
        cases hstate : o.state with
        | succeeded => rfl
        | _ =>
          simp only [Agree, hstate] at hagree
          exact absurd hagree (by simp)

section Steps

variable {db db' : BackupDb} {runId : BackupRunId}

/-- A step that changes the rows of one key. -/
theorem inv_of_change (h : BackupInv db) (hruns : Keyed (·.id) db'.runs)
    (hoperations : Keyed (·.backupRunId) db'.operations)
    (hverifications : Keyed (·.backupRunId) db'.verifications)
    (hothers : ∀ id, id ≠ runId → db'.operation id = db.operation id ∧ db'.run id = db.run id ∧
      db'.verification id = db.verification id)
    (hagree : Agree (db'.operation runId) (db'.run runId) (db'.verification runId))
    (hchecked : ∀ v ∈ db'.checked, v ∈ db.checked ∨ v.backupRunId = runId)
    (hkey : ∀ o r, db.operation runId = some o → db.run runId = some r → r.status = .succeeded →
      ∃ o' r', db'.operation runId = some o' ∧ db'.run runId = some r' ∧ r'.status = .succeeded)
    (hnew : ∀ v ∈ db'.checked, v ∉ db.checked → ∃ o r, db.operation runId = some o ∧
      db.run runId = some r ∧ r.status = .succeeded) : BackupInv db' := by
  refine ⟨hruns, hoperations, hverifications, fun id => ?_, fun v hv => ?_⟩
  · by_cases hid : id = runId
    · rw [hid]
      exact hagree
    · obtain ⟨hop, hrun, hver⟩ := hothers id hid
      rw [hop, hrun, hver]
      exact h.agree id
  · by_cases hold : v ∈ db.checked
    · obtain ⟨o, r, hop, hrun, hstatus⟩ := h.checked v hold
      by_cases hid : v.backupRunId = runId
      · rw [hid] at hop hrun ⊢
        exact hkey o r hop hrun hstatus
      · obtain ⟨hop', hrun', -⟩ := hothers _ hid
        exact ⟨o, r, hop'.trans hop, hrun'.trans hrun, hstatus⟩
    · obtain ⟨o, r, hop, hrun, hstatus⟩ := hnew v hv hold
      rcases hchecked v hv with hin | hid
      · exact absurd hin hold
      · rw [hid]
        exact hkey o r hop hrun hstatus

variable {runs : List BackupRun}

/-- The run of a key after it was ended. -/
theorem finish_ok {runs' : List BackupRun} {succeeded found : Bool}
    {databaseSha256 storageManifestSha256 : Option HexText}
    {databaseBytes storageBytes : Option Int} {errorCode : Option String}
    (h : v4FinishBackupRun runs runId succeeded databaseSha256 storageManifestSha256 databaseBytes
      storageBytes errorCode = .ok (runs', found)) :
    found = runs.any (isRunning runId) ∧ (Keyed (·.id) runs → Keyed (·.id) runs') ∧
      (∀ id, id ≠ runId → rowAt (·.id) runs' id = rowAt (·.id) runs id) ∧
      ∀ r, rowAt (·.id) runs runId = some r →
        ∃ r', rowAt (·.id) runs' runId = some r' ∧
          r'.status = if r.status = .running then
            (if succeeded then .succeeded else .failed) else r.status := by
  unfold v4FinishBackupRun at h
  obtain ⟨-, h⟩ := ite_error_eq_ok.mp h
  obtain ⟨-, h⟩ := ite_error_eq_ok.mp h
  obtain ⟨rfl, rfl⟩ := Prod.mk.inj (Except.ok.inj h)
  generalize hf : BackupRun.finished succeeded databaseSha256 storageManifestSha256 databaseBytes
    storageBytes errorCode = f
  have hid : ∀ r : BackupRun, (f r).id = r.id := by
    intro r
    rw [← hf]
    rfl
  refine ⟨rfl, fun hkeyed => hkeyed.updateWhere hid, fun id hne => ?_, fun r hr => ?_⟩
  · exact rowAt_updateWhere_ne hid (fun r hr => (of_decide_eq_true hr).1) hne
  · rw [rowAt_updateWhere hid, hr]
    refine ⟨_, rfl, ?_⟩
    have hrid := rowAt_key hr
    show (if isRunning runId r = true then f r else r).status = _
    by_cases hstatus : r.status = .running
    · have hrunning : isRunning runId r = true := decide_eq_true ⟨hrid, hstatus⟩
      rw [if_pos hstatus, if_pos hrunning, ← hf]
      rfl
    · have hended : ¬ isRunning runId r = true := fun h => hstatus (of_decide_eq_true h).2
      rw [if_neg hstatus, if_neg hended]

variable {nonce : HexText}

variable {state : BackupState} {f : BackupOperation → BackupOperation}

theorem updateOperation_ok (h : BackupInv db) (hf : ∀ o, (f o).backupRunId = o.backupRunId)
    (hok : updateOperation { db with runs := runs } (opens runId state nonce) f = .ok db') :
    ∃ o, db.operation runId = some o ∧ o.state = state ∧ o.controllerNonceHash = nonce ∧
      db' = { db with
        runs := runs
        operations := updateWhere (opens runId state nonce) f db.operations } ∧
      db'.operation runId = some (f o) ∧
      Keyed (·.backupRunId) db'.operations ∧
      ∀ id, id ≠ runId → db'.operation id = db.operation id := by
  unfold updateOperation at hok
  split at hok
  next hany =>
    obtain rfl := Except.ok.inj hok
    have hopens : ∀ o, opens runId state nonce o = true → o.backupRunId = runId := by
      intro o ho
      exact (of_decide_eq_true ho).1
    obtain ⟨o, ho, hpo⟩ := h.operations.rowAt_of_any hopens hany
    obtain ⟨-, hstate, hnonce⟩ := of_decide_eq_true hpo
    refine ⟨o, ho, hstate, hnonce, rfl, ?_, h.operations.updateWhere hf, fun id hne => ?_⟩
    · show rowAt (·.backupRunId) (updateWhere (opens runId state nonce) f db.operations) runId = _
      rw [rowAt_updateWhere hf, ho, Option.map_some, if_pos hpo]
    · exact rowAt_updateWhere_ne hf hopens hne
  · exact absurd hok (by simp)

/-! ## Steps -/

/-- What a call leaves: the invariant, and the rows of ended operations. -/
def Leaves (db db' : BackupDb) : Prop :=
  BackupInv db' ∧ ∀ o ∈ db.operations, o.state.isActive = false → o ∈ db'.operations

theorem mem_updateWhere_of_not {t : List BackupOperation} {p : BackupOperation → Bool}
    {f : BackupOperation → BackupOperation} {o : BackupOperation} (ho : o ∈ t)
    (hp : p o = false) : o ∈ updateWhere p f t := by
  rw [mem_updateWhere]
  exact ⟨o, ho, by rw [hp]; rfl⟩

theorem not_opens {state : BackupState} {nonce : HexText} {o : BackupOperation}
    (h : o.state ≠ state) : ¬ opens runId state nonce o = true :=
  fun ho => h (of_decide_eq_true ho).2.1

variable {o : BackupOperation}

/-- An update of active operations leaves the ended ones. -/
theorem ended_kept {t : List BackupOperation} (hactive : state.isActive = true) (ho : o ∈ t)
    (hended : o.state.isActive = false) : o ∈ updateWhere (opens runId state nonce) f t := by
  have hstate : o.state ≠ state := by
    intro heq
    rw [heq, hactive] at hended
    exact absurd hended (by simp)
  exact mem_updateWhere_of_not ho (Bool.eq_false_iff.mpr (not_opens hstate))

theorem start_leaves (h : BackupInv db) {caller : Except SqlError UserId}
    (hok : v9AdminStartPersonalBackup db caller nonce runId = .ok db') : Leaves db db' := by
  unfold v9AdminStartPersonalBackup at hok
  split at hok
  · exact absurd hok (by simp)
  next actor =>
    obtain ⟨-, hok⟩ := ite_error_eq_ok.mp hok
    split at hok
    · exact absurd hok (by simp)
    next runs hbegin =>
      unfold v4BeginBackupRun at hbegin
      obtain ⟨-, hbegin⟩ := ite_error_eq_ok.mp hbegin
      obtain ⟨hfreshRun, hbegin⟩ := ite_error_eq_ok.mp hbegin
      obtain rfl := Except.ok.inj hbegin
      obtain ⟨hfreshOp, hok⟩ := ite_error_eq_ok.mp hok
      obtain ⟨-, hok⟩ := ite_error_eq_ok.mp hok
      obtain rfl := Except.ok.inj hok
      have hnoRun : ∀ r ∈ db.runs, r.id ≠ runId := by
        intro r hr hid
        exact hfreshRun (List.any_eq_true.mpr ⟨r, hr, by simpa using hid⟩)
      have hnoOp : ∀ o ∈ db.operations, o.backupRunId ≠ runId := by
        intro o ho hid
        exact hfreshOp (List.any_eq_true.mpr ⟨o, ho, by simpa using hid⟩)
      have hrun : db.run runId = none := rowAt_eq_none.mpr hnoRun
      have hop : db.operation runId = none := rowAt_eq_none.mpr hnoOp
      have hver : db.verification runId = none := by
        have hagree := h.agree runId
        rw [hop] at hagree
        exact hagree
      have hop' : ∀ id, rowAt (·.backupRunId) (db.operations ++
          [(⟨runId, actor, .pending, .queued, nonce, none, none⟩ : BackupOperation)]) id =
          if id = runId then some ⟨runId, actor, .pending, .queued, nonce, none, none⟩
          else db.operation id := fun id => rowAt_append hop
      have hrun' : ∀ id, rowAt (·.id) (db.runs ++ [(⟨runId, .running, "personal.attended", none,
          none, none, none, none⟩ : BackupRun)]) id =
          if id = runId then some ⟨runId, .running, "personal.attended", none, none, none, none,
            none⟩ else db.run id := fun id => rowAt_append hrun
      constructor
      · refine @inv_of_change db _ runId h (h.runs.append hnoRun) (h.operations.append hnoOp)
          h.verifications (fun id hid => ⟨?_, ?_, rfl⟩) ?_ (fun v hv => Or.inl hv) ?_
          (fun v hv hnot => absurd hv hnot)
        · exact (hop' id).trans (if_neg hid)
        · exact (hrun' id).trans (if_neg hid)
        · show Agree (rowAt _ _ runId) (rowAt _ _ runId) (db.verification runId)
          rw [hop', hrun', if_pos rfl, if_pos rfl, hver]
          exact ⟨by simp, rfl⟩
        · intro o r ho
          rw [hop] at ho
          exact absurd ho (by simp)
      · intro o ho _
        exact List.mem_append_left _ ho

theorem failDelivery_leaves (h : BackupInv db) {caller : Except SqlError UserId}
    (hsafe : Harmless db (.failDelivery caller runId nonce))
    (hok : v9AdminFailPersonalBackupDelivery db caller runId nonce = .ok db') : Leaves db db' := by
  unfold v9AdminFailPersonalBackupDelivery at hok
  split at hok
  · exact absurd hok (by simp)
  next actor =>
    split at hok
    · exact absurd hok (by simp)
    next runs found hfinish =>
      obtain ⟨-, hkeyed, hothers, hrun'⟩ := finish_ok hfinish
      obtain rfl := Except.ok.inj hok
      have hf : ∀ o : BackupOperation,
          (BackupOperation.fail "controller_unavailable" o).backupRunId = o.backupRunId :=
        fun _ => rfl
      have hopens : ∀ o, opens runId .pending nonce o = true → o.backupRunId = runId :=
        fun o ho => (of_decide_eq_true ho).1
      have hop' : ∀ o, db.operation runId = some o → rowAt (·.backupRunId)
          (updateWhere (opens runId .pending nonce)
            (BackupOperation.fail "controller_unavailable") db.operations) runId =
          some (if opens runId .pending nonce o then
            BackupOperation.fail "controller_unavailable" o else o) := by
        intro o ho
        rw [rowAt_updateWhere hf]
        show Option.map _ (db.operation runId) = _
        rw [ho]
        rfl
      constructor
      · refine @inv_of_change db _ runId h (hkeyed h.runs) (h.operations.updateWhere hf)
          h.verifications (fun id hid => ⟨rowAt_updateWhere_ne hf hopens hid, hothers id hid, rfl⟩)
          ?_ (fun v hv => Or.inl hv) ?_ (fun v hv hnot => absurd hv hnot)
        · have hagree := h.agree runId
          cases ho : db.operation runId with
          | none =>
            have hop : rowAt (·.backupRunId) (updateWhere (opens runId .pending nonce)
                (BackupOperation.fail "controller_unavailable") db.operations) runId = none := by
              rw [rowAt_updateWhere hf]
              show Option.map _ (db.operation runId) = _
              rw [ho]
              rfl
            show Agree (rowAt _ _ runId) _ _
            rw [hop]
            rw [ho] at hagree
            exact hagree
          | some o =>
            cases hr : db.run runId with
            | none =>
              rw [ho, hr] at hagree
              exact absurd hagree id
            | some r =>
              obtain ⟨r', hr', hstatus⟩ := hrun' r hr
              rw [ho, hr] at hagree
              show Agree (rowAt _ _ runId) (rowAt _ _ runId) (db.verification runId)
              rw [hop' o ho, hr']
              have hnotRunning := hsafe actor o r rfl ho hr
              -- the run is not ended under a running operation, and not at all after it succeeded
              cases hstate : o.state with
              | pending =>
                simp only [Agree, hstate] at hagree
                by_cases hpo : opens runId .pending nonce o = true
                · rw [if_pos hpo]
                  exact hagree.2
                · rw [if_neg hpo]
                  simp only [Agree, hstate]
                  refine ⟨?_, hagree.2⟩
                  rw [hstatus]
                  by_cases hrunning : r.status = .running
                  · rw [if_pos hrunning]
                    simp
                  · rw [if_neg hrunning]
                    exact hagree.1
              | running =>
                simp only [Agree, hstate] at hagree
                rw [if_neg (not_opens (by simp [hstate]))]
                simp only [Agree, hstate]
                refine ⟨?_, hagree.2⟩
                rw [hstatus, if_neg (hnotRunning hstate)]
                exact hagree.1
              | succeeded =>
                simp only [Agree, hstate] at hagree
                rw [if_neg (not_opens (by simp [hstate]))]
                simp only [Agree, hstate]
                refine ⟨?_, hagree.2⟩
                rw [hstatus, hagree.1]
                rfl
              | failed =>
                simp only [Agree, hstate] at hagree
                rw [if_neg (not_opens (by simp [hstate]))]
                simp only [Agree, hstate]
                exact hagree
        · intro o r ho hr hsucceeded
          obtain ⟨r', hr', hstatus⟩ := hrun' r hr
          refine ⟨_, r', hop' o ho, hr', ?_⟩
          rw [hstatus, hsucceeded]
          rfl
      · intro o ho hended
        exact ended_kept rfl ho hended

/-- A call that finds its operation and changes it, and perhaps the run. -/
theorem update_leaves (h : BackupInv db)
    (hok : updateOperation { db with runs := runs } (opens runId state nonce) f = .ok db')
    (hactive : state.isActive = true) (hf : ∀ o, (f o).backupRunId = o.backupRunId)
    (hkeyed : Keyed (·.id) runs) (hothers : ∀ id, id ≠ runId → rowAt (·.id) runs id = db.run id)
    (hrow : ∀ r, db.run runId = some r → ∃ r', rowAt (·.id) runs runId = some r' ∧
      (r.status = .succeeded → r'.status = .succeeded))
    (hagree : ∀ o r r', o.state = state → o.controllerNonceHash = nonce →
      db.operation runId = some o → db.run runId = some r → rowAt (·.id) runs runId = some r' →
      Agree (some o) (some r) (db.verification runId) →
      Agree (some (f o)) (some r') (db.verification runId)) : Leaves db db' := by
  obtain ⟨o, ho, hstate, hnonce, rfl, hop', hoperations, hopOthers⟩ := updateOperation_ok h hf hok
  constructor
  · refine @inv_of_change db _ runId h hkeyed hoperations h.verifications
      (fun id hid => ⟨hopOthers id hid, hothers id hid, rfl⟩) ?_ (fun v hv => Or.inl hv) ?_
      (fun v hv hnot => absurd hv hnot)
    · rw [hop']
      have hold := h.agree runId
      rw [ho] at hold
      cases hr : db.run runId with
      | none =>
        rw [hr] at hold
        exact absurd hold id
      | some r =>
        obtain ⟨r', hr', -⟩ := hrow r hr
        rw [hr] at hold
        show Agree _ (rowAt _ runs runId) (db.verification runId)
        rw [hr']
        exact hagree o r r' hstate hnonce ho hr hr' hold
    · intro o' r _ hr hsucceeded
      obtain ⟨r', hr', hstatus⟩ := hrow r hr
      exact ⟨_, r', hop', hr', hstatus hsucceeded⟩
  · intro o' ho' hended
    exact ended_kept hactive ho' hended

theorem claim_leaves (h : BackupInv db) (hsafe : Harmless db (.claim runId nonce))
    (hok : v9ControllerClaimPersonalBackup db runId nonce = .ok db') : Leaves db db' := by
  refine update_leaves h hok rfl (fun _ => rfl) h.runs (fun _ _ => rfl)
    (fun r hr => ⟨r, hr, id⟩) ?_
  intro o r r' hstate hnonce ho hr hr' hold
  obtain rfl := Option.some.inj (hr.symm.trans hr')
  simp only [Agree, hstate] at hold
  exact ⟨hsafe o r ho hr hstate hnonce, hold.2⟩

theorem advance_leaves (h : BackupInv db) {stage : String}
    (hok : v9ControllerAdvancePersonalBackup db runId nonce stage = .ok db') : Leaves db db' := by
  unfold v9ControllerAdvancePersonalBackup at hok
  split at hok
  · exact absurd hok (by simp)
  next stage =>
    refine update_leaves h hok rfl (fun _ => rfl) h.runs (fun _ _ => rfl)
      (fun r hr => ⟨r, hr, id⟩) ?_
    intro o r r' hstate _ _ hr hr' hold
    obtain rfl := Option.some.inj (hr.symm.trans hr')
    simp only [Agree, hstate] at hold ⊢
    exact hold

theorem finishExport_leaves (h : BackupInv db) {databaseSha256 manifestSha256 : HexText}
    {databaseBytes storageBytes : Int}
    (hok : v9ControllerFinishPersonalBackupExport db runId nonce databaseSha256 manifestSha256
      databaseBytes storageBytes = .ok db') : Leaves db db' := by
  unfold v9ControllerFinishPersonalBackupExport at hok
  split at hok
  · exact absurd hok (by simp)
  · exact absurd hok (by simp)
  next runs hfinish =>
    obtain ⟨-, hkeyed, hothers, hrun'⟩ := finish_ok hfinish
    refine update_leaves h hok rfl (fun _ => rfl) (hkeyed h.runs) hothers (fun r hr => ?_) ?_
    · obtain ⟨r', hr', hstatus⟩ := hrun' r hr
      refine ⟨r', hr', fun hsucceeded => ?_⟩
      rw [hstatus, hsucceeded]
      rfl
    · intro o r r' hstate _ _ hr hr' hold
      obtain ⟨r'', hr'', hstatus⟩ := hrun' r hr
      obtain rfl := Option.some.inj (hr'.symm.trans hr'')
      simp only [Agree, hstate] at hold ⊢
      refine ⟨?_, hold.2⟩
      rw [hstatus]
      by_cases hrunning : r.status = .running
      · rw [if_pos hrunning]
        simp
      · rw [if_neg hrunning]
        exact hold.1

theorem fail_leaves (h : BackupInv db) {reasonCode : String}
    (hok : v9ControllerFailPersonalBackup db runId nonce reasonCode = .ok db') : Leaves db db' := by
  unfold v9ControllerFailPersonalBackup at hok
  obtain ⟨-, hok⟩ := ite_error_eq_ok.mp hok
  split at hok
  · exact absurd hok (by simp)
  next runs found hfinish =>
    obtain ⟨-, hkeyed, hothers, hrun'⟩ := finish_ok hfinish
    refine update_leaves h hok rfl (fun _ => rfl) (hkeyed h.runs) hothers (fun r hr => ?_) ?_
    · obtain ⟨r', hr', hstatus⟩ := hrun' r hr
      refine ⟨r', hr', fun hsucceeded => ?_⟩
      rw [hstatus, hsucceeded]
      rfl
    · intro o r r' hstate _ _ _ _ hold
      simp only [Agree, hstate] at hold
      exact hold.2

variable {v : RestoreVerification}

theorem check_leaves (h : BackupInv db) (hok : checkRestoreVerification db nonce v = .ok db') :
    Leaves db db' := by
  unfold checkRestoreVerification at hok
  obtain ⟨hchecks, hok⟩ := ite_error_eq_ok.mp hok
  obtain rfl := Except.ok.inj hok
  simp only [not_or, not_not] at hchecks
  obtain ⟨-, -, hrun, hop⟩ := hchecks
  refine ⟨@inv_of_change db _ v.backupRunId h h.runs h.operations h.verifications
    (fun id _ => ⟨rfl, rfl, rfl⟩) (h.agree _) ?_ (fun o r ho hr hstatus => ⟨o, r, ho, hr, hstatus⟩)
    ?_, fun o ho _ => ho⟩
  · intro w hw
    rcases List.mem_append.mp hw with hw | hw
    · exact Or.inl hw
    · rw [List.mem_singleton.mp hw]
      exact Or.inr rfl
  · intro w _ _
    obtain ⟨o, ho, -⟩ := h.operations.rowAt_of_any
      (fun o ho => (of_decide_eq_true (of_decide_eq_true ho).2).1) hop
    obtain ⟨r, hr, hstatus⟩ := h.runs.rowAt_of_any
      (fun r hr => (of_decide_eq_true hr).1) hrun
    exact ⟨o, r, ho, hr, (of_decide_eq_true hstatus).2⟩

theorem record_leaves (h : BackupInv db) (hin : v ∈ db.checked) (hsafe : Harmless db (.record v))
    (hok : recordRestoreVerification db v = .ok db') : Leaves db db' := by
  unfold recordRestoreVerification at hok
  obtain ⟨hfresh, hok⟩ := ite_error_eq_ok.mp hok
  obtain rfl := Except.ok.inj hok
  have hnone : ∀ w ∈ db.verifications, w.backupRunId ≠ v.backupRunId := by
    intro w hw hid
    exact hfresh (List.any_eq_true.mpr ⟨w, hw, by simpa using hid⟩)
  have hver : db.verification v.backupRunId = none := rowAt_eq_none.mpr hnone
  obtain ⟨o, ho, hstate, hmanifest⟩ := hsafe hin hver
  obtain ⟨-, r, -, hr, hsucceeded⟩ := h.checked v hin
  generalize hf : (fun o : BackupOperation => { o with
    state := .succeeded, stage := .succeeded, controllerNonceHash := .digest 0 }) = f
  have hfid : ∀ o, (f o).backupRunId = o.backupRunId := by
    intro o
    rw [← hf]
  have hop' : rowAt (·.backupRunId)
      (updateWhere (fun o => o.backupRunId = v.backupRunId) f db.operations) v.backupRunId =
      some (f o) := by
    rw [rowAt_updateWhere hfid]
    show Option.map _ (db.operation v.backupRunId) = _
    rw [ho, Option.map_some, if_pos (by simpa using rowAt_key ho)]
  have hver' : ∀ id, rowAt (·.backupRunId) (db.verifications ++ [v]) id =
      if id = v.backupRunId then some v else db.verification id := fun id => rowAt_append hver
  constructor
  · refine @inv_of_change db _ v.backupRunId h h.runs (h.operations.updateWhere hfid)
      (h.verifications.append hnone) (fun id hid => ⟨?_, rfl, ?_⟩) ?_ ?_ ?_ ?_
    · exact rowAt_updateWhere_ne hfid (fun o ho => of_decide_eq_true ho) hid
    · exact (hver' id).trans (if_neg hid)
    · show Agree (rowAt _ _ _) (db.run v.backupRunId) (rowAt _ _ _)
      rw [hop', hr, hver', if_pos rfl, ← hf]
      exact ⟨hsucceeded, v, rfl, hmanifest⟩
    · intro w hw
      exact Or.inl (List.mem_of_mem_erase hw)
    · intro o' r' _ hr' hstatus
      exact ⟨f o, r', hop', hr', hstatus⟩
    · intro w hw hnot
      exact absurd (List.mem_of_mem_erase hw) hnot
  · intro o' ho' hended
    refine mem_updateWhere_of_not ho' ?_
    apply decide_eq_false
    intro hid
    -- the operation of the verification runs
    obtain rfl := h.operations.eq ho' (h.operations.rowAt_eq_some.mp ho).1
      (hid.trans (rowAt_key ho).symm)
    rw [hstate] at hended
    exact absurd hended (by simp [BackupState.isActive])

theorem step_leaves (h : BackupInv db) (call : BackupCall) (hsafe : Harmless db call) :
    Leaves db (backupStep db call) := by
  unfold backupStep
  split
  · exact ⟨h, fun o ho _ => ho⟩
  next after hok =>
    cases call with
    | start caller nonce runId => exact start_leaves h hok
    | failDelivery caller runId nonce => exact failDelivery_leaves h hsafe hok
    | claim runId nonce => exact claim_leaves h hsafe hok
    | advance runId nonce stage => exact advance_leaves h hok
    | finishExport runId nonce databaseSha256 manifestSha256 databaseBytes storageBytes =>
      exact finishExport_leaves h hok
    | fail runId nonce reasonCode => exact fail_leaves h hok
    | check nonce v => exact check_leaves h hok
    | record v =>
      by_cases hin : v ∈ db.checked
      · simp only [callBackup, if_pos hin] at hok
        exact record_leaves h hin hsafe hok
      · simp only [callBackup, if_neg hin] at hok
        exact absurd hok (by simp)

/-! ## The steps that do harm -/

theorem backupStep_ok {call : BackupCall} (h : callBackup db call = .ok db') :
    backupStep db call = db' := by
  unfold backupStep
  rw [h]

theorem failDelivery_breaks (h : BackupInv db) {actor : UserId} {r : BackupRun}
    (ho : db.operation runId = some o) (hr : db.run runId = some r) (hstate : o.state = .running)
    (hstatus : r.status = .running) :
    ¬ Consistent (backupStep db (.failDelivery (.ok actor) runId nonce)) := by
  obtain ⟨runs, found, hfinish⟩ : ∃ runs found, v4FinishBackupRun db.runs runId false none none
      none none (some "controller_unavailable") = .ok (runs, found) := ⟨_, _, rfl⟩
  obtain ⟨-, hkeyed, -, hrun'⟩ := finish_ok hfinish
  obtain ⟨r', hr', hstatus'⟩ := hrun' r hr
  rw [hstatus] at hstatus'
  obtain ⟨hin', hid'⟩ := (hkeyed h.runs).rowAt_eq_some.mp hr'
  obtain ⟨hin, hid⟩ := h.operations.rowAt_eq_some.mp ho
  have hok : v9AdminFailPersonalBackupDelivery db (.ok actor) runId nonce = .ok { db with
      runs := runs
      operations := updateWhere (opens runId .pending nonce)
        (BackupOperation.fail "controller_unavailable") db.operations } := by
    simp only [v9AdminFailPersonalBackupDelivery, hfinish]
  rw [@backupStep_ok db _ (.failDelivery (.ok actor) runId nonce) hok]
  intro hconsistent
  have hkept := @mem_updateWhere_of_not _ _ (BackupOperation.fail "controller_unavailable") _ hin
    (Bool.eq_false_iff.mpr (@not_opens runId .pending nonce o (by simp [hstate])))
  exact (hconsistent o hkept).1 hstate r' hin' (hid'.trans hid.symm) hstatus'

theorem claim_breaks (h : BackupInv db) {r : BackupRun} (ho : db.operation runId = some o)
    (hr : db.run runId = some r) (hstate : o.state = .pending)
    (hnonce : o.controllerNonceHash = nonce) (hstatus : r.status = .failed) :
    ¬ Consistent (backupStep db (.claim runId nonce)) := by
  obtain ⟨hin, hid⟩ := h.operations.rowAt_eq_some.mp ho
  obtain ⟨hrin, hrid⟩ := h.runs.rowAt_eq_some.mp hr
  have hopens : opens runId .pending nonce o = true := decide_eq_true ⟨hid, hstate, hnonce⟩
  have hok : v9ControllerClaimPersonalBackup db runId nonce = .ok { db with
      operations := updateWhere (opens runId .pending nonce)
        (fun o => { o with state := .running, stage := .draining }) db.operations } := by
    unfold v9ControllerClaimPersonalBackup updateOperation
    rw [if_pos (List.any_eq_true.mpr ⟨o, hin, hopens⟩)]
  rw [@backupStep_ok db _ (.claim runId nonce) hok]
  intro hconsistent
  have hclaimed := hconsistent _ (mem_updateWhere.mpr ⟨o, hin, if_pos hopens⟩)
  exact hclaimed.1 rfl r hrin (hrid.trans hid.symm) hstatus

theorem record_breaks (h : BackupInv db) (hin : v ∈ db.checked)
    (hver : db.verification v.backupRunId = none)
    (hnot : ¬ ∃ o, db.operation v.backupRunId = some o ∧ o.state = .running ∧
      o.manifestSha256 = some v.manifestSha256)
    (hconsistent : Consistent (backupStep db (.record v))) (hkept : TerminalKept db (.record v)) :
    False := by
  obtain ⟨o, r, ho, hr, hsucceeded⟩ := h.checked v hin
  obtain ⟨hoin, hid⟩ := h.operations.rowAt_eq_some.mp ho
  have hfresh : ¬ (db.verifications.any fun w => w.backupRunId = v.backupRunId) = true := by
    intro hany
    obtain ⟨w, hw, hwid⟩ := List.any_eq_true.mp hany
    exact rowAt_eq_none.mp hver w hw (of_decide_eq_true hwid)
  unfold TerminalKept at hkept
  simp only [backupStep, callBackup, recordRestoreVerification, if_pos hin, if_neg hfresh]
    at hconsistent hkept
  have hagree := h.agree v.backupRunId
  rw [ho, hr, hver] at hagree
  cases hstate : o.state with
  | pending =>
    simp only [Agree, hstate] at hagree
    exact hagree.1 hsucceeded
  | running =>
    have hwritten := hconsistent _ (mem_updateWhere.mpr ⟨o, hoin, if_pos (decide_eq_true hid)⟩)
    obtain ⟨-, w, hw, hwid, hmanifest⟩ := hwritten.2.mp rfl
    rcases List.mem_append.mp hw with hw | hw
    · exact rowAt_eq_none.mp hver w hw (hwid.trans hid)
    · rw [List.mem_singleton.mp hw] at hmanifest
      exact hnot ⟨o, ho, hstate, hmanifest⟩
  | succeeded =>
    simp only [Agree, hstate] at hagree
    obtain ⟨-, w, hw, -⟩ := hagree
    exact absurd hw (by simp)
  | failed =>
    -- the row of a failed operation would be overwritten
    have hstill := hkept o hoin (by rw [hstate]; rfl)
    obtain ⟨o', -, heq⟩ := mem_updateWhere.mp hstill
    by_cases hid' : o'.backupRunId = v.backupRunId
    · rw [if_pos (decide_eq_true hid')] at heq
      rw [← heq] at hstate
      exact absurd hstate (by simp)
    · rw [if_neg (by simpa using hid')] at heq
      exact hid' (heq ▸ hid)

/-- One step keeps the books right exactly if it is harmless. -/
theorem step_iff (db : BackupDb) (call : BackupCall) (h : BackupInv db) :
    (Consistent (backupStep db call) ∧ TerminalKept db call) ↔ Harmless db call := by
  constructor
  · rintro ⟨hconsistent, hkept⟩
    cases call with
    | failDelivery caller runId nonce =>
      intro actor o r hcaller ho hr hstate hstatus
      subst hcaller
      exact failDelivery_breaks h ho hr hstate hstatus hconsistent
    | claim runId nonce =>
      intro o r ho hr hstate hnonce hstatus
      exact claim_breaks h ho hr hstate hnonce hstatus hconsistent
    | record v =>
      intro hin hver
      by_contra hnot
      exact record_breaks h hin hver hnot hconsistent hkept
    | _ => trivial
  · intro hsafe
    obtain ⟨hinv, hkept⟩ := step_leaves h call hsafe
    exact ⟨hinv.consistent, hkept⟩

end Steps

/-- Along a run of any calls for any number of backups the books are right and ended operations stay as
they are, after every step, exactly if every step is harmless. -/
theorem backups_iff (calls : List BackupCall) :
    Along backupStep (fun db call => Consistent (backupStep db call) ∧ TerminalKept db call)
      BackupDb.empty calls ↔ Along backupStep Harmless BackupDb.empty calls :=
  along_congr BackupInv step_iff (fun _ call hsafe h => (step_leaves h call hsafe).1)
    backupInv_empty

/-- The API takes the controller for unreachable after it has claimed the backup: the operation runs on
with a failed run. And a verification by another manifest than the exported one ends its
operation as verified. -/
theorem backups_not_consistent :
    ¬ Consistent (run backupStep BackupDb.empty [.start (.ok 1) (.digest 7) 1,
      .claim 1 (.digest 7), .failDelivery (.ok 1) 1 (.digest 7)]) ∧
    ¬ Consistent (run backupStep BackupDb.empty [.start (.ok 1) (.digest 7) 1,
      .claim 1 (.digest 7), .finishExport 1 (.digest 7) (.digest 2) (.digest 3) 10 20,
      .check (.digest 7) ⟨1, .digest 4, "personal.isolated-restore.v1"⟩,
      .record ⟨1, .digest 4, "personal.isolated-restore.v1"⟩]) := by
  decide +kernel

end LocalRag.Admin
