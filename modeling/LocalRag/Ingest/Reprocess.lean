import LocalRag.Ingest.Jobs

/-!
# Reprocessing operations

`v10_admin_preview_reprocessing`, `v10_admin_issue_reprocessing_grant`,
`v10_admin_start_reprocessing`, `v10_admin_pause_reprocessing`,
`v10_admin_resume_reprocessing`, `v10_admin_cancel_reprocessing`,
`v10_admin_retry_reprocessing`, `v10_admin_rollback_embedding_generation` and
`v10_admin_cleanup_generation` of `0010_versioned_reprocessing`.

An administrator previews an operation, proves their password for it and starts
it. A reingestion adds a `building` generation and a queued job for each ready
document it selects; a reindex adds an embedding generation and one task for
each chunk of an active document generation. The ready version is served until
a job of the new one commits.

Mirroring notes. The impact digest is the fields it hashes. An operation type
that is neither of the two texts is `none`. The generations and the jobs of one
start get consecutive ids from the ones it draws. `profile_id`, `stage`,
`finished_at` and the `qualification` documents are left out; no modelled
function reads them.
-/

namespace LocalRag.Ingest

open LocalRag.Core Access Library Storage

/-- `interval '30 days'`. -/
def thirtyDays : Time := 30 * 24 * 60 * minute

/-- `state IN ('running','paused','qualifying')`. -/
def OperationState.isActive : OperationState → Bool
  | .running | .paused | .qualifying => true
  | _ => false

/-- The caller, an administrator, and the session of their token. -/
def adminSession (db : Db) (token : Option HexText) : Except SqlError (UserId × SessionId) :=
  match v4RequireAdmin db token with
  | .error e => .error e
  | .ok actor =>
    match db.accounts.sessions.find? fun s => token = some s.tokenHash ∧ s.revokedAt = none with
    | none => .error noDataFound
    | some session => .ok (actor, session.id)

/-- A restore verification of a succeeded backup within thirty days. -/
def backupVerified (db : Db) : Bool :=
  db.reprocessing.backupVerifications.any fun t => db.now ≤ t + thirtyDays

/-! ## Preview and grant -/

/-- The parser and chunking versions of a parser profile. -/
def parserProfile (profileId : String) : Option (String × String) :=
  if profileId = "parser.paddleocr-vl-1.6.adaptive-v2" then
    some ("pypdf+paddleocr-vl-v1.6-adaptive-v2", "fragment-paragraph-sentence-v2")
  else if profileId = "parser.paddleocr-vl-1.6.legacy-v1" then
    some ("pypdf+paddleocr-vl-v1.6", "paragraph-sentence-v1")
  else none

/-- `WHERE document.state = 'ready' AND … parser_version …`. -/
def isReingestTarget (sourceParserVersion targetParserVersion : Option String) (d : Document) :
    Bool :=
  d.state = .ready ∧ (sourceParserVersion.all fun v => d.parserVersion = v) ∧
    targetParserVersion.any fun v => d.parserVersion ≠ v

/-- The chunks of the active generations of the ready documents. -/
def servedChunks (db : Db) : List Chunk :=
  (db.content.documents.filter fun d => d.state = .ready).flatMap fun d =>
    db.content.chunks.filter fun c => c.documentGenerationId = d.activeGenerationId

/-- What a reindex into the one embedding profile would do. -/
def reindexImpact (db : Db) (targetProfileId : String) : ReprocessingImpact :=
  { operationType := .reindex
    targetProfileId := targetProfileId
    sourceParserVersion := none
    targetParserVersion := none
    targetChunkingVersion := none
    targetEmbeddingVersion := some "qwen3-embedding-0.6b-1024"
    targetDimension := some 1024
    documentCount := (db.content.documents.filter fun d => d.state = .ready ∧
      db.content.chunks.any fun c => c.documentGenerationId = d.activeGenerationId).length
    chunkCount := (servedChunks db).length
    estimatedBytes := (servedChunks db).length * 1024 * 4 }

/-- What a reingestion with this parser profile would do. -/
def reingestImpact (db : Db) (targetProfileId : String) (sourceParserVersion : Option String)
    (target : String × String) : ReprocessingImpact :=
  let targets := db.content.documents.filter (isReingestTarget sourceParserVersion target.1)
  { operationType := .reingestion
    targetProfileId := targetProfileId
    sourceParserVersion := sourceParserVersion
    targetParserVersion := some target.1
    targetChunkingVersion := some target.2
    targetEmbeddingVersion := none
    targetDimension := none
    documentCount := targets.length
    chunkCount := (targets.map (·.chunkCount)).sum
    estimatedBytes := (targets.map (·.byteSize)).sum }

/-- The `IF p_operation_type …` of the preview. -/
def reprocessingImpact (db : Db) (operationType : Option OperationType) (targetProfileId : String)
    (sourceParserVersion : Option String) : Except SqlError ReprocessingImpact :=
  match operationType with
  | some .reindex =>
    if targetProfileId ≠ "embedding.qwen3-0.6b-1024.ollama.windows-x64" ∨
        sourceParserVersion ≠ none then
      .error ⟨"22023", "embedding profile is unavailable"⟩
    else .ok (reindexImpact db targetProfileId)
  | some .reingestion =>
    match parserProfile targetProfileId with
    | none => .error ⟨"22023", "parser profile is unavailable"⟩
    | some target => .ok (reingestImpact db targetProfileId sourceParserVersion target)
  | none => .error ⟨"22023", "invalid reprocessing operation"⟩

/-- `v10_admin_preview_reprocessing`; it answers the preview and `backup_verified`. -/
def v10AdminPreviewReprocessing (db : Db) (token : Option HexText) (previewId : PreviewId)
    (operationType : Option OperationType) (targetProfileId : String)
    (sourceParserVersion : Option String) : Except SqlError (Db × ReprocessingPreview × Bool) :=
  match adminSession db token with
  | .error e => .error e
  | .ok (actor, sessionId) =>
    if db.reprocessing.operations.any fun o => OperationState.isActive o.state then
      .error ⟨"40001", "a reprocessing operation is already active"⟩
    else
      match reprocessingImpact db operationType targetProfileId sourceParserVersion with
      | .error e => .error e
      | .ok impact =>
        if impact.documentCount = 0 ∨ impact.chunkCount = 0 then
          .error ⟨"22023", "no ready content matches this operation"⟩
        else if db.reprocessing.previews.any fun p => p.id = previewId then
          .error (uniqueViolation "reprocessing_previews_pkey")
        else
          let preview : ReprocessingPreview :=
            ⟨previewId, actor, sessionId, impact, db.now + 5 * minute, none⟩
          .ok ({ db with reprocessing.previews := db.reprocessing.previews ++ [preview] },
            preview, backupVerified db)

/-- The preview is the caller's, for this impact, unspent and unexpired. -/
def previewMatches (db : Db) (actor : UserId) (sessionId : SessionId) (impact : ReprocessingImpact)
    (p : ReprocessingPreview) : Bool :=
  p.actorUserId = actor ∧ p.sessionId = sessionId ∧ p.impact = impact ∧ p.consumedAt = none ∧
    db.now < p.expiresAt

/-- `v10_admin_issue_reprocessing_grant`. -/
def v10AdminIssueReprocessingGrant (db : Db) (token : Option HexText) (previewId : PreviewId)
    (impact : ReprocessingImpact) (tokenHash : HexText) : Except SqlError (Db × Time) :=
  match adminSession db token with
  | .error e => .error e
  | .ok (actor, sessionId) =>
    if ¬ tokenHash.wellFormed ∨ ¬ db.reprocessing.previews.any fun p =>
        p.id = previewId ∧ previewMatches db actor sessionId impact p then
      .error ⟨"40001", "reprocessing preview is stale"⟩
    else if db.reprocessing.reauthenticationGrants.any fun g => g.tokenHash = tokenHash then
      .error (uniqueViolation "system_reauthentication_grants_token_hash_key")
    else
      let grant : ReauthenticationGrant :=
        ⟨tokenHash, actor, sessionId, impact, db.now + 5 * minute, none⟩
      .ok ({ db with
        reprocessing.reauthenticationGrants := db.reprocessing.reauthenticationGrants ++ [grant] },
        db.now + 5 * minute)

/-! ## Start -/

/-- The ids one start draws. -/
structure StartIds where
  operationId : OperationId
  /-- The embedding generation of a reindex. -/
  embeddingGenerationId : GenerationId
  /-- The first document generation of a reingestion. -/
  generationId : GenerationId
  /-- The first job of a reingestion. -/
  jobId : JobId
deriving Repr, DecidableEq

/-- `INSERT INTO reprocessing_operations`: the totals are the preview's. -/
def startedOperation (ids : StartIds) (preview : ReprocessingPreview) : ReprocessingOperation :=
  { id := ids.operationId
    previewId := preview.id
    operationType := preview.impact.operationType
    state := .running
    sourceParserVersion := preview.impact.sourceParserVersion
    targetParserVersion := preview.impact.targetParserVersion
    targetChunkingVersion := preview.impact.targetChunkingVersion
    operationGenerationId := none
    totalDocuments := preview.impact.documentCount
    completedDocuments := 0
    failedDocuments := 0
    totalChunks := preview.impact.chunkCount
    completedChunks := 0
    reasonCode := none
    leaseOwner := none
    leaseToken := none
    leaseExpiresAt := none
    fencingToken := 0 }

/-- The embedding generation a reindex builds. -/
def reindexGeneration (db : Db) (ids : StartIds) (impact : ReprocessingImpact) :
    EmbeddingGeneration :=
  { id := ids.embeddingGenerationId
    operationId := some ids.operationId
    embeddingVersion := impact.targetEmbeddingVersion.getD ""
    dimension := impact.targetDimension.getD 0
    state := .building
    retiredAt := none
    sourceGenerationId := some db.reprocessing.activeEmbeddingGeneration }

/-- The task of one chunk. -/
def reindexTask (now : Time) (ids : StartIds) (c : Chunk) : ReindexTask :=
  { operationId := ids.operationId
    generationId := ids.embeddingGenerationId
    chunkId := c.id
    state := .queued
    attempt := 0
    leaseOwner := none
    leaseToken := none
    leaseExpiresAt := none
    fencingToken := 0
    error := none
    createdAt := now }

/-- The generation a reingestion builds for a document. -/
def reingestGeneration (ids : StartIds) (impact : ReprocessingImpact) (i : Nat) (d : Document) :
    DocumentGeneration :=
  { id := ids.generationId + i
    documentId := d.id
    operationId := some ids.operationId
    parserVersion := impact.targetParserVersion.getD ""
    chunkingVersion := impact.targetChunkingVersion.getD ""
    state := .building
    pageCount := none
    chunkCount := 0
    error := none
    readyAt := none
    retiredAt := none }

/-- The job that builds it. -/
def reingestJob (now : Time) (ids : StartIds) (i : Nat) (d : Document) : IngestionJob :=
  queuedJob now (ids.jobId + i) d.id (ids.generationId + i) (some ids.operationId)

/-- `RAISE … '40001'` of the `unique_violation` handler. -/
def alreadyActive : SqlError := ⟨"40001", "a reprocessing operation is already active"⟩

/-- The branch of a reindex. -/
def startReindex (db : Db) (ids : StartIds) (impact : ReprocessingImpact) : Except SqlError Db :=
  if db.reprocessing.embeddingGenerations.any fun g => g.id = ids.embeddingGenerationId then
    .error alreadyActive
  else
    .ok { db with
      reprocessing.embeddingGenerations :=
        db.reprocessing.embeddingGenerations ++ [reindexGeneration db ids impact]
      reprocessing.operations := updateWhere (fun o => o.id = ids.operationId)
        (fun o => { o with operationGenerationId := some ids.embeddingGenerationId })
        db.reprocessing.operations
      reprocessing.reindexTasks := db.reprocessing.reindexTasks ++
        (servedChunks db).map (reindexTask db.now ids) }

/-- The documents a reingestion selects, as they are when it starts. -/
def reingestTargets (db : Db) (impact : ReprocessingImpact) : List Document :=
  db.content.documents.filter
    (isReingestTarget impact.sourceParserVersion impact.targetParserVersion)

/-- The branch of a reingestion. -/
def startReingestion (db : Db) (ids : StartIds) (impact : ReprocessingImpact) :
    Except SqlError Db :=
  let generations := (reingestTargets db impact).mapIdx (reingestGeneration ids impact)
  let jobs := (reingestTargets db impact).mapIdx (reingestJob db.now ids)
  if (db.content.generations.any fun g => generations.any fun g' => g.id = g'.id) ∨
      db.content.jobs.any fun j => jobs.any fun j' => j.id = j'.id then
    .error alreadyActive
  else
    .ok { db with
      content.generations := db.content.generations ++ generations
      content.jobs := db.content.jobs ++ jobs }

/-- The grant and the preview are spent. -/
def consumeStart (db : Db) (previewId : PreviewId) (tokenHash : HexText) : Db :=
  { db with
    reprocessing.previews := updateWhere (fun p => p.id = previewId)
      (fun p => { p with consumedAt := some db.now }) db.reprocessing.previews
    reprocessing.reauthenticationGrants := updateWhere (fun g => g.tokenHash = tokenHash)
      (fun g => { g with consumedAt := some db.now }) db.reprocessing.reauthenticationGrants }

/-- The grant is the caller's, for this impact, unspent and unexpired. -/
def grantMatches (db : Db) (actor : UserId) (sessionId : SessionId) (impact : ReprocessingImpact)
    (g : ReauthenticationGrant) : Bool :=
  g.actorUserId = actor ∧ g.sessionId = sessionId ∧ g.impact = impact ∧ g.consumedAt = none ∧
    db.now < g.expiresAt

/-- The start once it is authorized. -/
def startOperation (db : Db) (ids : StartIds) (preview : ReprocessingPreview)
    (tokenHash : HexText) : Except SqlError (Db × OperationId) :=
  if (db.reprocessing.operations.any fun o => o.id = ids.operationId) ∨
      (db.reprocessing.operations.any fun o => o.previewId = preview.id) ∨
      db.reprocessing.operations.any fun o => OperationState.isActive o.state then
    .error alreadyActive
  else
    let inserted : Db := { db with
      reprocessing.operations := db.reprocessing.operations ++ [startedOperation ids preview] }
    match (match preview.impact.operationType with
      | .reindex => startReindex inserted ids preview.impact
      | .reingestion => startReingestion inserted ids preview.impact) with
    | .error e => .error e
    | .ok started => .ok (consumeStart started preview.id tokenHash, ids.operationId)

/-- `v10_admin_start_reprocessing`. -/
def v10AdminStartReprocessing (db : Db) (token : Option HexText) (ids : StartIds)
    (previewId : PreviewId) (impact : ReprocessingImpact) (tokenHash : HexText) :
    Except SqlError (Db × OperationId) :=
  match adminSession db token with
  | .error e => .error e
  | .ok (actor, sessionId) =>
    match (db.reprocessing.previews.find? fun p => p.id = previewId).filter
          (previewMatches db actor sessionId impact),
        (db.reprocessing.reauthenticationGrants.find? fun g => g.tokenHash = tokenHash).filter
          (grantMatches db actor sessionId impact) with
    | some preview, some _ =>
      if ¬ backupVerified db then
        .error ⟨"55000", "a current restore-verified backup is required"⟩
      else startOperation db ids preview tokenHash
    | _, _ => .error ⟨"28000", "reprocessing authorization is invalid or stale"⟩

/-! ## Pause, resume, cancel, retry -/

/-- A task or a job of the operation is running. -/
def hasRunningWork (db : Db) (operationId : OperationId) : Bool :=
  (db.reprocessing.reindexTasks.any fun t => t.operationId = operationId ∧ t.state = .running) ∨
    db.content.jobs.any fun j =>
      j.reprocessingOperationId = some operationId ∧ j.status = .running

/-- `UPDATE reprocessing_operations SET state = … WHERE id = … AND state = …`, and
whether it found the row. -/
def moveOperation (db : Db) (operationId : OperationId) (source target : OperationState) :
    Db × Bool :=
  ({ db with
    reprocessing.operations := updateWhere (fun o => o.id = operationId ∧ o.state = source)
      (fun o => { o with state := target }) db.reprocessing.operations },
    db.reprocessing.operations.any fun o => o.id = operationId ∧ o.state = source)

/-- `v10_admin_pause_reprocessing`. -/
def v10AdminPauseReprocessing (db : Db) (token : Option HexText) (operationId : OperationId) :
    Except SqlError (Db × Bool) :=
  match v4RequireAdmin db token with
  | .error e => .error e
  | .ok _ =>
    if hasRunningWork db operationId then
      .error ⟨"40001", "operation is between safe pause boundaries"⟩
    else .ok (moveOperation db operationId .running .paused)

/-- `v10_admin_resume_reprocessing`. -/
def v10AdminResumeReprocessing (db : Db) (token : Option HexText) (operationId : OperationId) :
    Except SqlError (Db × Bool) :=
  match v4RequireAdmin db token with
  | .error e => .error e
  | .ok _ => .ok (moveOperation db operationId .paused .running)

/-- The database a cancelled operation leaves. -/
def cancelledDb (db : Db) (operationId : OperationId) : Db :=
  { db with
    content.jobs := deleteWhere (fun j => j.reprocessingOperationId = some operationId ∧
      (j.status = .queued ∨ j.status = .failed ∨ j.status = .interrupted)) db.content.jobs
    content.generations := updateWhere (fun g => g.operationId = some operationId ∧
        (g.state = .building ∨ g.state = .failed))
      (fun g => { g with state := .abandoned, retiredAt := some db.now }) db.content.generations
    reprocessing.embeddingGenerations := updateWhere
      (fun g => g.operationId = some operationId ∧ (g.state = .building ∨ g.state = .qualified))
      (fun g => { g with state := .abandoned, retiredAt := some db.now })
      db.reprocessing.embeddingGenerations
    reprocessing.operations := updateWhere (fun o => o.id = operationId)
      (fun o => { o with state := .cancelled, reasonCode := some "cancelled_by_admin" })
      db.reprocessing.operations }

/-- `v10_admin_cancel_reprocessing`. -/
def v10AdminCancelReprocessing (db : Db) (token : Option HexText) (operationId : OperationId) :
    Except SqlError (Db × Bool) :=
  match v4RequireAdmin db token with
  | .error e => .error e
  | .ok _ =>
    match db.reprocessing.operations.find? fun o => o.id = operationId with
    | none => .ok (db, false)
    | some operation =>
      if (operation.state ≠ .paused ∧ operation.state ≠ .failed) ∨
          hasRunningWork db operationId then .ok (db, false)
      else .ok (cancelledDb db operationId, true)

/-- The job row a retry queues again: its units and its attempt stay. -/
def retriedJob (now : Time) (j : IngestionJob) : IngestionJob :=
  { j with
    status := .queued
    stage := .uploaded
    error := none
    availableAt := now
    leaseOwner := none
    leaseToken := none
    leaseExpiresAt := none }

/-- What a retry does to the work of the operation. -/
def retriedWork (db : Db) (operation : ReprocessingOperation) : Db :=
  match operation.operationType with
  | .reindex => { db with
      reprocessing.reindexTasks := updateWhere
        (fun t => t.operationId = operation.id ∧ t.state = .failed ∧ t.attempt < 3)
        (fun t => { t with
          state := .queued, error := none
          leaseOwner := none, leaseToken := none, leaseExpiresAt := none })
        db.reprocessing.reindexTasks
      reprocessing.embeddingGenerations := updateWhere
        (fun g => g.operationId = some operation.id)
        (fun g => { g with state := .building, retiredAt := none })
        db.reprocessing.embeddingGenerations }
  | .reingestion => { db with
      content.jobs := updateWhere
        (fun j => j.reprocessingOperationId = some operation.id ∧ j.status = .failed)
        (retriedJob db.now) db.content.jobs
      content.generations := updateWhere
        (fun g => g.operationId = some operation.id ∧ g.state = .failed)
        (fun g => { g with state := .building, error := none, retiredAt := none })
        db.content.generations }

/-- The operation row after a retry. -/
def retriedOperation (o : ReprocessingOperation) : ReprocessingOperation :=
  { o with state := .running, reasonCode := none, failedDocuments := 0 }

/-- `v10_admin_retry_reprocessing`. -/
def v10AdminRetryReprocessing (db : Db) (token : Option HexText) (operationId : OperationId) :
    Except SqlError (Db × Bool) :=
  match v4RequireAdmin db token with
  | .error e => .error e
  | .ok _ =>
    match db.reprocessing.operations.find? fun o => o.id = operationId with
    | none => .ok (db, false)
    | some operation =>
      if operation.state ≠ .failed then .ok (db, false)
      else if db.reprocessing.operations.any fun o => OperationState.isActive o.state then
        .error (uniqueViolation "uq_reprocessing_active_operation")
      else
        let retried := retriedWork db operation
        .ok ({ retried with
          reprocessing.operations := updateWhere (fun o => o.id = operationId) retriedOperation
            retried.reprocessing.operations }, true)

/-! ## Rollback and cleanup -/

/-- `v10_admin_rollback_embedding_generation`. -/
def v10AdminRollbackEmbeddingGeneration (db : Db) (token : Option HexText)
    (generationId : GenerationId) : Except SqlError (Db × Bool) :=
  match v4RequireAdmin db token with
  | .error e => .error e
  | .ok _ =>
    if ¬ db.reprocessing.embeddingGenerations.any fun g => g.id = generationId ∧
        g.state = .retained ∧ g.retiredAt.any fun t => db.now ≤ t + thirtyDays then
      .ok (db, false)
    else
      let retired := updateWhere (fun g => g.id = db.reprocessing.activeEmbeddingGeneration)
        (fun g => { g with state := .retained, retiredAt := some db.now })
        db.reprocessing.embeddingGenerations
      .ok ({ db with
        reprocessing.embeddingGenerations := updateWhere (fun g => g.id = generationId)
          (fun g => { g with state := .active, retiredAt := none }) retired
        reprocessing.activeEmbeddingGeneration := generationId }, true)

/-- The document generation may be removed. -/
def isCleanableGeneration (db : Db) (generationId : GenerationId) (g : DocumentGeneration) :
    Bool :=
  g.id = generationId ∧ g.operationId ≠ none ∧
    (g.state = .retained ∨ g.state = .abandoned ∨ g.state = .failed) ∧
    ¬ db.content.documents.any fun d => d.activeGenerationId = g.id

/-- `DELETE FROM document_generations` with its chunks and its jobs. -/
def deleteGenerationRows (db : Db) (generationId : GenerationId) : Db :=
  let cleared := deleteChunks (fun c => c.documentGenerationId = generationId) db
  { cleared with
    content.generations := deleteWhere (fun g => g.id = generationId) cleared.content.generations
    content.jobs := deleteWhere (fun j => j.targetGenerationId = generationId) cleared.content.jobs
    reprocessing.chunkEmbeddings := deleteWhere (fun e => e.documentGenerationId = generationId)
      cleared.reprocessing.chunkEmbeddings }

/-- The embedding generation may be removed. -/
def isCleanableEmbedding (db : Db) (generationId : GenerationId) (g : EmbeddingGeneration) :
    Bool :=
  g.id = generationId ∧ g.operationId ≠ none ∧
    (g.state = .retained ∨ g.state = .abandoned) ∧
    g.id ≠ db.reprocessing.activeEmbeddingGeneration

/-- `DELETE FROM embedding_generations` with its vectors and its tasks. -/
def deleteEmbeddingRows (db : Db) (generationId : GenerationId) : Db :=
  { db with
    reprocessing.embeddingGenerations := deleteWhere (fun g => g.id = generationId)
      db.reprocessing.embeddingGenerations
    reprocessing.chunkEmbeddings := deleteWhere (fun e => e.embeddingGenerationId = generationId)
      db.reprocessing.chunkEmbeddings
    reprocessing.reindexTasks := deleteWhere (fun t => t.generationId = generationId)
      db.reprocessing.reindexTasks }

/-- `p_generation_type`. -/
inductive GenerationType where
  | embedding
  | document
  | other
deriving Repr, DecidableEq

/-- `v10_admin_cleanup_generation`. -/
def v10AdminCleanupGeneration (db : Db) (token : Option HexText) (generationType : GenerationType)
    (generationId : GenerationId) : Except SqlError (Db × Bool) :=
  match v4RequireAdmin db token with
  | .error e => .error e
  | .ok _ =>
    match generationType with
    | .embedding =>
      if ¬ db.reprocessing.embeddingGenerations.any (isCleanableEmbedding db generationId) then
        .ok (db, false)
      else if db.reprocessing.embeddingGenerations.any fun g =>
          g.sourceGenerationId = some generationId then
        .error (foreignKeyViolation "embedding_generations_source_generation_id_fkey")
      else if db.chat.turns.any fun t => t.embeddingGenerationId = generationId then
        .error (foreignKeyViolation "fk_chat_turn_embedding_generation")
      else .ok (deleteEmbeddingRows db generationId, true)
    | .document =>
      if ¬ db.content.generations.any (isCleanableGeneration db generationId) then
        .ok (db, false)
      else .ok (deleteGenerationRows db generationId, true)
    | .other => .error ⟨"22023", "invalid generation type"⟩

/-! ## What each call can do -/

/-- The generations and jobs a started reingestion adds. -/
def startedContent (db : Db) (ids : StartIds) (impact : ReprocessingImpact) : Content :=
  { db.content with
    generations := db.content.generations ++
      (reingestTargets db impact).mapIdx (reingestGeneration ids impact)
    jobs := db.content.jobs ++ (reingestTargets db impact).mapIdx (reingestJob db.now ids) }

variable {token : Option HexText}

variable {db db' : Db} {previewId : PreviewId}

/-- A preview and a grant add a row of their own. -/
theorem v10AdminPreviewReprocessing_ok {operationType : Option OperationType}
    {targetProfileId : String} {source : Option String} {r : ReprocessingPreview × Bool}
    (h : v10AdminPreviewReprocessing db token previewId operationType targetProfileId source =
      .ok (db', r)) : ∃ previews, db' = { db with reprocessing.previews := previews } := by
  unfold v10AdminPreviewReprocessing at h
  split at h
  · cases h
  · rw [ite_error_eq_ok] at h
    obtain ⟨_, h⟩ := h
    split at h
    · cases h
    · simp only [ite_error_eq_ok] at h
      exact ⟨_, (left_of_ok h.2.2).symm⟩

theorem v10AdminIssueReprocessingGrant_ok {impact : ReprocessingImpact} {tokenHash : HexText}
    {r : Time}
    (h : v10AdminIssueReprocessingGrant db token previewId impact tokenHash = .ok (db', r)) :
    ∃ grants, db' = { db with reprocessing.reauthenticationGrants := grants } := by
  unfold v10AdminIssueReprocessingGrant at h
  split at h
  · cases h
  · simp only [ite_error_eq_ok] at h
    exact ⟨_, (left_of_ok h.2.2).symm⟩

/-- The operation a start adds; a reindex knows the generation it builds. -/
def insertedOperation (ids : StartIds) (preview : ReprocessingPreview) : ReprocessingOperation :=
  match preview.impact.operationType with
  | .reindex => { startedOperation ids preview with
      operationGenerationId := some ids.embeddingGenerationId }
  | .reingestion => startedOperation ids preview

/-- The database a started reindex leaves, but for what it spent. -/
def startedReindexDb (db : Db) (ids : StartIds) (preview : ReprocessingPreview) : Db :=
  { db with
    reprocessing.embeddingGenerations :=
      db.reprocessing.embeddingGenerations ++ [reindexGeneration db ids preview.impact]
    reprocessing.operations := db.reprocessing.operations ++ [insertedOperation ids preview]
    reprocessing.reindexTasks := db.reprocessing.reindexTasks ++
      (servedChunks db).map (reindexTask db.now ids) }

/-- The database a started reingestion leaves, but for what it spent. -/
def startedReingestionDb (db : Db) (ids : StartIds) (preview : ReprocessingPreview) : Db :=
  { db with
    content := startedContent db ids preview.impact
    reprocessing.operations := db.reprocessing.operations ++ [insertedOperation ids preview] }

/-- The two kinds of start, under ids no row has. -/
inductive Started (db : Db) (ids : StartIds) (preview : ReprocessingPreview) : Db → Prop where
  | reindex (type : preview.impact.operationType = .reindex)
      (fresh : ∀ g ∈ db.reprocessing.embeddingGenerations, g.id ≠ ids.embeddingGenerationId) :
      Started db ids preview (startedReindexDb db ids preview)
  | reingestion (type : preview.impact.operationType = .reingestion)
      (freshGenerations : ∀ g ∈ db.content.generations,
        ∀ g' ∈ (reingestTargets db preview.impact).mapIdx (reingestGeneration ids preview.impact),
          g.id ≠ g'.id)
      (freshJobs : ∀ j ∈ db.content.jobs,
        ∀ j' ∈ (reingestTargets db preview.impact).mapIdx (reingestJob db.now ids), j.id ≠ j'.id) :
      Started db ids preview (startedReingestionDb db ids preview)

/-- An update that only the row just added meets. -/
theorem updateWhere_append_new {ρ : Type} {p : ρ → Bool} {f : ρ → ρ} {t : List ρ} {a : ρ}
    (hold : ∀ x ∈ t, p x = false) (hnew : p a = true) :
    updateWhere p f (t ++ [a]) = t ++ [f a] := by
  have hleft := updateWhere_eq_self (f := f) hold
  unfold updateWhere at hleft ⊢
  rw [List.map_append, hleft, List.map_singleton, if_pos hnew]

/-- A start adds its operation and the work of it, and spends the preview and the grant. -/
theorem v10AdminStartReprocessing_ok {ids : StartIds} {impact : ReprocessingImpact}
    {tokenHash : HexText} {r : OperationId}
    (h : v10AdminStartReprocessing db token ids previewId impact tokenHash = .ok (db', r)) :
    ∃ preview started, preview.impact = impact ∧
      (∀ o ∈ db.reprocessing.operations, o.id ≠ ids.operationId) ∧
      Started db ids preview started ∧ db' = consumeStart started preview.id tokenHash := by
  unfold v10AdminStartReprocessing at h
  split at h
  · cases h
  split at h
  next actor sessionId _ _ _ preview _ hpreview _ =>
    have himpact : preview.impact = impact := by
      have hmatch := (Option.filter_eq_some_iff.mp hpreview).2
      simp only [previewMatches, decide_eq_true_eq] at hmatch
      exact hmatch.2.2.1
    rw [ite_error_eq_ok] at h
    obtain ⟨_, h⟩ := h
    unfold startOperation at h
    rw [ite_error_eq_ok] at h
    obtain ⟨hidle, h⟩ := h
    have hfresh : ∀ o ∈ db.reprocessing.operations, o.id ≠ ids.operationId := by
      intro o ho hid
      exact hidle (Or.inl (List.any_eq_true.mpr ⟨o, ho, decide_eq_true hid⟩))
    dsimp only at h
    split at h
    · cases h
    next started hstarted =>
      refine ⟨preview, started, himpact, hfresh, ?_, (left_of_ok h).symm⟩
      cases htype : preview.impact.operationType with
      | reindex =>
        rw [htype] at hstarted
        dsimp only at hstarted
        unfold startReindex at hstarted
        rw [ite_error_eq_ok] at hstarted
        obtain ⟨hnew, hstarted⟩ := hstarted
        have hrow := updateWhere_append_new (p := fun o => decide (o.id = ids.operationId))
          (f := fun o : ReprocessingOperation =>
            { o with operationGenerationId := some ids.embeddingGenerationId })
          (t := db.reprocessing.operations) (a := startedOperation ids preview)
          (fun o ho => decide_eq_false (hfresh o ho)) (decide_eq_true rfl)
        have hdb : started = startedReindexDb db ids preview := by
          rw [← Except.ok.inj hstarted]
          unfold startedReindexDb insertedOperation
          rw [htype]
          simp only [hrow]
          rfl
        rw [hdb]
        exact .reindex htype fun g hg hid =>
          hnew (List.any_eq_true.mpr ⟨g, hg, decide_eq_true hid⟩)
      | reingestion =>
        rw [htype] at hstarted
        dsimp only at hstarted
        unfold startReingestion at hstarted
        dsimp only at hstarted
        rw [ite_error_eq_ok] at hstarted
        obtain ⟨hnew, hstarted⟩ := hstarted
        have hdb : started = startedReingestionDb db ids preview := by
          rw [← Except.ok.inj hstarted]
          unfold startedReingestionDb insertedOperation
          rw [htype]
          rfl
        rw [hdb]
        refine .reingestion htype ?_ ?_
        · intro g hg g' hg' heq
          refine hnew (Or.inl ?_)
          simp only [List.any_eq_true, decide_eq_true_eq]
          exact ⟨g, hg, g', hg', heq⟩
        · intro j hj j' hj' heq
          refine hnew (Or.inr ?_)
          simp only [List.any_eq_true, decide_eq_true_eq]
          exact ⟨j, hj, j', hj', heq⟩
  · cases h

variable {operationId : OperationId}

variable {r : Bool}

theorem v10AdminPauseReprocessing_ok
    (h : v10AdminPauseReprocessing db token operationId = .ok (db', r)) :
    db' = (moveOperation db operationId .running .paused).1 := by
  unfold v10AdminPauseReprocessing at h
  split at h
  · cases h
  · rw [ite_error_eq_ok] at h
    exact (left_of_ok h.2).symm

theorem v10AdminResumeReprocessing_ok
    (h : v10AdminResumeReprocessing db token operationId = .ok (db', r)) :
    db' = (moveOperation db operationId .paused .running).1 := by
  unfold v10AdminResumeReprocessing at h
  split at h
  · cases h
  · exact (left_of_ok h).symm

/-- A cancel finds the operation paused or failed, and no work of it running. -/
theorem v10AdminCancelReprocessing_ok
    (h : v10AdminCancelReprocessing db token operationId = .ok (db', r)) :
    db' = db ∨ ∃ operation ∈ db.reprocessing.operations, operation.id = operationId ∧
      (operation.state = .paused ∨ operation.state = .failed) ∧
      hasRunningWork db operationId = false ∧ db' = cancelledDb db operationId := by
  unfold v10AdminCancelReprocessing at h
  split at h
  · cases h
  split at h
  · exact Or.inl (left_of_ok h).symm
  next operation hfind =>
    split at h
    · exact Or.inl (left_of_ok h).symm
    next hstopped =>
      obtain ⟨hstate, hidle⟩ := not_or.mp hstopped
      refine Or.inr ⟨operation, List.mem_of_find?_eq_some hfind,
        by simpa using List.find?_some hfind, ?_, Bool.eq_false_of_not_eq_true hidle,
        (left_of_ok h).symm⟩
      by_contra hother
      exact hstate (not_or.mp hother)

/-- The database a retried operation leaves. -/
def retriedDb (db : Db) (operation : ReprocessingOperation) : Db :=
  { retriedWork db operation with
    reprocessing.operations := updateWhere (fun o => o.id = operation.id) retriedOperation
      (retriedWork db operation).reprocessing.operations }

/-- The work that is queued again stands in other tables than these. -/
theorem retriedWork_untouched (db : Db) (operation : ReprocessingOperation) :
    (retriedWork db operation).reprocessing.operations = db.reprocessing.operations ∧
      (retriedWork db operation).now = db.now ∧
      (retriedWork db operation).library = db.library ∧
      (retriedWork db operation).chat = db.chat ∧
      (retriedWork db operation).accounts = db.accounts := by
  unfold retriedWork
  split
  · exact ⟨rfl, rfl, rfl, rfl, rfl⟩
  · exact ⟨rfl, rfl, rfl, rfl, rfl⟩

/-- A retry finds the operation failed. -/
theorem v10AdminRetryReprocessing_ok
    (h : v10AdminRetryReprocessing db token operationId = .ok (db', r)) :
    db' = db ∨ ∃ operation ∈ db.reprocessing.operations, operation.id = operationId ∧
      operation.state = .failed ∧ db' = retriedDb db operation := by
  unfold v10AdminRetryReprocessing at h
  split at h
  · cases h
  split at h
  · exact Or.inl (left_of_ok h).symm
  next operation hfind =>
    split at h
    · exact Or.inl (left_of_ok h).symm
    next hfailed =>
      rw [ite_error_eq_ok] at h
      obtain rfl : operation.id = operationId := by simpa using List.find?_some hfind
      exact Or.inr ⟨operation, List.mem_of_find?_eq_some hfind, rfl, Decidable.not_not.mp hfailed,
        (left_of_ok h.2).symm⟩

/-- The generations after the two updates of a cutover or a rollback. -/
def switched (now : Time) (active target : GenerationId) (generations : List EmbeddingGeneration) :
    List EmbeddingGeneration :=
  updateWhere (fun g => g.id = target) (fun g => { g with state := .active, retiredAt := none })
    (updateWhere (fun g => g.id = active)
      (fun g => { g with state := .retained, retiredAt := some now }) generations)

/-- The database a rollback leaves. -/
def rolledBackDb (db : Db) (generationId : GenerationId) : Db :=
  { db with
    reprocessing.embeddingGenerations := switched db.now
      db.reprocessing.activeEmbeddingGeneration generationId db.reprocessing.embeddingGenerations
    reprocessing.activeEmbeddingGeneration := generationId }

/-- A rollback goes to a retained generation. -/
theorem v10AdminRollbackEmbeddingGeneration_ok {generationId : GenerationId}
    (h : v10AdminRollbackEmbeddingGeneration db token generationId = .ok (db', r)) :
    (db' = db ∧ r = false) ∨ ∃ g ∈ db.reprocessing.embeddingGenerations, g.id = generationId ∧
      g.state = .retained ∧ db' = rolledBackDb db generationId ∧ r = true := by
  unfold v10AdminRollbackEmbeddingGeneration at h
  split at h
  · cases h
  split at h
  · obtain ⟨rfl, rfl⟩ := Prod.mk.inj (Except.ok.inj h)
    exact Or.inl ⟨rfl, rfl⟩
  next hany =>
    obtain ⟨rfl, rfl⟩ := Prod.mk.inj (Except.ok.inj h)
    obtain ⟨g, hg, hmatch⟩ := List.any_eq_true.mp (Decidable.not_not.mp hany)
    simp only [decide_eq_true_eq] at hmatch
    exact Or.inr ⟨g, hg, hmatch.1, hmatch.2.1, rfl, rfl⟩

/-- A cleanup removes a generation that may be removed, with all its rows. -/
theorem v10AdminCleanupGeneration_ok {generationType : GenerationType}
    {generationId : GenerationId}
    (h : v10AdminCleanupGeneration db token generationType generationId = .ok (db', r)) :
    db' = db ∨
      (generationType = .embedding ∧
        (∃ g ∈ db.reprocessing.embeddingGenerations,
          isCleanableEmbedding db generationId g = true) ∧
        db' = deleteEmbeddingRows db generationId) ∨
      (generationType = .document ∧
        (∃ g ∈ db.content.generations, isCleanableGeneration db generationId g = true) ∧
        db' = deleteGenerationRows db generationId) := by
  unfold v10AdminCleanupGeneration at h
  split at h
  · cases h
  cases generationType with
  | embedding =>
    dsimp only at h
    split at h
    · exact Or.inl (left_of_ok h).symm
    next hany =>
      simp only [ite_error_eq_ok] at h
      exact Or.inr (Or.inl ⟨rfl, List.any_eq_true.mp (Decidable.not_not.mp hany),
        (left_of_ok h.2.2).symm⟩)
  | document =>
    dsimp only at h
    split at h
    · exact Or.inl (left_of_ok h).symm
    next hany =>
      exact Or.inr (Or.inr ⟨rfl, List.any_eq_true.mp (Decidable.not_not.mp hany),
        (left_of_ok h).symm⟩)
  | other => cases h

end LocalRag.Ingest
