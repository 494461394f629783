import LocalRag.Storage.Outbox

/-!
# Ingestion jobs

`v4_claim_ingestion_job`, `v4_update_ingestion_progress`,
`v4_commit_ingestion_job` and `v4_poison_ingestion_job` as `0010` replaces them,
`v4_heartbeat_ingestion_job`, `v4_requeue_ingestion_job` and
`v4_maintenance_requeue_document` of `0001_v4_baseline`, and
`v4_commit_document_reingest` of `0005`.

A worker leases a job, parses and embeds the document outside the database, and
commits the chunks under its lease. The commit is written as its statements
group under READ COMMITTED: `lockIngestionJob` (the job row `FOR UPDATE` and the
operation's state), `shareEmbedding` (the target generation `FOR UPDATE`, the
active embedding generation `FOR SHARE`) and `storeIngestion` (everything it
writes). The last section says what each function can do, one lemma a function.

Mirroring notes. Vectors are left out except for their dimension. The snapshot
tokens of the two requeue functions hash row contents and are kept as those
rows. `GET DIAGNOSTICS` after the insert counts the rows just inserted, and the
anchor's own `CHECK` is left out.
-/

namespace LocalRag.Ingest

open LocalRag.Core Access Library Storage

/-- `operation_id IS NULL OR operation.state = 'running'`. -/
def operationAllows (db : Db) (operationId : Option OperationId) : Bool :=
  operationId.all fun o =>
    db.reprocessing.operations.any fun x => x.id = o ∧ x.state = .running

/-- The embedding generation `embedding_generation_state` points to. -/
def activeEmbedding (db : Db) : Option EmbeddingGeneration :=
  db.reprocessing.embeddingGenerations.find? fun g =>
    g.id = db.reprocessing.activeEmbeddingGeneration

/-- The job is leased under these tokens and the lease has not expired. -/
def holdsJobLease (now : Time) (jobId : JobId) (leaseToken : LeaseToken) (fencingToken : Nat)
    (j : IngestionJob) : Bool :=
  j.id = jobId ∧ j.status = .running ∧ j.leaseToken = some leaseToken ∧
    j.fencingToken = fencingToken ∧ j.leaseExpiresAt.any fun t => now < t

/-! ## Claim, heartbeat, progress -/

/-- What the claim returns to the worker. -/
structure JobClaim where
  jobId : JobId
  documentId : DocumentId
  objectKey : ObjectKey
  originalFilename : String
  sha256 : HexText
  byteSize : Int
  attempt : Nat
  leaseToken : LeaseToken
  fencingToken : Nat
  parserVersion : String
  chunkingVersion : String
  embeddingVersion : String
deriving Repr, DecidableEq

/-- The `candidate` filter of the claim. -/
def isClaimableJob (db : Db) (j : IngestionJob) : Bool :=
  ((j.status = .queued ∧ j.availableAt ≤ db.now) ∨
    (j.status = .running ∧ j.leaseExpiresAt.any fun t => t ≤ db.now)) ∧
  operationAllows db j.reprocessingOperationId

/-- `ORDER BY available_at, created_at, id`. -/
def jobBefore (a b : IngestionJob) : Bool :=
  a.availableAt < b.availableAt ∨ (a.availableAt = b.availableAt ∧
    (a.createdAt < b.createdAt ∨ (a.createdAt = b.createdAt ∧ a.id < b.id)))

/-- The row after a claim. -/
def claimedJob (now : Time) (owner : String) (leaseSeconds : Nat) (leaseToken : LeaseToken)
    (j : IngestionJob) : IngestionJob :=
  { j with
    status := .running
    attempt := j.attempt + 1
    stage := .uploaded
    completedUnits := 0
    totalUnits := none
    leaseOwner := some owner
    leaseToken := some leaseToken
    leaseExpiresAt := some (now + leaseSeconds * second)
    fencingToken := j.fencingToken + 1 }

/-- `v4_claim_ingestion_job`; `locked` are the rows it skips. -/
def v4ClaimIngestionJob (db : Db) (owner : String) (leaseSeconds : Nat)
    (leaseToken : LeaseToken) (locked : List JobId) : Except SqlError (Db × Option JobClaim) :=
  if leaseSeconds < 5 ∨ 3600 < leaseSeconds then
    .error ⟨"22023", "invalid ingestion lease duration"⟩
  else
    match pickFirst jobBefore (db.content.jobs.filter fun j =>
        isClaimableJob db j ∧ j.id ∉ locked) with
    | none => .ok (db, none)
    | some job =>
      match db.content.documents.find? (fun d => d.id = job.documentId),
          db.content.generations.find? (fun g =>
            g.id = job.targetGenerationId ∧ g.documentId = job.documentId),
          activeEmbedding db with
      | some document, some generation, some embedding =>
        .ok ({ db with
          content.jobs := updateWhere (fun j => j.id = job.id)
            (claimedJob db.now owner leaseSeconds leaseToken) db.content.jobs },
          some {
            jobId := job.id
            documentId := document.id
            objectKey := document.objectKey
            originalFilename := document.originalFilename
            sha256 := document.sha256
            byteSize := document.byteSize
            attempt := job.attempt + 1
            leaseToken := leaseToken
            fencingToken := job.fencingToken + 1
            parserVersion := generation.parserVersion
            chunkingVersion := generation.chunkingVersion
            embeddingVersion := embedding.embeddingVersion })
      | _, _, _ => .ok (db, none)

/-- `v4_heartbeat_ingestion_job`. -/
def v4HeartbeatIngestionJob (db : Db) (jobId : JobId) (leaseToken : LeaseToken)
    (fencingToken : Nat) (leaseSeconds : Nat) : Except SqlError (Db × Bool) :=
  if 5 ≤ leaseSeconds ∧ leaseSeconds ≤ 3600 ∧
      db.content.jobs.any (holdsJobLease db.now jobId leaseToken fencingToken) then
    .ok ({ db with
      content.jobs := updateWhere (holdsJobLease db.now jobId leaseToken fencingToken)
        (fun j => { j with leaseExpiresAt := some (db.now + leaseSeconds * second) })
        db.content.jobs }, true)
  else .ok (db, false)

/-- The `CASE v_job.stage` of the progress function. -/
def stageRank : DocumentState → Nat
  | .uploaded => 0
  | .parsing => 1
  | .chunking => 2
  | .embedding => 3
  | .indexing => 4
  | _ => 5

inductive ProgressResult where
  | accepted
  | stale
deriving Repr, DecidableEq

/-- The job row after accepted progress. -/
def progressedJob (stage : DocumentState) (completedUnits totalUnits : Nat) (j : IngestionJob) :
    IngestionJob :=
  { j with stage := stage, completedUnits := completedUnits, totalUnits := some totalUnits }

/-- `v4_update_ingestion_progress`. -/
def v4UpdateIngestionProgress (db : Db) (jobId : JobId) (leaseToken : LeaseToken)
    (fencingToken : Nat) (stage : DocumentState) (completedUnits totalUnits : Nat) :
    Except SqlError (Db × ProgressResult) :=
  if stage ∉ [.parsing, .chunking, .embedding, .indexing] ∨ totalUnits < 1 ∨
      1000000 < totalUnits ∨ totalUnits < completedUnits then
    .error ⟨"22023", "invalid ingestion progress"⟩
  else
    match db.content.jobs.find? (holdsJobLease db.now jobId leaseToken fencingToken) with
    | none => .ok (db, .stale)
    | some job =>
      if ¬ operationAllows db job.reprocessingOperationId then .ok (db, .stale)
      else if stageRank stage < stageRank job.stage ∨ (stageRank stage = stageRank job.stage ∧
          (completedUnits < job.completedUnits ∨ job.totalUnits.any fun t => totalUnits < t)) then
        .ok (db, .stale)
      else
        .ok ({ db with
          content.jobs := updateWhere (fun j => j.id = jobId)
            (progressedJob stage completedUnits totalUnits) db.content.jobs
          content.documents := updateWhere (fun d => d.id = job.documentId ∧
              d.activeGenerationId = job.targetGenerationId ∧ d.state ≠ .ready)
            (fun d => { d with state := stage, error := none }) db.content.documents },
          .accepted)

/-- The job row after its worker gave it back. -/
def requeuedJob (availableAt : Time) (j : IngestionJob) : IngestionJob :=
  { j with
    status := .queued
    error := none
    availableAt := availableAt
    leaseOwner := none
    leaseToken := none
    leaseExpiresAt := none }

/-- `v4_requeue_ingestion_job`. -/
def v4RequeueIngestionJob (db : Db) (jobId : JobId) (leaseToken : LeaseToken)
    (fencingToken : Nat) (availableAt : Time) : Except SqlError (Db × Bool) :=
  if db.now < availableAt ∧
      db.content.jobs.any (holdsJobLease db.now jobId leaseToken fencingToken) then
    .ok ({ db with
      content.jobs := updateWhere (holdsJobLease db.now jobId leaseToken fencingToken)
        (requeuedJob availableAt) db.content.jobs }, true)
  else .ok (db, false)

/-! ## Deleting chunks -/

/-- `DELETE FROM chunks WHERE …`: embeddings and reindex tasks go with them, and
stored sources lose their reference. -/
def deleteChunks (p : Chunk → Bool) (db : Db) : Db :=
  let isGone (c : ChunkId) : Bool := db.content.chunks.any fun k => p k ∧ k.id = c
  { db with
    content.chunks := deleteWhere p db.content.chunks
    reprocessing.chunkEmbeddings :=
      deleteWhere (fun x => isGone x.chunkId) db.reprocessing.chunkEmbeddings
    reprocessing.reindexTasks :=
      deleteWhere (fun x => isGone x.chunkId) db.reprocessing.reindexTasks
    chat.sources := db.chat.sources.map fun s =>
      { s with chunkId := if s.chunkId.any isGone then none else s.chunkId } }

/-! ## Commit -/

/-- One element of `p_chunks`. -/
structure IngestedChunk where
  id : ChunkId
  ordinal : Nat
  pageStart : Nat
  pageEnd : Nat
  sectionName : Option String
  text : String
  tokenCount : Nat
  textSha256 : HexText
  sourceSha256 : HexText
  parseMethod : ParseMethod
  parserVersion : String
  chunkingVersion : String
  embeddingVersion : String
  schemaVersion : String
  highlightAnchor : String
  /-- `vector_dims(embedding)`. -/
  dimension : Nat
deriving Repr, DecidableEq

/-- The arguments of `v4_commit_ingestion_job`. -/
structure IngestRequest where
  jobId : JobId
  leaseToken : LeaseToken
  fencingToken : Nat
  pageCount : Int
  chunks : List IngestedChunk
deriving Repr, DecidableEq

/-- The first statement and the operation's state; `none` when it returns false. -/
def lockIngestionJob (db : Db) (request : IngestRequest) : Option IngestionJob :=
  (db.content.jobs.find?
      (holdsJobLease db.now request.jobId request.leaseToken request.fencingToken)).filter
    fun job => 0 ≤ request.pageCount ∧ operationAllows db job.reprocessingOperationId

/-- The rows the commit reads under lock. -/
structure IngestTarget where
  generation : DocumentGeneration
  embedding : EmbeddingGeneration
deriving Repr, DecidableEq

/-- A chunk made for other versions than the target's. -/
def versionMismatch (target : IngestTarget) (c : IngestedChunk) : Bool :=
  c.parserVersion ≠ target.generation.parserVersion ∨
    c.chunkingVersion ≠ target.generation.chunkingVersion ∨
    c.embeddingVersion ≠ target.embedding.embeddingVersion ∨
    c.dimension ≠ target.embedding.dimension

/-- The target generation `FOR UPDATE` and the active embedding `FOR SHARE`, and
the version check. -/
def shareEmbedding (db : Db) (request : IngestRequest) (job : IngestionJob) :
    Except SqlError IngestTarget :=
  match db.content.generations.find? (fun g =>
      g.id = job.targetGenerationId ∧ g.documentId = job.documentId), activeEmbedding db with
  | some generation, some embedding =>
    if request.chunks.any (versionMismatch ⟨generation, embedding⟩) then
      .error ⟨"22023", "chunk ingestion version does not match target generation"⟩
    else .ok ⟨generation, embedding⟩
  | _, _ => .error noDataFound

/-- The row inserted into `chunks`. -/
def chunkRow (documentId : DocumentId) (generationId : GenerationId) (c : IngestedChunk) : Chunk :=
  { id := c.id
    documentId := documentId
    documentGenerationId := generationId
    ordinal := c.ordinal
    pageStart := c.pageStart
    pageEnd := c.pageEnd
    sectionName := c.sectionName
    text := c.text
    tokenCount := c.tokenCount
    textSha256 := c.textSha256
    sourceSha256 := c.sourceSha256
    parseMethod := c.parseMethod
    parserVersion := c.parserVersion
    chunkingVersion := c.chunkingVersion
    embeddingVersion := c.embeddingVersion
    schemaVersion := c.schemaVersion
    highlightAnchor := c.highlightAnchor }

/-- The `CHECK` a row of `chunks` violates. -/
def chunkCheck (c : Chunk) : Option String :=
  if c.pageStart < 1 then some "ck_chunks_page_start_positive"
  else if c.pageEnd < c.pageStart then some "ck_chunks_page_range_ordered"
  else if c.tokenCount = 0 then some "ck_chunks_token_count_positive"
  else if ¬ c.textSha256.wellFormed then some "ck_chunks_text_sha256"
  else if ¬ c.sourceSha256.wellFormed then some "ck_chunks_source_sha256"
  else if c.text.length = 0 then some "ck_chunks_text_nonempty"
  else none

/-- A row of `chunk_embeddings`; the hash of its provenance is kept as what it
hashes. -/
def embeddingRow (embedding : EmbeddingGeneration) (generationId : GenerationId)
    (chunkId : ChunkId) (textSha256 : HexText) : ChunkEmbedding :=
  { embeddingGenerationId := embedding.id
    chunkId := chunkId
    documentGenerationId := generationId
    dimension := embedding.dimension
    textSha256 := textSha256
    provenance := (chunkId, textSha256, generationId, embedding.embeddingVersion) }

/-- The inserts into `chunks` and `chunk_embeddings`. -/
def insertChunks (db : Db) (request : IngestRequest) (job : IngestionJob)
    (target : IngestTarget) : Except SqlError Db :=
  let rows := request.chunks.map (chunkRow job.documentId target.generation.id)
  match rows.findSome? chunkCheck with
  | some constraint => .error (checkViolation constraint)
  | none =>
    if ¬ (rows.map (·.id)).Nodup ∨
        db.content.chunks.any fun c => rows.any fun r => c.id = r.id then
      .error (uniqueViolation "chunks_pkey")
    else if ¬ (rows.map (·.ordinal)).Nodup ∨ db.content.chunks.any fun c =>
        rows.any fun r => c.documentGenerationId = target.generation.id ∧ c.ordinal = r.ordinal then
      .error (uniqueViolation "uq_chunks_generation_ordinal")
    else if db.reprocessing.chunkEmbeddings.any fun e =>
        e.embeddingGenerationId = target.embedding.id ∧ rows.any fun r => e.chunkId = r.id then
      .error (uniqueViolation "chunk_embeddings_pkey")
    else
      .ok { db with
        content.chunks := db.content.chunks ++ rows
        reprocessing.chunkEmbeddings := db.reprocessing.chunkEmbeddings ++
          rows.map fun r => embeddingRow target.embedding target.generation.id r.id r.textSha256 }

/-- The target generation's row after the commit. -/
def readyGeneration (now : Time) (pageCount chunkCount : Nat) (g : DocumentGeneration) :
    DocumentGeneration :=
  { g with
    state := .ready
    error := none
    pageCount := some pageCount
    chunkCount := chunkCount
    readyAt := some now
    retiredAt := none }

/-- `UPDATE document_generations`: the previous one is retained, the new one ready. -/
def readyGenerations (now : Time) (previous generationId : GenerationId) (pageCount chunkCount : Nat)
    (generations : List DocumentGeneration) : List DocumentGeneration :=
  updateWhere (fun g => g.id = generationId) (readyGeneration now pageCount chunkCount)
    (updateWhere (fun g => previous ≠ generationId ∧ g.id = previous ∧ g.state = .ready)
      (fun g => { g with state := .retained, retiredAt := some now }) generations)

/-- The document row after the commit. -/
def readyDocument (target : IngestTarget) (pageCount chunkCount : Nat) (d : Document) : Document :=
  { d with
    activeGenerationId := target.generation.id
    parserVersion := target.generation.parserVersion
    chunkingVersion := target.generation.chunkingVersion
    embeddingVersion := target.embedding.embeddingVersion
    state := .ready
    error := none
    pageCount := some pageCount
    chunkCount := chunkCount }

/-- The job row after the commit. -/
def completedJob (chunkCount : Nat) (j : IngestionJob) : IngestionJob :=
  { j with
    status := .completed
    stage := .ready
    completedUnits := chunkCount
    totalUnits := some chunkCount
    error := none
    leaseOwner := none
    leaseToken := none
    leaseExpiresAt := none }

/-- The operation row after one of its jobs committed. -/
def countedOperation (chunkCount : Nat) (o : ReprocessingOperation) : ReprocessingOperation :=
  { o with
    completedDocuments := o.completedDocuments + 1
    completedChunks := o.completedChunks + chunkCount
    state := if o.completedDocuments + 1 = o.totalDocuments then .succeeded else o.state }

/-- `UPDATE reprocessing_operations`, with the `CHECK` on the counter. -/
def countOperation (operationId : Option OperationId) (chunkCount : Nat)
    (operations : List ReprocessingOperation) : Except SqlError (List ReprocessingOperation) :=
  match operationId with
  | none => .ok operations
  | some o =>
    if operations.any fun x => x.id = o ∧ x.totalDocuments < x.completedDocuments + 1 then
      .error (checkViolation "reprocessing_operations_check")
    else .ok (updateWhere (fun x => x.id = o) (countedOperation chunkCount) operations)

/-- Everything the commit writes. -/
def storeIngestion (db : Db) (request : IngestRequest) (job : IngestionJob)
    (target : IngestTarget) : Except SqlError Db :=
  match insertChunks (deleteChunks (fun c => c.documentGenerationId = target.generation.id) db)
      request job target with
  | .error e => .error e
  | .ok stored =>
    match stored.content.documents.find? fun d => d.id = job.documentId with
    | none => .error noDataFound
    | some document =>
      match countOperation job.reprocessingOperationId request.chunks.length
          stored.reprocessing.operations with
      | .error e => .error e
      | .ok operations =>
        .ok { stored with
          content.generations := readyGenerations db.now document.activeGenerationId
            target.generation.id request.pageCount.toNat request.chunks.length
            stored.content.generations
          content.documents := updateWhere (fun d => d.id = job.documentId)
            (readyDocument target request.pageCount.toNat request.chunks.length)
            stored.content.documents
          content.jobs := updateWhere (fun j => j.id = job.id)
            (completedJob request.chunks.length) stored.content.jobs
          reprocessing.operations := operations }

/-- `v4_commit_ingestion_job`. -/
def v4CommitIngestionJob (db : Db) (request : IngestRequest) : Except SqlError (Db × Bool) :=
  match lockIngestionJob db request with
  | none => .ok (db, false)
  | some job =>
    match shareEmbedding db request job with
    | .error e => .error e
    | .ok target =>
      match storeIngestion db request job target with
      | .error e => .error e
      | .ok stored => .ok (stored, true)

/-! ## Poison and requeue -/

/-- `left(btrim(p_error), 500)`. -/
def clippedError (error : String) : String := String.ofList ((btrim error).toList.take 500)

/-- The operation row after one of its jobs was poisoned. -/
def poisonedOperation (o : ReprocessingOperation) : ReprocessingOperation :=
  { o with
    state := .failed
    failedDocuments := o.failedDocuments + 1
    reasonCode := some "document_reingestion_failed" }

/-- The job row after it was poisoned. -/
def poisonedJob (error : String) (j : IngestionJob) : IngestionJob :=
  { j with
    status := .failed
    stage := .failed
    error := some (clippedError error)
    leaseOwner := none
    leaseToken := none
    leaseExpiresAt := none }

/-- `v4_poison_ingestion_job`. -/
def v4PoisonIngestionJob (db : Db) (jobId : JobId) (leaseToken : LeaseToken)
    (fencingToken : Nat) (error : String) : Except SqlError (Db × Bool) :=
  match db.content.jobs.find? (holdsJobLease db.now jobId leaseToken fencingToken) with
  | none => .ok (db, false)
  | some job =>
    if (btrim error).length < 1 ∨ 500 < (btrim error).length then .ok (db, false)
    else if db.reprocessing.operations.any fun o =>
        job.reprocessingOperationId = some o.id ∧ o.totalDocuments < o.failedDocuments + 1 then
      .error (checkViolation "reprocessing_operations_check1")
    else
      .ok ({ db with
        content.jobs := updateWhere (fun j => j.id = job.id) (poisonedJob error) db.content.jobs
        content.generations := updateWhere (fun g => g.id = job.targetGenerationId)
          (fun g => { g with state := .failed, error := some (clippedError error) })
          db.content.generations
        content.documents := updateWhere (fun d => d.id = job.documentId ∧
            d.activeGenerationId = job.targetGenerationId ∧ d.state ≠ .ready)
          (fun d => { d with state := .failed, error := some (clippedError error) })
          db.content.documents
        reprocessing.operations := updateWhere
          (fun o => job.reprocessingOperationId = some o.id) poisonedOperation
          db.reprocessing.operations }, true)

/-- The row a queued job starts with. -/
def queuedJob (now : Time) (jobId : JobId) (documentId : DocumentId) (generationId : GenerationId)
    (operationId : Option OperationId) : IngestionJob :=
  { id := jobId
    documentId := documentId
    targetGenerationId := generationId
    reprocessingOperationId := operationId
    status := .queued
    stage := .uploaded
    attempt := 0
    completedUnits := 0
    totalUnits := none
    availableAt := now
    leaseExpiresAt := none
    leaseToken := none
    leaseOwner := none
    fencingToken := 0
    error := none
    createdAt := now }

/-- The document's chunks go, it starts over, and a job for its active generation
is queued. -/
def requeueDocument (db : Db) (document : Document) (jobId : JobId) : Except SqlError Db :=
  if db.content.jobs.any fun j => j.id = jobId then
    .error (uniqueViolation "ingestion_jobs_pkey")
  else
    let cleared := deleteChunks (fun c => c.documentId = document.id) db
    .ok { cleared with
      content.documents := updateWhere (fun d => d.id = document.id)
        (fun d => { d with state := .uploaded, error := none, pageCount := none, chunkCount := 0 })
        cleared.content.documents
      content.jobs := cleared.content.jobs ++
        [queuedJob db.now jobId document.id document.activeGenerationId none] }

/-- A job of the document is queued or running. -/
def hasActiveJob (db : Db) (d : DocumentId) : Bool :=
  db.content.jobs.any fun j => j.documentId = d ∧ (j.status = .queued ∨ j.status = .running)

/-- `ORDER BY created_at DESC, id DESC LIMIT 1`. -/
def latestJob (db : Db) (d : DocumentId) : Option IngestionJob :=
  pickFirst (fun a b => a.createdAt > b.createdAt ∨ (a.createdAt = b.createdAt ∧ a.id > b.id))
    (db.content.jobs.filter fun j => j.documentId = d)

/-- The latest job failed or was interrupted. -/
def latestJobStopped (db : Db) (d : DocumentId) : Bool :=
  (latestJob db d).any fun j => j.status = .failed ∨ j.status = .interrupted

/-- What the snapshot tokens of a document hash. -/
structure DocumentSnapshot where
  document : Document
  jobs : List IngestionJob
deriving Repr, DecidableEq

/-- The snapshot of the document as it is now. -/
def documentSnapshot (db : Db) (document : Document) : DocumentSnapshot :=
  ⟨document, db.content.jobs.filter fun j => j.documentId = document.id⟩

inductive RequeueResult where
  | notFound
  | stale
  | activeJob
  | notRetryable
  | created
deriving Repr, DecidableEq

/-- `v4_maintenance_requeue_document`. -/
def v4MaintenanceRequeueDocument (db : Db) (d : DocumentId) (snapshot : DocumentSnapshot)
    (jobId : JobId) (retryOnly : Bool) : Except SqlError (Db × RequeueResult) :=
  match db.content.documents.find? fun x => x.id = d with
  | none => .ok (db, .notFound)
  | some document =>
    if documentSnapshot db document ≠ snapshot then .ok (db, .stale)
    else if hasActiveJob db d then .ok (db, .activeJob)
    else if retryOnly ∧ (document.state ≠ .failed ∨ ¬ latestJobStopped db d) then
      .ok (db, .notRetryable)
    else
      match requeueDocument db document jobId with
      | .error e => .error e
      | .ok requeued => .ok (requeued, .created)

/-- `v4_commit_document_reingest`. -/
def v4CommitDocumentReingest (db : Db) (token : Option HexText) (d : DocumentId)
    (snapshot : DocumentSnapshot) (jobId : JobId) : Except SqlError (Db × RequeueResult) :=
  match v4CurrentActorId db token with
  | none => .ok (db, .notFound)
  | some actor =>
    match (db.content.documents.find? fun x => x.id = d).filter fun _ =>
        db.library.nodes.any fun n => n.documentId = some d ∧ n.kind = .file ∧
          (actorIsAdmin db (some actor) ∨ n.uploaderUserId = some actor) with
    | none => .ok (db, .notFound)
    | some document =>
      if document.state ≠ .failed then .ok (db, .notRetryable)
      else if hasActiveJob db d then .ok (db, .activeJob)
      else if ¬ latestJobStopped db d then .ok (db, .notRetryable)
      else if documentSnapshot db document ≠ snapshot then .ok (db, .stale)
      else
        match requeueDocument db document jobId with
        | .error e => .error e
        | .ok requeued => .ok (requeued, .created)

/-! ## What each call can do -/

variable {jobId : JobId} {leaseToken : LeaseToken} {fencingToken : Nat}

variable {now : Time} {j : IngestionJob}

theorem holdsJobLease_id (h : holdsJobLease now jobId leaseToken fencingToken j = true) :
    j.id = jobId := by
  simp only [holdsJobLease, decide_eq_true_eq] at h
  exact h.1

theorem holdsJobLease_running (h : holdsJobLease now jobId leaseToken fencingToken j = true) :
    j.status = .running := by
  simp only [holdsJobLease, decide_eq_true_eq] at h
  exact h.2.1

theorem holdsJobLease_tokens (h : holdsJobLease now jobId leaseToken fencingToken j = true) :
    j.leaseToken = some leaseToken ∧ j.fencingToken = fencingToken := by
  simp only [holdsJobLease, decide_eq_true_eq] at h
  exact ⟨h.2.2.1, h.2.2.2.1⟩

variable {db db' : Db}

/-- A claim finds nothing, or leases a claimable row. -/
theorem v4ClaimIngestionJob_ok {owner : String} {leaseSeconds : Nat} {locked : List JobId}
    {r : Option JobClaim}
    (h : v4ClaimIngestionJob db owner leaseSeconds leaseToken locked = .ok (db', r)) :
    (db' = db ∧ r = none) ∨ ∃ job ∈ db.content.jobs, isClaimableJob db job = true ∧
      db' = { db with
        content.jobs := updateWhere (fun j => j.id = job.id)
          (claimedJob db.now owner leaseSeconds leaseToken) db.content.jobs } ∧
      ∃ claim, r = some claim ∧ claim.jobId = job.id ∧ claim.leaseToken = leaseToken ∧
        claim.fencingToken = job.fencingToken + 1 := by
  unfold v4ClaimIngestionJob at h
  rw [ite_error_eq_ok] at h
  obtain ⟨_, h⟩ := h
  split at h
  · obtain ⟨rfl, rfl⟩ : db = db' ∧ none = r := by simpa using h
    exact Or.inl ⟨rfl, rfl⟩
  next job hpick =>
    have hmem := pickFirst_mem hpick
    simp only [List.mem_filter, decide_eq_true_eq] at hmem
    split at h
    · obtain ⟨rfl, rfl⟩ := Prod.mk.inj (Except.ok.inj h)
      exact Or.inr ⟨job, hmem.1, hmem.2.1, rfl, _, rfl, rfl, rfl, rfl⟩
    · obtain ⟨rfl, rfl⟩ : db = db' ∧ none = r := by simpa using h
      exact Or.inl ⟨rfl, rfl⟩

variable {r : Bool}

/-- A heartbeat is refused, or extends the lease it shows. -/
theorem v4HeartbeatIngestionJob_ok {leaseSeconds : Nat}
    (h : v4HeartbeatIngestionJob db jobId leaseToken fencingToken leaseSeconds = .ok (db', r)) :
    db' = db ∨ db' = { db with
      content.jobs := updateWhere (holdsJobLease db.now jobId leaseToken fencingToken)
        (fun j => { j with leaseExpiresAt := some (db.now + leaseSeconds * second) })
        db.content.jobs } := by
  unfold v4HeartbeatIngestionJob at h
  split at h
  · exact Or.inr (left_of_ok h).symm
  · exact Or.inl (left_of_ok h).symm

/-- The database accepted progress leaves. -/
def progressedDb (db : Db) (job : IngestionJob) (stage : DocumentState)
    (completedUnits totalUnits : Nat) : Db :=
  { db with
    content.jobs := updateWhere (fun j => j.id = job.id)
      (progressedJob stage completedUnits totalUnits) db.content.jobs
    content.documents := updateWhere (fun d => d.id = job.documentId ∧
        d.activeGenerationId = job.targetGenerationId ∧ d.state ≠ .ready)
      (fun d => { d with state := stage, error := none }) db.content.documents }

/-- Progress is stale, or was made by the holder of the lease and moves the row on. -/
theorem v4UpdateIngestionProgress_ok {stage : DocumentState} {completedUnits totalUnits : Nat}
    {r : ProgressResult}
    (h : v4UpdateIngestionProgress db jobId leaseToken fencingToken stage completedUnits
      totalUnits = .ok (db', r)) :
    (db' = db ∧ r = .stale) ∨ ∃ job ∈ db.content.jobs,
      holdsJobLease db.now jobId leaseToken fencingToken job = true ∧
      stage ∈ [.parsing, .chunking, .embedding, .indexing] ∧
      db' = progressedDb db job stage completedUnits totalUnits := by
  unfold v4UpdateIngestionProgress at h
  rw [ite_error_eq_ok] at h
  obtain ⟨hargs, h⟩ := h
  split at h
  · obtain ⟨rfl, rfl⟩ : db = db' ∧ ProgressResult.stale = r := by simpa using h
    exact Or.inl ⟨rfl, rfl⟩
  next job hfind =>
    have hheld := List.find?_some hfind
    split at h
    · obtain ⟨rfl, rfl⟩ : db = db' ∧ ProgressResult.stale = r := by simpa using h
      exact Or.inl ⟨rfl, rfl⟩
    split at h
    · obtain ⟨rfl, rfl⟩ : db = db' ∧ ProgressResult.stale = r := by simpa using h
      exact Or.inl ⟨rfl, rfl⟩
    · refine Or.inr ⟨job, List.mem_of_find?_eq_some hfind, hheld, ?_, ?_⟩
      · by_contra hstage
        exact hargs (Or.inl hstage)
      · rw [progressedDb, holdsJobLease_id hheld]
        exact (left_of_ok h).symm

/-- A requeue is refused, or gives up the lease it shows. -/
theorem v4RequeueIngestionJob_ok {availableAt : Time}
    (h : v4RequeueIngestionJob db jobId leaseToken fencingToken availableAt = .ok (db', r)) :
    db' = db ∨ db' = { db with
      content.jobs := updateWhere (holdsJobLease db.now jobId leaseToken fencingToken)
        (requeuedJob availableAt) db.content.jobs } := by
  unfold v4RequeueIngestionJob at h
  split at h
  · exact Or.inr (left_of_ok h).symm
  · exact Or.inl (left_of_ok h).symm

variable {request : IngestRequest} {job : IngestionJob}

/-- The job the commit locked is a row of the table, held under the request's
lease. -/
theorem lockIngestionJob_some (h : lockIngestionJob db request = some job) :
    job ∈ db.content.jobs ∧
      holdsJobLease db.now request.jobId request.leaseToken request.fencingToken job = true ∧
      operationAllows db job.reprocessingOperationId = true := by
  unfold lockIngestionJob at h
  obtain ⟨hfind, hcond⟩ := Option.filter_eq_some_iff.mp h
  simp only [decide_eq_true_eq] at hcond
  exact ⟨List.mem_of_find?_eq_some hfind, List.find?_some hfind, hcond.2⟩

variable {target : IngestTarget}

/-- The target is the job's generation and the chunks were made for its versions. -/
theorem shareEmbedding_ok (h : shareEmbedding db request job = .ok target) :
    target.generation ∈ db.content.generations ∧
      target.generation.id = job.targetGenerationId ∧
      target.generation.documentId = job.documentId ∧ activeEmbedding db = some target.embedding ∧
      ∀ c ∈ request.chunks, versionMismatch target c = false := by
  unfold shareEmbedding at h
  split at h
  next generation embedding hgen hemb =>
    rw [ite_error_eq_ok] at h
    obtain ⟨hversions, h⟩ := h
    obtain rfl := Except.ok.inj h
    have hrow := List.find?_some hgen
    simp only [decide_eq_true_eq] at hrow
    exact ⟨List.mem_of_find?_eq_some hgen, hrow.1, hrow.2, hemb, by simpa using hversions⟩
  · cases h

/-- The database the chunk inserts leave. -/
def chunkedDb (db : Db) (request : IngestRequest) (job : IngestionJob) (target : IngestTarget) :
    Db :=
  let rows := request.chunks.map (chunkRow job.documentId target.generation.id)
  { db with
    content.chunks := db.content.chunks ++ rows
    reprocessing.chunkEmbeddings := db.reprocessing.chunkEmbeddings ++
      rows.map fun r => embeddingRow target.embedding target.generation.id r.id r.textSha256 }

/-- The inserts passed the unique constraints of `chunks`. -/
theorem insertChunks_ok (h : insertChunks db request job target = .ok db') :
    db' = chunkedDb db request job target ∧ (request.chunks.map (·.id)).Nodup ∧
      (∀ c ∈ db.content.chunks, ∀ x ∈ request.chunks, c.id ≠ x.id) := by
  unfold insertChunks at h
  dsimp only at h
  split at h
  · cases h
  · simp only [ite_error_eq_ok] at h
    obtain ⟨hids, _, _, h⟩ := h
    refine ⟨(Except.ok.inj h).symm, ?_, ?_⟩
    · by_contra hdup
      refine hids (Or.inl ?_)
      rw [List.map_map]
      exact hdup
    · intro c hc x hx heq
      refine hids (Or.inr ?_)
      simp only [List.any_eq_true, decide_eq_true_eq]
      exact ⟨c, hc, _, List.mem_map_of_mem hx, heq⟩

/-- The counted operations, whether or not the job has one. -/
theorem countOperation_eq {operationId : Option OperationId} {chunkCount : Nat}
    {operations operations' : List ReprocessingOperation}
    (h : countOperation operationId chunkCount operations = .ok operations') :
    operations' = updateWhere (fun o => operationId = some o.id) (countedOperation chunkCount)
      operations := by
  unfold countOperation at h
  split at h
  · obtain rfl := Except.ok.inj h
    exact (updateWhere_eq_self fun o _ => decide_eq_false nofun).symm
  next i =>
    obtain ⟨-, h⟩ := ite_error_eq_ok.mp h
    obtain rfl := Except.ok.inj h
    refine List.map_congr_left fun o _ => ?_
    by_cases hrow : o.id = i
    · simp [hrow]
    · have hne : ¬ i = o.id := fun heq => hrow heq.symm
      simp [hrow, hne]

/-- The database the commit of a job leaves, with the operations it counted. -/
def ingestedDb (db : Db) (request : IngestRequest) (job : IngestionJob) (target : IngestTarget)
    (document : Document) (operations : List ReprocessingOperation) : Db :=
  let stored := chunkedDb (deleteChunks (fun c => c.documentGenerationId = target.generation.id) db)
    request job target
  { stored with
    content.generations := readyGenerations db.now document.activeGenerationId
      target.generation.id request.pageCount.toNat request.chunks.length db.content.generations
    content.documents := updateWhere (fun d => d.id = job.documentId)
      (readyDocument target request.pageCount.toNat request.chunks.length) db.content.documents
    content.jobs := updateWhere (fun j => j.id = job.id)
      (completedJob request.chunks.length) db.content.jobs
    reprocessing.operations := operations }

/-- Everything the commit writes, when it can. -/
theorem storeIngestion_ok {stored : Db} (h : storeIngestion db request job target = .ok stored) :
    ∃ document operations, document ∈ db.content.documents ∧ document.id = job.documentId ∧
      countOperation job.reprocessingOperationId request.chunks.length
        db.reprocessing.operations = .ok operations ∧
      (request.chunks.map (·.id)).Nodup ∧
      (∀ c ∈ db.content.chunks, c.documentGenerationId ≠ target.generation.id →
        ∀ x ∈ request.chunks, c.id ≠ x.id) ∧
      stored = ingestedDb db request job target document operations := by
  unfold storeIngestion at h
  split at h
  · cases h
  next chunked hchunks =>
    obtain ⟨rfl, hnodup, hnew⟩ := insertChunks_ok hchunks
    split at h
    · cases h
    next document hdoc =>
      split at h
      · cases h
      next operations hcount =>
        have hid : document.id = job.documentId := by simpa using List.find?_some hdoc
        refine ⟨document, operations, List.mem_of_find?_eq_some hdoc, hid, hcount, hnodup, ?_,
          (Except.ok.inj h).symm⟩
        intro c hc hne
        exact hnew c (mem_deleteWhere.mpr ⟨hc, by simpa using hne⟩)

/-- A commit is refused, or stores the payload under the lease it shows. -/
theorem v4CommitIngestionJob_ok (h : v4CommitIngestionJob db request = .ok (db', r)) :
    (db' = db ∧ r = false) ∨ ∃ job target document operations,
      lockIngestionJob db request = some job ∧ shareEmbedding db request job = .ok target ∧
      document ∈ db.content.documents ∧ document.id = job.documentId ∧
      countOperation job.reprocessingOperationId request.chunks.length
        db.reprocessing.operations = .ok operations ∧
      (request.chunks.map (·.id)).Nodup ∧
      (∀ c ∈ db.content.chunks, c.documentGenerationId ≠ target.generation.id →
        ∀ x ∈ request.chunks, c.id ≠ x.id) ∧
      db' = ingestedDb db request job target document operations ∧ r = true := by
  unfold v4CommitIngestionJob at h
  split at h
  · obtain ⟨rfl, rfl⟩ : db = db' ∧ false = r := by simpa using h
    exact Or.inl ⟨rfl, rfl⟩
  next job hlock =>
    split at h
    · cases h
    next target hshare =>
      split at h
      · cases h
      next stored hstore =>
        obtain ⟨rfl, rfl⟩ := Prod.mk.inj (Except.ok.inj h)
        obtain ⟨document, operations, hdoc, hid, hcount, hnodup, hnew, rfl⟩ :=
          storeIngestion_ok hstore
        exact Or.inr ⟨job, target, document, operations, hlock, hshare, hdoc, hid, hcount, hnodup,
          hnew, rfl, rfl⟩

/-- The database a poisoned job leaves. -/
def poisonedDb (db : Db) (job : IngestionJob) (error : String) : Db :=
  { db with
    content.jobs := updateWhere (fun j => j.id = job.id) (poisonedJob error) db.content.jobs
    content.generations := updateWhere (fun g => g.id = job.targetGenerationId)
      (fun g => { g with state := .failed, error := some (clippedError error) })
      db.content.generations
    content.documents := updateWhere (fun d => d.id = job.documentId ∧
        d.activeGenerationId = job.targetGenerationId ∧ d.state ≠ .ready)
      (fun d => { d with state := .failed, error := some (clippedError error) })
      db.content.documents
    reprocessing.operations := updateWhere
      (fun o => job.reprocessingOperationId = some o.id) poisonedOperation
      db.reprocessing.operations }

/-- A poison is refused, or fails the job under the lease it shows. -/
theorem v4PoisonIngestionJob_ok {error : String}
    (h : v4PoisonIngestionJob db jobId leaseToken fencingToken error = .ok (db', r)) :
    db' = db ∨ ∃ job ∈ db.content.jobs,
      holdsJobLease db.now jobId leaseToken fencingToken job = true ∧
      db' = poisonedDb db job error := by
  unfold v4PoisonIngestionJob at h
  split at h
  · exact Or.inl (left_of_ok h).symm
  next job hfind =>
    split at h
    · exact Or.inl (left_of_ok h).symm
    · rw [ite_error_eq_ok] at h
      exact Or.inr ⟨job, List.mem_of_find?_eq_some hfind, List.find?_some hfind,
        (left_of_ok h.2).symm⟩

/-- The database a requeued document leaves. -/
def requeuedDb (db : Db) (document : Document) (jobId : JobId) : Db :=
  let cleared := deleteChunks (fun c => c.documentId = document.id) db
  { cleared with
    content.documents := updateWhere (fun d => d.id = document.id)
      (fun d => { d with state := .uploaded, error := none, pageCount := none, chunkCount := 0 })
      db.content.documents
    content.jobs := db.content.jobs ++
      [queuedJob db.now jobId document.id document.activeGenerationId none] }

theorem requeueDocument_ok {document : Document} (h : requeueDocument db document jobId = .ok db') :
    (∀ j ∈ db.content.jobs, j.id ≠ jobId) ∧ db' = requeuedDb db document jobId := by
  unfold requeueDocument at h
  rw [ite_error_eq_ok] at h
  exact ⟨by simpa using h.1, (Except.ok.inj h.2).symm⟩

/-- Both ways to requeue a document find it without a queued or running job. -/
theorem v4MaintenanceRequeueDocument_ok {d : DocumentId} {snapshot : DocumentSnapshot}
    {retryOnly : Bool} {r : RequeueResult}
    (h : v4MaintenanceRequeueDocument db d snapshot jobId retryOnly = .ok (db', r)) :
    db' = db ∨ ∃ document ∈ db.content.documents, document.id = d ∧ hasActiveJob db d = false ∧
      (∀ j ∈ db.content.jobs, j.id ≠ jobId) ∧ db' = requeuedDb db document jobId := by
  unfold v4MaintenanceRequeueDocument at h
  split at h
  · exact Or.inl (left_of_ok h).symm
  next document hfind =>
    split at h
    · exact Or.inl (left_of_ok h).symm
    split at h
    · exact Or.inl (left_of_ok h).symm
    next hactive =>
      split at h
      · exact Or.inl (left_of_ok h).symm
      split at h
      · cases h
      next requeued hrequeue =>
        obtain ⟨hfresh, rfl⟩ := requeueDocument_ok hrequeue
        exact Or.inr ⟨document, List.mem_of_find?_eq_some hfind,
          by simpa using List.find?_some hfind, by simpa using hactive, hfresh,
          (left_of_ok h).symm⟩

theorem v4CommitDocumentReingest_ok {token : Option HexText} {d : DocumentId}
    {snapshot : DocumentSnapshot} {r : RequeueResult}
    (h : v4CommitDocumentReingest db token d snapshot jobId = .ok (db', r)) :
    db' = db ∨ ∃ document ∈ db.content.documents, document.id = d ∧ document.state = .failed ∧
      hasActiveJob db d = false ∧ (∀ j ∈ db.content.jobs, j.id ≠ jobId) ∧
      db' = requeuedDb db document jobId := by
  unfold v4CommitDocumentReingest at h
  split at h
  · exact Or.inl (left_of_ok h).symm
  split at h
  · exact Or.inl (left_of_ok h).symm
  next document hfind =>
    obtain ⟨hfind, _⟩ := Option.filter_eq_some_iff.mp hfind
    split at h
    · exact Or.inl (left_of_ok h).symm
    next hfailed =>
      split at h
      · exact Or.inl (left_of_ok h).symm
      next hactive =>
        split at h
        · exact Or.inl (left_of_ok h).symm
        split at h
        · exact Or.inl (left_of_ok h).symm
        split at h
        · cases h
        next requeued hrequeue =>
          obtain ⟨hfresh, rfl⟩ := requeueDocument_ok hrequeue
          exact Or.inr ⟨document, List.mem_of_find?_eq_some hfind,
            by simpa using List.find?_some hfind, by simpa using hfailed, by simpa using hactive,
            hfresh, (left_of_ok h).symm⟩

end LocalRag.Ingest
