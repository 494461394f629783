import LocalRag.Ingest.Fencing
import LocalRag.Ingest.Reindex

/-!
# Workers and an administrator, statement by statement

The calls on a reprocessing operation and on its work, interleaved at their statements under
READ COMMITTED: each statement sees what was committed when it began. A call that reads, and
writes by what it read in a later statement, is two or three steps, with what it knows in between
as a `Pending` of the site; every other call is one step.

* `v10_admin_pause_reprocessing` looks for running work, then updates the operation.
* `v10_admin_cancel_reprocessing` locks the operation's row and looks for running work, then
  writes.
* A claim is one statement, but its snapshot is older than its commit: it chooses by the
  operations of the snapshot, and by the rows as they are when it locks them.
* A commit locks its row and reads the operation, then writes; the commit of a task counts in
  between.

Mirroring notes. What a statement wrote is seen by others when its transaction commits, so the
writes of a call stand in its last step. A step whose row another call has locked waits: it
changes nothing. A call whose later statements read only rows it has locked is one step. The
update of the operation in `v4_commit_ingestion_job` clears `finished_at` unless it was the last
document, so a finished operation refuses it (`clearsFinished`).
-/

namespace LocalRag.Ingest

open LocalRag.Core Access Library Storage

/-! ## A claim of a job by an older snapshot -/

/-- `v4_claim_ingestion_job`, whose statement began on `seen`. -/
def claimIngestionJobAt (seen db : Db) (owner : String) (leaseSeconds : Nat)
    (leaseToken : LeaseToken) (locked : List JobId) : Except SqlError (Db × Option JobClaim) :=
  if leaseSeconds < 5 ∨ 3600 < leaseSeconds then
    .error ⟨"22023", "invalid ingestion lease duration"⟩
  else
    -- a row that was locked is looked at again, and the operation is not
    let asItIs (j : IngestionJob) : Option IngestionJob :=
      db.content.jobs.find? fun k => k.id = j.id ∧ isClaimableJob seen k
    match (pickFirst jobBefore (seen.content.jobs.filter fun j =>
        isClaimableJob seen j ∧ j.id ∉ locked ∧ (asItIs j).isSome)).bind asItIs with
    | none => .ok (db, none)
    | some job =>
      match seen.content.documents.find? (fun d => d.id = job.documentId),
          seen.content.generations.find? (fun g =>
            g.id = job.targetGenerationId ∧ g.documentId = job.documentId),
          activeEmbedding seen with
      | some document, some generation, some embedding =>
        .ok ({ db with
          content.jobs := updateWhere (fun j => j.id = job.id)
            (claimedJob seen.now owner leaseSeconds leaseToken) db.content.jobs },
          some {
            jobId := job.id
            documentId := document.id
            objectKey := document.objectKey
            originalFilename := document.originalFilename
            sha256 := document.sha256
            byteSize := document.byteSize
            attempt := job.attempt + 1
            leaseToken := leaseToken
            fencingToken := job.fencingToken + 1
            parserVersion := generation.parserVersion
            chunkingVersion := generation.chunkingVersion
            embeddingVersion := embedding.embeddingVersion })
      | _, _, _ => .ok (db, none)

/-! ## Calls and what is between their statements -/

/-- The calls. -/
inductive WorkCall where
  | tick (elapsed : Time)
  | pause (token : Option HexText) (operationId : OperationId)
  | resume (token : Option HexText) (operationId : OperationId)
  | cancel (token : Option HexText) (operationId : OperationId)
  | retry (token : Option HexText) (operationId : OperationId)
  | claimJob (owner : String) (leaseSeconds : Nat) (leaseToken : LeaseToken)
  | heartbeatJob (jobId : JobId) (leaseToken : LeaseToken) (fencingToken leaseSeconds : Nat)
  | progressJob (jobId : JobId) (leaseToken : LeaseToken) (fencingToken : Nat)
      (report : ProgressCall)
  | requeueJob (jobId : JobId) (leaseToken : LeaseToken) (fencingToken : Nat) (availableAt : Time)
  | commitJob (request : IngestRequest)
  | poisonJob (jobId : JobId) (leaseToken : LeaseToken) (fencingToken : Nat) (error : String)
  | claimTasks (request : ReindexClaimRequest)
  | commitTask (request : ReindexRequest)
  | failTask (operationId : OperationId) (chunkId : ChunkId) (leaseToken : LeaseToken)
      (fencingToken : Nat) (error : String)
  | deleteDocument (token : Option HexText) (documentId : DocumentId) (deletionId : DeletionId)

/-- A call between two of its statements. -/
inductive Pending where
  /-- A pause that found no running work. -/
  | pause (operationId : OperationId)
  /-- A cancel that found no running work and holds the operation's row. -/
  | cancel (operationId : OperationId)
  /-- A claim of a job whose statement began on `seen`. -/
  | claimJob (seen : Db) (owner : String) (leaseSeconds : Nat) (leaseToken : LeaseToken)
  /-- A commit of a job that found its operation running and holds the job's row. -/
  | commitJob (request : IngestRequest) (job : IngestionJob)
  /-- A claim of tasks whose statement began on `seen`. -/
  | claimTasks (seen : Db) (request : ReindexClaimRequest)
  /-- A commit of a task that found its operation running and holds the task's row. -/
  | commitTask (request : ReindexRequest) (task : ReindexTask)
  /-- The same commit when it has written its rows and counted. -/
  | countTask (request : ReindexRequest) (target : ReindexTarget) (counts : Nat × Nat)

/-- The committed database, and the calls between two statements. -/
structure Site where
  db : Db
  pending : List Pending

/-! ## Locks -/

/-- The operations whose rows a cancel holds. -/
def lockedOperations (pending : List Pending) : List OperationId :=
  pending.filterMap fun
    | .cancel operationId => some operationId
    | _ => none

/-- The jobs whose rows a commit holds. -/
def lockedJobs (pending : List Pending) : List JobId :=
  pending.filterMap fun
    | .commitJob _ job => some job.id
    | _ => none

/-- The tasks whose rows a commit holds. -/
def lockedTasks (pending : List Pending) : List (OperationId × ChunkId) :=
  pending.filterMap fun
    | .commitTask request _ => some (request.operationId, request.chunkId)
    | .countTask request _ _ => some (request.operationId, request.chunkId)
    | _ => none

/-- The task's row is held. -/
def isLockedTask (site : Site) (operationId : OperationId) (chunkId : ChunkId) : Bool :=
  (lockedTasks site.pending).any fun key => key.1 = operationId ∧ key.2 = chunkId

/-- The job belongs to a locked operation. -/
def jobOperationLocked (site : Site) (operationId : Option OperationId) : Bool :=
  operationId.any fun o => o ∈ lockedOperations site.pending

/-- A row the call needs is locked. -/
def callWaits (site : Site) : WorkCall → Bool
  | .resume _ o | .cancel _ o | .retry _ o => o ∈ lockedOperations site.pending
  | .heartbeatJob jobId _ _ _ | .progressJob jobId _ _ _ | .requeueJob jobId _ _ _ =>
    jobId ∈ lockedJobs site.pending
  | .commitJob request => request.jobId ∈ lockedJobs site.pending
  | .poisonJob jobId leaseToken fencingToken _ =>
    jobId ∈ lockedJobs site.pending ∨ site.db.content.jobs.any fun j =>
      holdsJobLease site.db.now jobId leaseToken fencingToken j ∧
        jobOperationLocked site j.reprocessingOperationId
  | .commitTask request => isLockedTask site request.operationId request.chunkId
  | .failTask operationId chunkId leaseToken fencingToken _ =>
    isLockedTask site operationId chunkId ∨
      (operationId ∈ lockedOperations site.pending ∧ site.db.reprocessing.reindexTasks.any fun t =>
        holdsTaskTokens operationId chunkId leaseToken fencingToken t ∧ 3 ≤ t.attempt)
  | .deleteDocument _ d _ =>
    (site.db.content.jobs.any fun j => j.documentId = d ∧ j.id ∈ lockedJobs site.pending) ∨
      site.db.content.chunks.any fun c => c.documentId = d ∧
        (lockedTasks site.pending).any fun key => key.2 = c.id
  | _ => false

/-- The row the last statement updates is locked. -/
def pendingWaits (site : Site) : Pending → Bool
  | .pause operationId => operationId ∈ lockedOperations site.pending
  | .commitJob _ job => jobOperationLocked site job.reprocessingOperationId
  | .countTask request _ _ => request.operationId ∈ lockedOperations site.pending
  | _ => false

/-! ## Steps -/

/-- The call is over, or has more to do. -/
def ended : Except SqlError (Db × Bool) → Except SqlError (Db × Option Pending)
  | .error e => .error e
  | .ok (db, _) => .ok (db, none)

variable {db : Db}

theorem ended_ok {res : Except SqlError (Db × Bool)} {p : Option Pending}
    (h : ended res = .ok (db, p)) : ∃ r, res = .ok (db, r) := by
  cases res with
  | error e => cases h
  | ok r =>
    obtain ⟨hdb, -⟩ := Prod.mk.inj (Except.ok.inj h)
    exact ⟨r.2, congrArg Except.ok (Prod.ext hdb rfl)⟩

/-- The first step of a call. -/
def begin (db : Db) : WorkCall → Except SqlError (Db × Option Pending)
  | .tick elapsed => .ok ({ db with now := db.now + elapsed }, none)
  | .pause token operationId =>
    match v4RequireAdmin db token with
    | .error e => .error e
    | .ok _ =>
      if hasRunningWork db operationId then
        .error ⟨"40001", "operation is between safe pause boundaries"⟩
      else .ok (db, some (.pause operationId))
  | .resume token operationId => ended (v10AdminResumeReprocessing db token operationId)
  | .cancel token operationId =>
    match v4RequireAdmin db token with
    | .error e => .error e
    | .ok _ =>
      match db.reprocessing.operations.find? fun o => o.id = operationId with
      | none => .ok (db, none)
      | some operation =>
        if (operation.state ≠ .paused ∧ operation.state ≠ .failed) ∨
            hasRunningWork db operationId then .ok (db, none)
        else .ok (db, some (.cancel operationId))
  | .retry token operationId => ended (v10AdminRetryReprocessing db token operationId)
  | .claimJob owner leaseSeconds leaseToken =>
    .ok (db, some (.claimJob db owner leaseSeconds leaseToken))
  | .heartbeatJob jobId leaseToken fencingToken leaseSeconds =>
    ended (v4HeartbeatIngestionJob db jobId leaseToken fencingToken leaseSeconds)
  | .progressJob jobId leaseToken fencingToken report =>
    match v4UpdateIngestionProgress db jobId leaseToken fencingToken report.stage
        report.completed report.total with
    | .error e => .error e
    | .ok (db, _) => .ok (db, none)
  | .requeueJob jobId leaseToken fencingToken availableAt =>
    ended (v4RequeueIngestionJob db jobId leaseToken fencingToken availableAt)
  | .commitJob request => .ok (db, (lockIngestionJob db request).map (.commitJob request))
  | .poisonJob jobId leaseToken fencingToken error =>
    ended (v4PoisonIngestionJob db jobId leaseToken fencingToken error)
  | .claimTasks request => .ok (db, some (.claimTasks db request))
  | .commitTask request => .ok (db, (lockReindexTask db request).map (.commitTask request))
  | .failTask operationId chunkId leaseToken fencingToken error =>
    ended (v10FailReindexTask db operationId chunkId leaseToken fencingToken error)
  | .deleteDocument token d deletionId =>
    match v4AdminDeleteDocument db token d deletionId with
    | .error e => .error e
    | .ok (db, _) => .ok (db, none)

/-- The commit would leave a finished operation without `finished_at`. -/
def clearsFinished (db : Db) (job : IngestionJob) : Bool :=
  db.reprocessing.operations.any fun o => job.reprocessingOperationId = some o.id ∧
    OperationState.isTerminal o.state ∧ o.completedDocuments + 1 ≠ o.totalDocuments

/-- The next step of a call; a claim skips the rows that are locked. -/
def advance (db : Db) (jobs : List JobId) (tasks : List (OperationId × ChunkId)) :
    Pending → Except SqlError (Db × Option Pending)
  | .pause operationId => .ok ((moveOperation db operationId .running .paused).1, none)
  | .cancel operationId => .ok (cancelledDb db operationId, none)
  | .claimJob seen owner leaseSeconds leaseToken =>
    match claimIngestionJobAt seen db owner leaseSeconds leaseToken jobs with
    | .error e => .error e
    | .ok (db, _) => .ok (db, none)
  | .commitJob request job =>
    match shareEmbedding db request job with
    | .error e => .error e
    | .ok target =>
      match storeIngestion db request job target with
      | .error e => .error e
      | .ok stored =>
        if clearsFinished db job then
          .error (checkViolation "ck_reprocessing_operation_terminal")
        else .ok (stored, none)
  | .claimTasks seen request =>
    match claimReindexTasksAt seen db request tasks with
    | .error e => .error e
    | .ok (db, _) => .ok (db, none)
  | .commitTask request task =>
    match readReindexTarget db request task with
    | .error e => .error e
    | .ok target =>
      .ok (db, some (.countTask request target
        (countReindexTasks (storeReindexTask db request target) request.operationId)))
  | .countTask request target counts =>
    match countedReindex (storeReindexTask db request target) request.operationId counts with
    | .error e => .error e
    | .ok counted => .ok (counted, none)

/-- What happens at the site: a call begins, or the `i`-th call between two statements goes on.
The rows it names are locked by a claim that has not committed yet. -/
inductive Act where
  | call (call : WorkCall)
  | next (i : Nat) (jobs : List JobId) (tasks : List (OperationId × ChunkId))

/-- The site after the first step of a call. -/
def begun (site : Site) : Except SqlError (Db × Option Pending) → Site
  | .error _ => site
  | .ok (db, p) => ⟨db, site.pending ++ p.toList⟩

/-- The site after a later step; a call that raised is gone. -/
def advanced (site : Site) (i : Nat) : Except SqlError (Db × Option Pending) → Site
  | .error _ => { site with pending := site.pending.eraseIdx i }
  | .ok (db, none) => ⟨db, site.pending.eraseIdx i⟩
  | .ok (db, some p) => ⟨db, site.pending.set i p⟩

/-- One statement. -/
def siteStep (site : Site) : Act → Site
  | .call call => if callWaits site call then site else begun site (begin site.db call)
  | .next i jobs tasks =>
    match site.pending[i]? with
    | none => site
    | some p =>
      if pendingWaits site p then site
      else
        advanced site i (advance site.db (jobs ++ lockedJobs site.pending)
          (tasks ++ lockedTasks site.pending) p)

end LocalRag.Ingest
