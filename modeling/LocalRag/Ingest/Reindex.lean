import LocalRag.Ingest.Reprocess

/-!
# The tasks of a reindex

`v10_claim_reindex_tasks`, `v10_commit_reindex_task` and `v10_fail_reindex_task` of
`0010_versioned_reprocessing`.

A worker leases up to 32 tasks, embeds their chunks outside the database, and commits each
task under its lease. Both functions are written as their statements group under READ
COMMITTED. A claim is one statement: it chooses by its snapshot and locks what it chose, so
`claimReindexTasksAt` has the database its statement began on and the one it writes to. A commit
locks its task (`lockReindexTask`), reads what it embeds into (`readReindexTarget`), writes the
row and the vector (`storeReindexTask`), counts (`countReindexTasks`) and moves the operation
(`countedReindex`); the count is taken before the operation's row is locked.

Mirroring notes. Vectors are left out except for their dimension. The tokens one claim draws are
consecutive from the first. `finished_at` is left out, and with it is told which states it is set
in: `countedReindex` names the `CHECK` that would refuse a finished operation that is moved on.
-/

namespace LocalRag.Ingest

open LocalRag.Core Access Library Storage

/-- The operation's row is there and `running`. -/
def operationRuns (db : Db) (operationId : OperationId) : Bool :=
  db.reprocessing.operations.any fun o => o.id = operationId ∧ o.state = .running

/-- Two rows of `reindex_tasks` under one key. -/
def sameTask (t u : ReindexTask) : Bool := t.operationId = u.operationId ∧ t.chunkId = u.chunkId

/-! ## Claim -/

/-- The arguments of `v10_claim_reindex_tasks`, and the first token it draws. -/
structure ReindexClaimRequest where
  owner : String
  leaseSeconds : Nat
  limit : Nat
  leaseToken : LeaseToken
deriving Repr, DecidableEq

/-- One row of what the claim returns. -/
structure ReindexClaim where
  operationId : OperationId
  generationId : GenerationId
  chunkId : ChunkId
  chunkText : String
  textSha256 : HexText
  dimension : Nat
  embeddingVersion : String
  leaseToken : LeaseToken
  fencingToken : Nat
  attempt : Nat
deriving Repr, DecidableEq

/-- The `candidates` filter of the claim. -/
def isClaimableTask (db : Db) (t : ReindexTask) : Bool :=
  operationRuns db t.operationId ∧
    (t.state = .queued ∨ (t.state = .running ∧ t.leaseExpiresAt.any fun e => e ≤ db.now))

/-- `ORDER BY created_at, chunk_id`. -/
def taskUpTo (a b : ReindexTask) : Bool :=
  a.createdAt < b.createdAt ∨ (a.createdAt = b.createdAt ∧ a.chunkId ≤ b.chunkId)

/-- The rows a claim locks: chosen by the snapshot `seen`, and looked at again as they are. -/
def chosenTasks (seen db : Db) (limit : Nat) (locked : List (OperationId × ChunkId)) :
    List ReindexTask :=
  (((seen.reprocessing.reindexTasks.filter (isClaimableTask seen)).mergeSort taskUpTo).filterMap
    fun t => db.reprocessing.reindexTasks.find? fun u =>
      sameTask u t ∧ isClaimableTask seen u ∧ (u.operationId, u.chunkId) ∉ locked).take limit

/-- The row after a claim. -/
def claimedTask (now : Time) (request : ReindexClaimRequest) (i : Nat) (t : ReindexTask) :
    ReindexTask :=
  { t with
    state := .running
    attempt := t.attempt + 1
    leaseOwner := some request.owner
    leaseToken := some (request.leaseToken + i)
    leaseExpiresAt := some (now + request.leaseSeconds * second)
    fencingToken := t.fencingToken + 1 }

/-- The `claimed` rows, joined with their chunks and generations. -/
def reindexClaims (seen : Db) (claimed : List ReindexTask) : List ReindexClaim :=
  claimed.filterMap fun t =>
    match seen.content.chunks.find? (fun c => c.id = t.chunkId),
        seen.reprocessing.embeddingGenerations.find? (fun g => g.id = t.generationId) with
    | some chunk, some generation =>
      some {
        operationId := t.operationId
        generationId := t.generationId
        chunkId := t.chunkId
        chunkText := chunk.text
        textSha256 := chunk.textSha256
        dimension := generation.dimension
        embeddingVersion := generation.embeddingVersion
        leaseToken := t.leaseToken.getD 0
        fencingToken := t.fencingToken
        attempt := t.attempt }
    | _, _ => none

/-- The database after the rows `chosen` were claimed. -/
def claimedDb (seen db : Db) (request : ReindexClaimRequest) (chosen : List ReindexTask) : Db :=
  { db with
    reprocessing.reindexTasks := updateWhere (fun t => chosen.any (sameTask t))
      (fun t => claimedTask seen.now request (chosen.findIdx (sameTask t)) t)
      db.reprocessing.reindexTasks }

/-- `v10_claim_reindex_tasks`, whose statement began on `seen`; `locked` are the rows it skips. -/
def claimReindexTasksAt (seen db : Db) (request : ReindexClaimRequest)
    (locked : List (OperationId × ChunkId)) : Except SqlError (Db × List ReindexClaim) :=
  if request.owner.length < 1 ∨ 255 < request.owner.length ∨ request.leaseSeconds < 5 ∨
      3600 < request.leaseSeconds ∨ request.limit < 1 ∨ 32 < request.limit then
    .error ⟨"22023", "invalid reindex claim"⟩
  else
    let chosen := chosenTasks seen db request.limit locked
    -- `CHECK (attempt BETWEEN 0 AND 3)`
    if chosen.any fun t => 3 ≤ t.attempt then .error (checkViolation "reindex_tasks_attempt_check")
    else
      .ok (claimedDb seen db request chosen,
        reindexClaims seen (chosen.mapIdx (claimedTask seen.now request)))

/-- `v10_claim_reindex_tasks`. -/
def v10ClaimReindexTasks (db : Db) (request : ReindexClaimRequest)
    (locked : List (OperationId × ChunkId)) : Except SqlError (Db × List ReindexClaim) :=
  claimReindexTasksAt db db request locked

/-! ## Commit -/

/-- The arguments of `v10_commit_reindex_task`. -/
structure ReindexRequest where
  operationId : OperationId
  chunkId : ChunkId
  leaseToken : LeaseToken
  fencingToken : Nat
  /-- `vector_dims(p_embedding)`. -/
  dimension : Nat
deriving Repr, DecidableEq

/-- The task is leased under these tokens. -/
def holdsTaskTokens (operationId : OperationId) (chunkId : ChunkId) (leaseToken : LeaseToken)
    (fencingToken : Nat) (t : ReindexTask) : Bool :=
  t.operationId = operationId ∧ t.chunkId = chunkId ∧ t.state = .running ∧
    t.leaseToken = some leaseToken ∧ t.fencingToken = fencingToken

/-- And the lease has not expired. -/
def holdsTaskLease (now : Time) (request : ReindexRequest) (t : ReindexTask) : Bool :=
  holdsTaskTokens request.operationId request.chunkId request.leaseToken request.fencingToken t ∧
    t.leaseExpiresAt.any fun e => now < e

/-- The first statement and the operation's state; `none` when the commit returns false. -/
def lockReindexTask (db : Db) (request : ReindexRequest) : Option ReindexTask :=
  (db.reprocessing.reindexTasks.find? (holdsTaskLease db.now request)).filter fun _ =>
    operationRuns db request.operationId

/-- The rows the commit reads. -/
structure ReindexTarget where
  generation : EmbeddingGeneration
  source : Chunk
deriving Repr, DecidableEq

/-- The `building` generation and the chunk, and the check on the vector. -/
def readReindexTarget (db : Db) (request : ReindexRequest) (task : ReindexTask) :
    Except SqlError ReindexTarget :=
  match db.reprocessing.embeddingGenerations.find? (fun g =>
      g.id = task.generationId ∧ g.state = .building),
      db.content.chunks.find? (fun c => c.id = request.chunkId) with
  | some generation, some source =>
    if request.dimension ≠ generation.dimension then
      .error ⟨"22023", "candidate embedding dimension mismatch"⟩
    else .ok ⟨generation, source⟩
  | _, _ => .error noDataFound

/-- The task row after the commit. -/
def completedTask (t : ReindexTask) : ReindexTask :=
  { t with
    state := .completed
    error := none
    leaseOwner := none
    leaseToken := none
    leaseExpiresAt := none }

/-- `INSERT … ON CONFLICT DO UPDATE`: the conflicting row keeps its key and its document
generation. -/
def upsertEmbedding (row : ChunkEmbedding) (rows : List ChunkEmbedding) : List ChunkEmbedding :=
  let conflicts (x : ChunkEmbedding) : Bool :=
    x.embeddingGenerationId = row.embeddingGenerationId ∧ x.chunkId = row.chunkId
  if rows.any conflicts then
    updateWhere conflicts (fun x => { x with
      dimension := row.dimension
      textSha256 := row.textSha256
      provenance := row.provenance }) rows
  else rows ++ [row]

/-- The vector and the task's row. -/
def storeReindexTask (db : Db) (request : ReindexRequest) (target : ReindexTarget) : Db :=
  { db with
    reprocessing.chunkEmbeddings := upsertEmbedding
      (embeddingRow target.generation target.source.documentGenerationId target.source.id
        target.source.textSha256) db.reprocessing.chunkEmbeddings
    reprocessing.reindexTasks := updateWhere
      (fun t => t.operationId = request.operationId ∧ t.chunkId = request.chunkId) completedTask
      db.reprocessing.reindexTasks }

/-- `count(*) FILTER (WHERE state = 'completed'), count(*)`. -/
def countReindexTasks (db : Db) (operationId : OperationId) : Nat × Nat :=
  let tasks := db.reprocessing.reindexTasks.filter fun t => t.operationId = operationId
  ((tasks.filter fun t => t.state = .completed).length, tasks.length)

/-- `state IN ('succeeded','failed','cancelled')`: the states in which `finished_at` is set. -/
def OperationState.isTerminal : OperationState → Bool
  | .succeeded | .failed | .cancelled => true
  | _ => false

/-- The operation row after a task was counted. -/
def countedTasks (counts : Nat × Nat) (o : ReprocessingOperation) : ReprocessingOperation :=
  { o with
    completedChunks := counts.1
    state := if counts.1 = counts.2 then .qualifying else o.state }

/-- `UPDATE reprocessing_operations`, with the two constraints it can meet. -/
def countedReindex (db : Db) (operationId : OperationId) (counts : Nat × Nat) :
    Except SqlError Db :=
  if counts.1 = counts.2 ∧ db.reprocessing.operations.any fun o =>
      o.id = operationId ∧ OperationState.isTerminal o.state then
    .error (checkViolation "ck_reprocessing_operation_terminal")
  else
    .ok { db with
      reprocessing.operations := updateWhere (fun o => o.id = operationId) (countedTasks counts)
        db.reprocessing.operations }

/-- `v10_commit_reindex_task`. -/
def v10CommitReindexTask (db : Db) (request : ReindexRequest) : Except SqlError (Db × Bool) :=
  match lockReindexTask db request with
  | none => .ok (db, false)
  | some task =>
    match readReindexTarget db request task with
    | .error e => .error e
    | .ok target =>
      let stored := storeReindexTask db request target
      match countedReindex stored request.operationId
          (countReindexTasks stored request.operationId) with
      | .error e => .error e
      | .ok counted => .ok (counted, true)

/-! ## Fail -/

/-- The task row after its worker gave up. -/
def failedTask (error : String) (t : ReindexTask) : ReindexTask :=
  { t with
    state := if t.attempt < 3 then .queued else .failed
    error := some (clippedError error)
    leaseOwner := none
    leaseToken := none
    leaseExpiresAt := none }

/-- The operation row after a task failed for good. -/
def failedOperation (o : ReprocessingOperation) : ReprocessingOperation :=
  { o with
    state := .failed
    reasonCode := some "embedding_task_failed" }

/-- The database a failed task leaves. -/
def failedTaskDb (db : Db) (task : ReindexTask) (error : String) : Db :=
  { db with
    reprocessing.reindexTasks := updateWhere (sameTask task) (failedTask error)
      db.reprocessing.reindexTasks
    reprocessing.embeddingGenerations :=
      if task.attempt < 3 then db.reprocessing.embeddingGenerations
      else updateWhere (fun g => g.operationId = some task.operationId)
        (fun g => { g with state := .abandoned, retiredAt := some db.now })
        db.reprocessing.embeddingGenerations
    reprocessing.operations :=
      if task.attempt < 3 then db.reprocessing.operations
      else updateWhere (fun o => o.id = task.operationId) failedOperation
        db.reprocessing.operations }

/-- `v10_fail_reindex_task`. -/
def v10FailReindexTask (db : Db) (operationId : OperationId) (chunkId : ChunkId)
    (leaseToken : LeaseToken) (fencingToken : Nat) (error : String) :
    Except SqlError (Db × Bool) :=
  match db.reprocessing.reindexTasks.find?
      (holdsTaskTokens operationId chunkId leaseToken fencingToken) with
  | none => .ok (db, false)
  | some task => .ok (failedTaskDb db task error, true)

/-! ## What each call can do -/

/-- A row that was chosen is a row that can be claimed, by the snapshot's operations. -/
theorem mem_chosenTasks {seen db : Db} {limit : Nat} {locked : List (OperationId × ChunkId)}
    {t : ReindexTask} (h : t ∈ chosenTasks seen db limit locked) :
    t ∈ db.reprocessing.reindexTasks ∧ isClaimableTask seen t = true ∧
      (t.operationId, t.chunkId) ∉ locked := by
  unfold chosenTasks at h
  obtain ⟨row, -, hfind⟩ := List.mem_filterMap.mp (List.mem_of_mem_take h)
  have hcond := List.find?_some hfind
  simp only [decide_eq_true_eq] at hcond
  exact ⟨List.mem_of_find?_eq_some hfind, hcond.2⟩

/-- The operation of a row that can be claimed is running. -/
theorem isClaimableTask_runs {db : Db} {t : ReindexTask} (h : isClaimableTask db t = true) :
    operationRuns db t.operationId = true := by
  simp only [isClaimableTask, decide_eq_true_eq] at h
  exact h.1

/-- A claim leases the rows it chose, none of them for a fourth time. -/
theorem claimReindexTasksAt_ok {seen db db' : Db} {request : ReindexClaimRequest}
    {locked : List (OperationId × ChunkId)} {r : List ReindexClaim}
    (h : claimReindexTasksAt seen db request locked = .ok (db', r)) :
    db' = claimedDb seen db request (chosenTasks seen db request.limit locked) ∧
      ∀ t ∈ chosenTasks seen db request.limit locked, t.attempt < 3 := by
  unfold claimReindexTasksAt at h
  rw [ite_error_eq_ok] at h
  obtain ⟨-, h⟩ := h
  dsimp only at h
  rw [ite_error_eq_ok] at h
  obtain ⟨hattempts, h⟩ := h
  refine ⟨(left_of_ok h).symm, fun t ht => ?_⟩
  by_contra hle
  exact hattempts (List.any_eq_true.mpr ⟨t, ht, decide_eq_true (Nat.not_lt.mp hle)⟩)

/-- The task a commit locked is a row of the table, held under the request's lease. -/
theorem lockReindexTask_some {db : Db} {request : ReindexRequest} {task : ReindexTask}
    (h : lockReindexTask db request = some task) :
    task ∈ db.reprocessing.reindexTasks ∧ holdsTaskLease db.now request task = true ∧
      operationRuns db request.operationId = true := by
  unfold lockReindexTask at h
  obtain ⟨hfind, hruns⟩ := Option.filter_eq_some_iff.mp h
  exact ⟨List.mem_of_find?_eq_some hfind, List.find?_some hfind, hruns⟩

/-- A failed task was held under the tokens its worker shows. -/
theorem v10FailReindexTask_ok {db db' : Db} {operationId : OperationId} {chunkId : ChunkId}
    {leaseToken : LeaseToken} {fencingToken : Nat} {error : String} {r : Bool}
    (h : v10FailReindexTask db operationId chunkId leaseToken fencingToken error = .ok (db', r)) :
    db' = db ∨ ∃ task ∈ db.reprocessing.reindexTasks,
      holdsTaskTokens operationId chunkId leaseToken fencingToken task = true ∧
        db' = failedTaskDb db task error := by
  unfold v10FailReindexTask at h
  split at h
  · exact Or.inl (left_of_ok h).symm
  next task hfind =>
    exact Or.inr ⟨task, List.mem_of_find?_eq_some hfind, List.find?_some hfind,
      (left_of_ok h).symm⟩

end LocalRag.Ingest
