import LocalRag.Ingest.Reindex

/-!
# Qualification of a reindex, and the cutover

`v10_claim_reindex_qualification` and `v10_complete_reindex_qualification` of
`0010_versioned_reprocessing`.

When the last task of a reindex is committed its operation is `qualifying`. A
worker leases it, tries the candidate on a few chunks, and reports four verdicts.
The candidate is abandoned if a verdict is bad, if the served chunks are no longer
the ones the operation embedded, or if a vector is missing or of other text; else
it becomes the active generation and the one before it is retained.

Mirroring notes. Operations stand in the order they were created, which is the
order of the claim. The provenance hash is kept as what it hashes. The length of a
stored vector is its `dimension` by the table's own `CHECK`. `qualified_at`,
`activated_at` and the `qualification` documents are left out.
-/

namespace LocalRag.Ingest

open LocalRag.Core Access Library Storage

/-! ## Claim -/

/-- One row of what the claim returns. -/
structure QualificationClaim where
  operationId : OperationId
  generationId : GenerationId
  dimension : Nat
  leaseToken : LeaseToken
  fencingToken : Nat
deriving Repr, DecidableEq

/-- The `candidate` filter of the claim. -/
def isClaimableQualification (db : Db) (o : ReprocessingOperation) : Bool :=
  o.operationType = .reindex ∧ o.state = .qualifying ∧
    (o.leaseToken = none ∨ o.leaseExpiresAt.any fun t => t ≤ db.now)

/-- The operation row after a claim. -/
def leasedOperation (now : Time) (owner : String) (leaseSeconds : Nat) (leaseToken : LeaseToken)
    (o : ReprocessingOperation) : ReprocessingOperation :=
  { o with
    leaseOwner := some owner
    leaseToken := some leaseToken
    leaseExpiresAt := some (now + leaseSeconds * second)
    fencingToken := o.fencingToken + 1 }

/-- `v10_claim_reindex_qualification`; `locked` are the rows it skips. -/
def v10ClaimReindexQualification (db : Db) (owner : String) (leaseSeconds : Nat)
    (leaseToken : LeaseToken) (locked : List OperationId) :
    Except SqlError (Db × Option QualificationClaim) :=
  if owner.length < 1 ∨ 255 < owner.length ∨ leaseSeconds < 5 ∨ 3600 < leaseSeconds then
    .error ⟨"22023", "invalid qualification claim"⟩
  else
    match db.reprocessing.operations.find? fun o =>
        isClaimableQualification db o ∧ o.id ∉ locked with
    | none => .ok (db, none)
    | some operation =>
      match db.reprocessing.embeddingGenerations.find? fun g =>
          operation.operationGenerationId = some g.id with
      | none => .ok (db, none)
      | some generation =>
        .ok ({ db with
          reprocessing.operations := updateWhere (fun o => o.id = operation.id)
            (leasedOperation db.now owner leaseSeconds leaseToken) db.reprocessing.operations },
          some {
            operationId := operation.id
            generationId := generation.id
            dimension := generation.dimension
            leaseToken := leaseToken
            fencingToken := operation.fencingToken + 1 })

/-! ## Complete -/

/-- The arguments of `v10_complete_reindex_qualification`. -/
structure QualificationReport where
  operationId : OperationId
  leaseToken : LeaseToken
  fencingToken : Nat
  retrievalPassed : Bool
  rerankPassed : Bool
  citationPassed : Bool
  insufficientContextPassed : Bool
  reasonCode : Option String
deriving Repr, DecidableEq

/-- The operation is leased under the report's tokens. -/
def holdsQualification (now : Time) (report : QualificationReport) (o : ReprocessingOperation) :
    Bool :=
  o.id = report.operationId ∧ o.state = .qualifying ∧ o.leaseToken = some report.leaseToken ∧
    o.fencingToken = report.fencingToken ∧ o.leaseExpiresAt.any fun t => now < t

/-- The chunks of the operation's tasks. -/
def taskChunks (db : Db) (operationId : OperationId) : List ChunkId :=
  (db.reprocessing.reindexTasks.filter fun t => t.operationId = operationId).map (·.chunkId)

/-- `source_changed`: the tasks and the served chunks are not the same chunks. -/
def sourceChanged (db : Db) (operationId : OperationId) : Bool :=
  let served := (servedChunks db).map (·.id)
  (taskChunks db operationId).any (· ∉ served) ∨ served.any (· ∉ taskChunks db operationId)

/-- The vectors of a generation with their chunks. -/
def candidateVectors (db : Db) (generation : EmbeddingGeneration) : List (ChunkEmbedding × Chunk) :=
  (db.reprocessing.chunkEmbeddings.filter fun x =>
    x.embeddingGenerationId = generation.id).flatMap fun x =>
      (db.content.chunks.filter fun c => c.id = x.chunkId).map fun c => (x, c)

/-- One term of `provenance_ok`. -/
def provenanceMatches (generation : EmbeddingGeneration) (v : ChunkEmbedding × Chunk) : Bool :=
  v.1.dimension = generation.dimension ∧ v.1.textSha256 = v.2.textSha256 ∧
    v.1.documentGenerationId = v.2.documentGenerationId ∧
    v.1.provenance =
      (v.2.id, v.2.textSha256, v.2.documentGenerationId, generation.embeddingVersion)

/-- The condition on which the candidate is abandoned; `bool_and` of no row is not true. -/
def isRejected (db : Db) (report : QualificationReport) (operation : ReprocessingOperation)
    (generation : EmbeddingGeneration) : Bool :=
  let candidates := candidateVectors db generation
  sourceChanged db report.operationId ∨ candidates.length ≠ operation.totalChunks ∨
    ¬ (candidates ≠ [] ∧ candidates.all (provenanceMatches generation)) ∨
    ¬ report.retrievalPassed ∨ ¬ report.rerankPassed ∨ ¬ report.citationPassed ∨
    ¬ report.insufficientContextPassed

/-- `left(COALESCE(NULLIF(p_reason_code, ''), …), 128)`. -/
def qualificationReason (reasonCode : Option String) : String :=
  String.ofList
    (((reasonCode.filter (· ≠ "")).getD "candidate_qualification_failed").toList.take 128)

/-- The operation row after its candidate was abandoned. -/
def rejectedOperation (reasonCode : Option String) (o : ReprocessingOperation) :
    ReprocessingOperation :=
  { o with
    state := .failed
    reasonCode := some (qualificationReason reasonCode)
    leaseOwner := none
    leaseToken := none
    leaseExpiresAt := none }

/-- The database an abandoned candidate leaves. -/
def rejectedDb (db : Db) (report : QualificationReport) (generation : EmbeddingGeneration) : Db :=
  { db with
    reprocessing.embeddingGenerations := updateWhere (fun g => g.id = generation.id)
      (fun g => { g with state := .abandoned, retiredAt := some db.now })
      db.reprocessing.embeddingGenerations
    reprocessing.operations := updateWhere (fun o => o.id = report.operationId)
      (rejectedOperation report.reasonCode) db.reprocessing.operations }

/-- The operation row after the cutover. -/
def succeededOperation (o : ReprocessingOperation) : ReprocessingOperation :=
  { o with
    state := .succeeded
    reasonCode := none
    completedDocuments := o.totalDocuments
    completedChunks := o.totalChunks
    leaseOwner := none
    leaseToken := none
    leaseExpiresAt := none }

/-- The database after the cutover. -/
def cutoverDb (db : Db) (report : QualificationReport) (generation : EmbeddingGeneration) : Db :=
  { db with
    reprocessing.embeddingGenerations := updateWhere (fun g => g.id = generation.id)
      (fun g => { g with state := .active, retiredAt := none })
      (updateWhere (fun g => g.id = db.reprocessing.activeEmbeddingGeneration)
        (fun g => { g with state := .retained, retiredAt := some db.now })
        db.reprocessing.embeddingGenerations)
    reprocessing.activeEmbeddingGeneration := generation.id
    content.documents := updateWhere (fun d => d.state = .ready)
      (fun d => { d with embeddingVersion := generation.embeddingVersion }) db.content.documents
    reprocessing.operations := updateWhere (fun o => o.id = report.operationId)
      succeededOperation db.reprocessing.operations }

/-- `v10_complete_reindex_qualification`. -/
def v10CompleteReindexQualification (db : Db) (report : QualificationReport) :
    Except SqlError (Db × Bool) :=
  match db.reprocessing.operations.find? (holdsQualification db.now report) with
  | none => .ok (db, false)
  | some operation =>
    match db.reprocessing.embeddingGenerations.find? fun g =>
        operation.operationGenerationId = some g.id with
    | none => .error noDataFound
    | some generation =>
      if isRejected db report operation generation then
        .ok (rejectedDb db report generation, true)
      else .ok (cutoverDb db report generation, true)

/-! ## What each call can do -/

/-- A claim writes the lease of an operation, or nothing. -/
theorem v10ClaimReindexQualification_ok {db db' : Db} {owner : String} {leaseSeconds : Nat}
    {leaseToken : LeaseToken} {locked : List OperationId} {r : Option QualificationClaim}
    (h : v10ClaimReindexQualification db owner leaseSeconds leaseToken locked = .ok (db', r)) :
    db' = db ∨ ∃ operationId, db' = { db with
      reprocessing.operations := updateWhere (fun o => o.id = operationId)
        (leasedOperation db.now owner leaseSeconds leaseToken) db.reprocessing.operations } := by
  unfold v10ClaimReindexQualification at h
  rw [ite_error_eq_ok] at h
  obtain ⟨-, h⟩ := h
  split at h
  · exact Or.inl (left_of_ok h).symm
  next operation _ =>
    split at h
    · exact Or.inl (left_of_ok h).symm
    · exact Or.inr ⟨operation.id, (left_of_ok h).symm⟩

/-- A report is refused, or it decides the candidate of the operation it holds. -/
theorem v10CompleteReindexQualification_ok {db db' : Db} {report : QualificationReport} {r : Bool}
    (h : v10CompleteReindexQualification db report = .ok (db', r)) :
    db' = db ∨ ∃ operation ∈ db.reprocessing.operations,
      ∃ generation ∈ db.reprocessing.embeddingGenerations,
        operation.id = report.operationId ∧ operation.state = .qualifying ∧
        operation.operationGenerationId = some generation.id ∧
        (db' = rejectedDb db report generation ∨ db' = cutoverDb db report generation) := by
  unfold v10CompleteReindexQualification at h
  split at h
  · exact Or.inl (left_of_ok h).symm
  next operation hfind =>
    have hheld := List.find?_some hfind
    simp only [holdsQualification, decide_eq_true_eq] at hheld
    split at h
    · cases h
    next generation hgeneration =>
      refine Or.inr ⟨operation, List.mem_of_find?_eq_some hfind, generation,
        List.mem_of_find?_eq_some hgeneration, hheld.1, hheld.2.1,
        by simpa using List.find?_some hgeneration, ?_⟩
      split at h
      · exact Or.inl (left_of_ok h).symm
      · exact Or.inr (left_of_ok h).symm

end LocalRag.Ingest
