import LocalRag.Ingest.Fencing
import LocalRag.Ingest.Reprocess
import LocalRag.Storage.Steps

/-!
# The ingestion system — its calls, and every way a call changes a document

`IngestCall` adds to the calls of the library the ones of the ingestion workers,
the two that queue a document again and the administrator's reprocessing calls.

`ContentStep db call content` is for `documents`, `document_generations`, `chunks`
and `ingestion_jobs` what `Storage.StorageStep` is for uploads: one constructor
per write, with what the function checked first. An invariant of the four tables
has one case per constructor (`Ingest.Versions`).
-/

namespace LocalRag.Ingest

open LocalRag.Core Access Library Storage

inductive IngestCall where
  | library (call : Call)
  | job (call : JobCall)
  | maintenanceRequeue (documentId : DocumentId) (snapshot : DocumentSnapshot) (jobId : JobId)
      (retryOnly : Bool)
  | documentReingest (token : Option HexText) (documentId : DocumentId)
      (snapshot : DocumentSnapshot) (jobId : JobId)
  | previewReprocessing (token : Option HexText) (previewId : PreviewId)
      (operationType : Option OperationType) (targetProfileId : String)
      (sourceParserVersion : Option String)
  | issueGrant (token : Option HexText) (previewId : PreviewId) (impact : ReprocessingImpact)
      (tokenHash : HexText)
  | startReprocessing (token : Option HexText) (ids : StartIds) (previewId : PreviewId)
      (impact : ReprocessingImpact) (tokenHash : HexText)
  | pause (token : Option HexText) (operationId : OperationId)
  | resume (token : Option HexText) (operationId : OperationId)
  | cancel (token : Option HexText) (operationId : OperationId)
  | retry (token : Option HexText) (operationId : OperationId)
  | rollbackEmbedding (token : Option HexText) (generationId : GenerationId)
  | cleanupGeneration (token : Option HexText) (generationType : GenerationType)
      (generationId : GenerationId)
deriving Repr, DecidableEq

/-- One transaction, or one advance of the clock. -/
def ingestStep (db : Db) : IngestCall → Db
  | .library call => step db call
  | .job call => jobStep db call
  | .maintenanceRequeue d snapshot jobId retryOnly =>
    commit db (v4MaintenanceRequeueDocument db d snapshot jobId retryOnly)
  | .documentReingest token d snapshot jobId =>
    commit db (v4CommitDocumentReingest db token d snapshot jobId)
  | .previewReprocessing token previewId operationType targetProfileId source =>
    commit db (v10AdminPreviewReprocessing db token previewId operationType targetProfileId source)
  | .issueGrant token previewId impact tokenHash =>
    commit db (v10AdminIssueReprocessingGrant db token previewId impact tokenHash)
  | .startReprocessing token ids previewId impact tokenHash =>
    commit db (v10AdminStartReprocessing db token ids previewId impact tokenHash)
  | .pause token operationId => commit db (v10AdminPauseReprocessing db token operationId)
  | .resume token operationId => commit db (v10AdminResumeReprocessing db token operationId)
  | .cancel token operationId => commit db (v10AdminCancelReprocessing db token operationId)
  | .retry token operationId => commit db (v10AdminRetryReprocessing db token operationId)
  | .rollbackEmbedding token generationId =>
    commit db (v10AdminRollbackEmbeddingGeneration db token generationId)
  | .cleanupGeneration token generationType generationId =>
    commit db (v10AdminCleanupGeneration db token generationType generationId)

/-- The four tables after a document's rows are gone. -/
def deletedContent (content : Content) (d : DocumentId) : Content :=
  { documents := deleteWhere (fun x => x.id = d) content.documents
    generations := deleteWhere (fun x => x.documentId = d) content.generations
    chunks := deleteWhere (fun x => x.documentId = d) content.chunks
    jobs := deleteWhere (fun x => x.documentId = d) content.jobs }

/-- `call` takes the four tables of `db` to these by one of these writes. -/
inductive ContentStep (db : Db) : IngestCall → Content → Prop where
  /-- A call on other tables, or one that changes nothing. -/
  | same {call : IngestCall} : ContentStep db call db.content
  /-- An upload of new content. -/
  | create {token : Option HexText} {reservationId : ReservationId} {ids : CommitIds}
      {request : UploadRequest} {content : Content}
      (document : insertDocument db ids request = .ok content) :
      ContentStep db (.library (.commitUpload token reservationId ids request)) content
  /-- A document's deletion. -/
  | delete {token : Option HexText} {d : DocumentId} {deletionId : DeletionId} :
      ContentStep db (.library (.deleteDocument token d deletionId)) (deletedContent db.content d)
  /-- A worker's claim, heartbeat or requeue. -/
  | rows {call : JobCall} {jobs : List IngestionJob}
      (ids : jobs.map (·.id) = db.content.jobs.map (·.id))
      (rows : ∀ j' ∈ jobs, ∃ j ∈ db.content.jobs, RowStep db j call j') :
      ContentStep db (.job call) { db.content with jobs := jobs }
  /-- Accepted progress. -/
  | progress {l : JobLease} {report : ProgressCall} {job : IngestionJob}
      (mem : job ∈ db.content.jobs) (held : l.holds db.now job = true)
      (stage : report.stage ∈ [.parsing, .chunking, .embedding, .indexing]) :
      ContentStep db (.job (.progress l.jobId l.leaseToken l.fencingToken report))
        (progressedDb db job report.stage report.completed report.total).content
  /-- A committed job. -/
  | commit {request : IngestRequest} {job : IngestionJob} {target : IngestTarget}
      {document : Document} {operations : List ReprocessingOperation}
      (mem : job ∈ db.content.jobs)
      (held : holdsJobLease db.now request.jobId request.leaseToken request.fencingToken job = true)
      (share : shareEmbedding db request job = .ok target)
      (documentMem : document ∈ db.content.documents) (documentId : document.id = job.documentId)
      (answer : jobAnswer db (.commit request) = .ok (.returned true)) :
      ContentStep db (.job (.commit request))
        (ingestedDb db request job target document operations).content
  /-- A poisoned job. -/
  | poison {l : JobLease} {error : String} {job : IngestionJob}
      (mem : job ∈ db.content.jobs) (held : l.holds db.now job = true) :
      ContentStep db (.job (.poison l.jobId l.leaseToken l.fencingToken error))
        (poisonedDb db job error).content
  /-- A document queued again; only the maintenance call does that to one that has
  not failed. -/
  | requeue {call : IngestCall} {document : Document} {jobId : JobId}
      (mem : document ∈ db.content.documents) (idle : hasActiveJob db document.id = false)
      (fresh : ∀ j ∈ db.content.jobs, j.id ≠ jobId)
      (by_ : document.state = .failed ∨
        ∃ snapshot retryOnly, call = .maintenanceRequeue document.id snapshot jobId retryOnly) :
      ContentStep db call (requeuedDb db document jobId).content
  /-- A started reingestion. -/
  | start {token : Option HexText} {ids : StartIds} {previewId : PreviewId}
      {impact : ReprocessingImpact} {tokenHash : HexText}
      (freshGenerations : ∀ g ∈ db.content.generations,
        ∀ g' ∈ (reingestTargets db impact).mapIdx (reingestGeneration ids impact), g.id ≠ g'.id)
      (freshJobs : ∀ j ∈ db.content.jobs,
        ∀ j' ∈ (reingestTargets db impact).mapIdx (reingestJob db.now ids), j.id ≠ j'.id) :
      ContentStep db (.startReprocessing token ids previewId impact tokenHash)
        (startedContent db ids impact)
  /-- A cancelled operation. -/
  | cancel {token : Option HexText} {operationId : OperationId} :
      ContentStep db (.cancel token operationId) (cancelledDb db operationId).content
  /-- A retried operation. -/
  | retry {token : Option HexText} {operationId : OperationId} (operation : ReprocessingOperation) :
      ContentStep db (.retry token operationId) (retriedWork db operation).content
  /-- A removed generation. -/
  | cleanup {token : Option HexText} {generationType : GenerationType}
      {generationId : GenerationId}
      (inactive : ∀ d ∈ db.content.documents, d.activeGenerationId ≠ generationId) :
      ContentStep db (.cleanupGeneration token generationType generationId)
        (deleteGenerationRows db generationId).content

variable {db : Db}

/-- The commit of a transaction takes a step if every way it returns does. -/
theorem contentStep_commit {ρ : Type} {call : IngestCall} {res : Except SqlError (Db × ρ)}
    (h : ∀ db' r, res = .ok (db', r) → ContentStep db call db'.content) :
    ContentStep db call (LocalRag.Core.commit db res).content :=
  commit_inv (fun db' : Db => ContentStep db call db'.content) .same h

/-- A library call leaves the four tables alone, or is an upload or a deletion. -/
theorem step_content (htree : TreeInv db.library.nodes) (call : Call) :
    ContentStep db (.library call) (step db call).content := by
  generalize hdb : step db call = db'
  have hstep : StorageStep db call db' := hdb ▸ step_storage htree call
  cases hstep with
  | other _ hcontent =>
    rw [hcontent]
    exact .same
  | create _ _ hdoc => exact .create hdoc
  | delete => exact .delete
  | expire => exact .same
  | reserve => exact .same
  | duplicate => exact .same
  | sweep => exact .same
  | claim => exact .same
  | heartbeat => exact .same
  | finish => exact .same
  | release => exact .same

/-- A worker's call takes one step. -/
theorem jobStep_content (hkeys : Keyed (·.id) db.content.jobs) (call : JobCall) :
    ContentStep db (.job call) (jobStep db call).content := by
  have heffect := jobStep_effect db call
  have hrows := jobStep_rows hkeys call
  generalize jobStep db call = after at heffect hrows
  cases heffect with
  | same => exact .same
  | tick => exact .same
  | progress l report mem held stage => exact .progress mem held stage
  | commit mem held share documentMem documentId _ answer =>
    exact .commit mem held share documentMem documentId answer
  | poison l error mem held => exact .poison mem held
  -- a call that writes `jobs` alone is given by its rows
  | claim | heartbeat | requeue => exact .rows hrows.ids hrows.rows

/-- The calls that are not the library's leave the library and the accounts alone. -/
theorem ingestStep_frame (db : Db) {call : IngestCall} (hother : ∀ c, call ≠ .library c) :
    (ingestStep db call).library = db.library ∧
      (ingestStep db call).accounts = db.accounts := by
  have hcommit : ∀ {ρ : Type} {res : Except SqlError (Db × ρ)},
      (∀ db' r, res = .ok (db', r) → db'.library = db.library ∧ db'.accounts = db.accounts) →
      (LocalRag.Core.commit db res).library = db.library ∧
        (LocalRag.Core.commit db res).accounts = db.accounts :=
    commit_inv (fun db' : Db => db'.library = db.library ∧ db'.accounts = db.accounts) ⟨rfl, rfl⟩
  cases call with
  | library call => exact absurd rfl (hother call)
  | job call =>
    have heffect := jobStep_effect db call
    show (jobStep db call).library = _ ∧ (jobStep db call).accounts = _
    generalize jobStep db call = after at heffect
    cases heffect with
    | same | tick | claim | heartbeat | progress | commit | requeue | poison => exact ⟨rfl, rfl⟩
  | maintenanceRequeue =>
    refine hcommit fun db' r heq => ?_
    rcases v4MaintenanceRequeueDocument_ok heq with rfl | ⟨_, _, _, _, _, rfl⟩
    · exact ⟨rfl, rfl⟩
    · exact ⟨rfl, rfl⟩
  | documentReingest =>
    refine hcommit fun db' r heq => ?_
    rcases v4CommitDocumentReingest_ok heq with rfl | ⟨_, _, _, _, _, _, rfl⟩
    · exact ⟨rfl, rfl⟩
    · exact ⟨rfl, rfl⟩
  | previewReprocessing =>
    refine hcommit fun db' r heq => ?_
    obtain ⟨_, rfl⟩ := v10AdminPreviewReprocessing_ok heq
    exact ⟨rfl, rfl⟩
  | issueGrant =>
    refine hcommit fun db' r heq => ?_
    obtain ⟨_, rfl⟩ := v10AdminIssueReprocessingGrant_ok heq
    exact ⟨rfl, rfl⟩
  | startReprocessing =>
    refine hcommit fun db' r heq => ?_
    obtain ⟨_, _, _, _, hstarted, rfl⟩ := v10AdminStartReprocessing_ok heq
    cases hstarted with
    | reindex => exact ⟨rfl, rfl⟩
    | reingestion => exact ⟨rfl, rfl⟩
  | pause =>
    refine hcommit fun db' r heq => ?_
    obtain rfl := v10AdminPauseReprocessing_ok heq
    exact ⟨rfl, rfl⟩
  | resume =>
    refine hcommit fun db' r heq => ?_
    obtain rfl := v10AdminResumeReprocessing_ok heq
    exact ⟨rfl, rfl⟩
  | cancel =>
    refine hcommit fun db' r heq => ?_
    rcases v10AdminCancelReprocessing_ok heq with rfl | ⟨_, _, _, _, _, rfl⟩
    · exact ⟨rfl, rfl⟩
    · exact ⟨rfl, rfl⟩
  | retry =>
    refine hcommit fun db' r heq => ?_
    rcases v10AdminRetryReprocessing_ok heq with rfl | ⟨operation, _, _, _, rfl⟩
    · exact ⟨rfl, rfl⟩
    · obtain ⟨-, -, hlibrary, -, haccounts⟩ := retriedWork_untouched db operation
      exact ⟨hlibrary, haccounts⟩
  | rollbackEmbedding =>
    refine hcommit fun db' r heq => ?_
    rcases v10AdminRollbackEmbeddingGeneration_ok heq with ⟨rfl, _⟩ | ⟨_, _, _, _, rfl, _⟩
    · exact ⟨rfl, rfl⟩
    · exact ⟨rfl, rfl⟩
  | cleanupGeneration =>
    refine hcommit fun db' r heq => ?_
    rcases v10AdminCleanupGeneration_ok heq with rfl | ⟨_, _, rfl⟩ | ⟨_, _, rfl⟩
    · exact ⟨rfl, rfl⟩
    · exact ⟨rfl, rfl⟩
    · exact ⟨rfl, rfl⟩

/-- Every call of the ingestion system takes one step on the four tables. -/
theorem ingestStep_content (htree : TreeInv db.library.nodes)
    (hkeys : Keyed (·.id) db.content.jobs) (call : IngestCall) :
    ContentStep db call (ingestStep db call).content := by
  cases call with
  | library call => exact step_content htree call
  | job call => exact jobStep_content hkeys call
  | maintenanceRequeue d snapshot jobId retryOnly =>
    refine contentStep_commit fun db' r h => ?_
    rcases v4MaintenanceRequeueDocument_ok h with rfl | ⟨document, hmem, rfl, hidle, hfresh, rfl⟩
    · exact .same
    · exact .requeue hmem hidle hfresh (Or.inr ⟨snapshot, retryOnly, rfl⟩)
  | documentReingest =>
    refine contentStep_commit fun db' r h => ?_
    rcases v4CommitDocumentReingest_ok h with
      rfl | ⟨document, hmem, rfl, hfailed, hidle, hfresh, rfl⟩
    · exact .same
    · exact .requeue hmem hidle hfresh (Or.inl hfailed)
  | previewReprocessing =>
    refine contentStep_commit fun db' r h => ?_
    obtain ⟨_, rfl⟩ := v10AdminPreviewReprocessing_ok h
    exact .same
  | issueGrant =>
    refine contentStep_commit fun db' r h => ?_
    obtain ⟨_, rfl⟩ := v10AdminIssueReprocessingGrant_ok h
    exact .same
  | startReprocessing =>
    refine contentStep_commit fun db' r h => ?_
    obtain ⟨preview, started, rfl, -, hstarted, rfl⟩ := v10AdminStartReprocessing_ok h
    cases hstarted with
    | reindex => exact .same
    | reingestion _ hgens hjobs => exact .start hgens hjobs
  | pause =>
    refine contentStep_commit fun db' r h => ?_
    obtain rfl := v10AdminPauseReprocessing_ok h
    exact .same
  | resume =>
    refine contentStep_commit fun db' r h => ?_
    obtain rfl := v10AdminResumeReprocessing_ok h
    exact .same
  | cancel =>
    refine contentStep_commit fun db' r h => ?_
    rcases v10AdminCancelReprocessing_ok h with rfl | ⟨_, _, _, _, _, rfl⟩
    · exact .same
    · exact .cancel
  | retry =>
    refine contentStep_commit fun db' r h => ?_
    rcases v10AdminRetryReprocessing_ok h with rfl | ⟨operation, _, _, _, rfl⟩
    · exact .same
    · exact .retry operation
  | rollbackEmbedding =>
    refine contentStep_commit fun db' r h => ?_
    rcases v10AdminRollbackEmbeddingGeneration_ok h with ⟨rfl, _⟩ | ⟨_, _, _, _, rfl, _⟩
    · exact .same
    · exact .same
  | cleanupGeneration =>
    refine contentStep_commit fun db' r h => ?_
    rcases v10AdminCleanupGeneration_ok h with rfl | ⟨_, _, rfl⟩ | ⟨_, ⟨g, _, hclean⟩, rfl⟩
    · exact .same
    · exact .same
    · refine .cleanup fun d hd hactive => ?_
      simp only [isCleanableGeneration, decide_eq_true_eq, List.any_eq_true, not_exists,
        not_and] at hclean
      exact hclean.2.2.2 d hd (hactive.trans hclean.1.symm)

end LocalRag.Ingest
