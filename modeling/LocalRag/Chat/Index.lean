import LocalRag.Chat.Cleanup

/-!
# The index — what a call does to the chunks, their vectors and their tasks

A chunk is found by its vector in the active embedding generation. The ingestion of a
document writes both, a reindex writes a vector for each task it completes, and the
foreign keys take the vectors and the tasks of a chunk with it.

`IndexStep` lists the ways a call changes the three tables and the generation they are
read from. Most calls make nothing served or active, and leave of the three what belongs
to the chunks they leave (`Spares`). `Indexed` is what all of them keep: a vector is of a
chunk that is there, and a completed task has left its vector.

Only a rollback asks for no vectors before it switches, so only a rollback can lose a
chunk from retrieval (`findable_iff`).
-/

namespace LocalRag.Chat

open LocalRag.Core Access Library Storage Ingest

abbrev vectors (db : Db) : List ChunkEmbedding := db.reprocessing.chunkEmbeddings

abbrev tasks (db : Db) : List ReindexTask := db.reprocessing.reindexTasks

abbrev embeddings (db : Db) : List EmbeddingGeneration := db.reprocessing.embeddingGenerations

abbrev activeId (db : Db) : GenerationId := db.reprocessing.activeEmbeddingGeneration

/-- The embedding generation has a vector of the chunk. -/
def Embeds (db : Db) (generationId : GenerationId) (chunkId : ChunkId) : Prop :=
  ∃ e ∈ vectors db, e.embeddingGenerationId = generationId ∧ e.chunkId = chunkId

instance (db : Db) (generationId : GenerationId) (chunkId : ChunkId) :
    Decidable (Embeds db generationId chunkId) :=
  inferInstanceAs (Decidable (∃ e ∈ vectors db, _ ∧ _))

/-- The primary key of `chunk_embeddings`. -/
def vectorKey (e : ChunkEmbedding) : GenerationId × ChunkId :=
  (e.embeddingGenerationId, e.chunkId)

/-- The three tables agree. -/
structure Indexed (db : Db) : Prop where
  chunks : Keyed (·.id) db.content.chunks
  keys : Keyed vectorKey (vectors db)
  /-- A vector is of a chunk, and of its document generation. -/
  vector : ∀ e ∈ vectors db, ∃ c ∈ db.content.chunks,
    c.id = e.chunkId ∧ c.documentGenerationId = e.documentGenerationId
  done : ∀ t ∈ tasks db, t.state = .completed → Embeds db t.generationId t.chunkId

/-- The embedding generations there are, with their dimensions. -/
def sizes (db : Db) : List (GenerationId × Nat) :=
  (embeddings db).map fun g => (g.id, g.dimension)

/-- The chunks whose ids `isGone` has go, with their vectors and their tasks; no document
becomes ready, no task completed, no generation active. -/
structure Spares (db db' : Db) (isGone : ChunkId → Bool) : Prop where
  keyed : Keyed (·.id) db'.content.chunks
  keys : Keyed vectorKey (vectors db')
  chunk : ∀ c, c ∈ db'.content.chunks ↔ c ∈ db.content.chunks ∧ isGone c.id = false
  vector : ∀ e, e ∈ vectors db' ↔ e ∈ vectors db ∧ isGone e.chunkId = false
  live : ∀ t ∈ tasks db', t.state = .completed → isGone t.chunkId = false
  done : Traced (fun t => (t.generationId, t.chunkId)) (fun t => t.state = .completed)
    (tasks db) (tasks db')
  served : Traced (·.activeGenerationId) (fun d => d.state = .ready) db.content.documents
    db'.content.documents
  generations : Traced (·.id) (fun g => g.state = .active) (embeddings db) (embeddings db')
  sized : sizes db ⊆ sizes db'
  active : activeId db' = activeId db

/-- A rollback, among the calls of the system. -/
@[match_pattern]
abbrev rollback (token : Option HexText) (generationId : GenerationId) : SystemCall :=
  .chat (.system (.rollbackEmbedding token generationId))

/-- The database a committed task leaves, with the operations it counted. -/
def storedDb (db : Db) (request : ReindexRequest) (target : ReindexTarget)
    (operations : List ReprocessingOperation) : Db :=
  { storeReindexTask db request target with reprocessing.operations := operations }

/-- What `call` does to the index, after what its function checked. -/
inductive IndexStep (db : Db) (call : SystemCall) : Db → Prop where
  | spares {db' : Db} {isGone : ChunkId → Bool} (spares : Spares db db' isGone) :
      IndexStep db call db'
  | ingest {request : IngestRequest} {job : IngestionJob}
      {target : IngestTarget} {document : Document} {operations : List ReprocessingOperation}
      (active : activeEmbedding db = some target.embedding)
      (nodup : (request.chunks.map (·.id)).Nodup)
      (fresh : ∀ c ∈ db.content.chunks, c.documentGenerationId ≠ target.generation.id →
        ∀ x ∈ request.chunks, c.id ≠ x.id) :
      IndexStep db call (ingestedDb db request job target document operations)
  | store {request : ReindexRequest} {task : ReindexTask} {target : ReindexTarget}
      {operations : List ReprocessingOperation} (mem : task ∈ tasks db)
      (operation : task.operationId = request.operationId)
      (read : readReindexTarget db request task = .ok target) :
      IndexStep db call (storedDb db request target operations)
  | rollback {token : Option HexText} {generationId : GenerationId}
      (asked : call = rollback token generationId)
      (done : v10AdminRollbackEmbeddingGeneration db token generationId =
        .ok (rolledBackDb db generationId, true)) :
      IndexStep db call (rolledBackDb db generationId)
  | cutover {report : QualificationReport} {operation : ReprocessingOperation}
      {generation : EmbeddingGeneration} (mem : operation ∈ db.reprocessing.operations)
      (qualifying : operation.state = .qualifying) (id : operation.id = report.operationId)
      (builds : operation.operationGenerationId = some generation.id)
      (unchanged : sourceChanged db report.operationId = false) :
      IndexStep db call (cutoverDb db report generation)
  | cleanup {generationId : GenerationId}
      (inactive : generationId ≠ activeId db) :
      IndexStep db call (deleteEmbeddingRows db generationId)

variable {db db' : Db}

/-! ## Calls that spare the index -/

theorem Spares.refl (h : Indexed db) : Spares db db fun _ => false where
  keyed := h.chunks
  keys := h.keys
  chunk _ := (and_iff_left rfl).symm
  vector _ := (and_iff_left rfl).symm
  live _ _ _ := rfl
  done := .refl _ _ _
  served := .refl _ _ _
  generations := .refl _ _ _
  sized := List.Subset.refl _
  active := rfl

/-- A chunk that satisfies `q` has the id. -/
def goneWith (db : Db) (q : Chunk → Bool) (i : ChunkId) : Bool :=
  db.content.chunks.any fun c => q c ∧ c.id = i

/-- Chunks go as a `DELETE` on `chunks` or `documents` takes them. -/
theorem Spares.delete (h : Indexed db) {q : Chunk → Bool}
    (hchunks : db'.content.chunks = deleteWhere q db.content.chunks)
    (hvectors : vectors db' = deleteWhere (fun e => goneWith db q e.chunkId) (vectors db))
    (htasks : tasks db' = deleteWhere (fun t => goneWith db q t.chunkId) (tasks db))
    (hserved : Traced (·.activeGenerationId) (fun d => d.state = .ready) db.content.documents
      db'.content.documents)
    (hgenerations : embeddings db' = embeddings db)
    (hactive : activeId db' = activeId db) : Spares db db' (goneWith db q) where
  keyed := hchunks ▸ h.chunks.deleteWhere q
  keys := hvectors ▸ h.keys.deleteWhere _
  chunk c := by
    rw [hchunks, mem_deleteWhere]
    refine and_congr_right fun hc => ?_
    rw [← Bool.not_eq_true, ← Bool.not_eq_true, goneWith, List.any_eq_true]
    refine not_congr ⟨fun hq => ⟨c, hc, decide_eq_true ⟨hq, rfl⟩⟩, fun hex => ?_⟩
    obtain ⟨x, hx, hrow⟩ := hex
    obtain ⟨hq, hid⟩ := of_decide_eq_true hrow
    rwa [h.chunks.eq hc hx hid.symm]
  vector e := by rw [hvectors, mem_deleteWhere]
  live t ht _ := by
    rw [htasks] at ht
    exact (mem_deleteWhere.mp ht).2
  done := htasks ▸ .deleteWhere _
  served := hserved
  generations := hgenerations ▸ .refl _ _ _
  sized := by
    rw [sizes, sizes, hgenerations]
    exact List.Subset.refl _
  active := hactive

/-- An update of other columns leaves the sizes. -/
theorem sizes_updateWhere {p : EmbeddingGeneration → Bool}
    {f : EmbeddingGeneration → EmbeddingGeneration}
    (hf : ∀ g, ((f g).id, (f g).dimension) = (g.id, g.dimension))
    (rows : List EmbeddingGeneration) : rows.map (fun g => (g.id, g.dimension)) ⊆
      (updateWhere p f rows).map fun g => (g.id, g.dimension) := by
  rw [map_updateWhere hf]
  exact List.Subset.refl _

/-- A document queued again loses its chunks, and is not ready. -/
theorem requeuedDb_spares (h : Indexed db) (document : Document) (jobId : JobId) :
    Spares db (requeuedDb db document jobId) (goneWith db fun c => c.documentId = document.id) := by
  refine .delete h rfl rfl rfl (.updateWhere fun d _ hready => ?_) rfl rfl
  cases of_decide_eq_true hready

/-- The vectors of a document generation are those of its chunks. -/
theorem deleteGenerationRows_spares (h : Indexed db) (generationId : GenerationId) :
    Spares db (deleteGenerationRows db generationId)
      (goneWith db fun c => c.documentGenerationId = generationId) := by
  have hcleared : Spares db (deleteChunks (fun c => c.documentGenerationId = generationId) db) _ :=
    .delete h rfl rfl rfl (.refl _ _ _) rfl rfl
  refine { hcleared with
    keys := hcleared.keys.deleteWhere _
    vector := fun e => ?_ }
  refine mem_deleteWhere.trans ((and_iff_left_of_imp fun he => ?_).trans (hcleared.vector e))
  obtain ⟨hmem, hleft⟩ := (hcleared.vector e).mp he
  obtain ⟨c, hc, hid, hgen⟩ := h.vector e hmem
  rw [← hid] at hleft
  have hkept := (hcleared.chunk c).mpr ⟨hc, hleft⟩
  rw [← hgen]
  exact (mem_deleteWhere.mp hkept).2

/-! ## Every call -/

variable {call : SystemCall}

theorem IndexStep.same (h : Spares db db' fun _ => false) : IndexStep db call db' := .spares h

/-- A transaction takes a step if every way it returns does. -/
theorem indexStep_commit {ρ : Type} {res : Except SqlError (Db × ρ)} (h : Indexed db)
    (hres : ∀ db' r, res = .ok (db', r) → IndexStep db call db') :
    IndexStep db call (LocalRag.Core.commit db res) :=
  commit_inv (IndexStep db call) (.same (.refl h)) hres

theorem step_index (h : Indexed db) (library : Call) : IndexStep db call (step db library) := by
  have hstep := step_library db library
  generalize step db library = db' at hstep
  obtain ⟨now, accounts, library, storage, content, reprocessing, chat⟩ := db'
  cases hstep with
  | same hcontent hreprocessing =>
    cases hcontent
    cases hreprocessing
    exact .same { Spares.refl h with }
  | create hdocument hreprocessing =>
    cases hreprocessing
    cases (insertDocument_ok hdocument).1
    refine .same { Spares.refl h with served := fun d hd hready => ?_ }
    rcases List.mem_append.mp hd with hold | hnew
    · exact ⟨d, hold, hready, rfl⟩
    · -- an uploaded document is not ready
      rw [List.mem_singleton.mp hnew] at hready
      cases of_decide_eq_true hready
  | @delete document _ _ hdeleted =>
    cases hdeleted
    have hgone : goneWith db (fun c => c.documentId = document.id) = fun i =>
        db.content.chunks.any fun c => c.documentId = document.id ∧ c.id = i := by
      funext i
      simp [goneWith]
    refine .spares (.delete (q := fun c => c.documentId = document.id) h rfl ?_ ?_
      (.deleteWhere _) rfl rfl)
    · rw [hgone]
      rfl
    · rw [hgone]
      rfl

theorem commit_answering {ρ : Type} (f : ρ → Ingest.JobAnswer) (res : Except SqlError (Db × ρ)) :
    commit db (answering f res) = commit db res := by
  cases res <;> rfl

theorem jobStep_index (h : Indexed db) (job : JobCall) : IndexStep db call (jobStep db job) := by
  by_cases hcommit : ∃ request, job = .commit request
  · obtain ⟨request, rfl⟩ := hcommit
    show IndexStep db call (LocalRag.Core.commit db (answering _ _))
    rw [commit_answering]
    refine indexStep_commit h fun db' r heq => ?_
    rcases v4CommitIngestionJob_ok heq with
      ⟨rfl, -⟩ | ⟨_, _, _, _, -, hshare, -, -, -, hnodup, hfresh, rfl, -⟩
    · exact .same (.refl h)
    · exact .ingest (shareEmbedding_ok hshare).2.2.2.1 hnodup hfresh
  have heffect := jobStep_effect db job
  generalize jobStep db job = after at heffect
  cases heffect with
  | same | tick | claim | heartbeat | requeue => exact .same { Spares.refl h with }
  | commit => exact absurd ⟨_, rfl⟩ hcommit
  | progress _ _ _ _ stage =>
    refine .same { Spares.refl h with served := .updateWhere fun d _ hready => ?_ }
    -- no stage of a worker is `ready`
    have hready := of_decide_eq_true hready
    dsimp only at hready
    rw [hready] at stage
    simp at stage
  | poison =>
    refine .same { Spares.refl h with served := .updateWhere fun d _ hready => ?_ }
    cases of_decide_eq_true hready

theorem ingestStep_index (h : Indexed db) (call : IngestCall) :
    IndexStep db (.chat (.system call)) (ingestStep db call) := by
  cases call with
  | library call => exact step_index h call
  | job call => exact jobStep_index h call
  | maintenanceRequeue =>
    refine indexStep_commit h fun db' r heq => ?_
    rcases v4MaintenanceRequeueDocument_ok heq with rfl | ⟨_, _, _, _, _, rfl⟩
    · exact .same (.refl h)
    · exact .spares (requeuedDb_spares h _ _)
  | documentReingest =>
    refine indexStep_commit h fun db' r heq => ?_
    rcases v4CommitDocumentReingest_ok heq with rfl | ⟨_, _, _, _, _, _, rfl⟩
    · exact .same (.refl h)
    · exact .spares (requeuedDb_spares h _ _)
  | previewReprocessing =>
    refine indexStep_commit h fun db' r heq => ?_
    obtain ⟨_, rfl⟩ := v10AdminPreviewReprocessing_ok heq
    exact .same { Spares.refl h with }
  | issueGrant =>
    refine indexStep_commit h fun db' r heq => ?_
    obtain ⟨_, rfl⟩ := v10AdminIssueReprocessingGrant_ok heq
    exact .same { Spares.refl h with }
  | startReprocessing =>
    refine indexStep_commit h fun db' r heq => ?_
    obtain ⟨_, _, _, _, hstarted, rfl⟩ := v10AdminStartReprocessing_ok heq
    cases hstarted with
    | reingestion => exact .same { Spares.refl h with }
    | reindex =>
      refine .same { Spares.refl h with
        live := fun _ _ _ => rfl
        done := fun t ht hdone => ?_
        generations := fun g hg hactive => ?_
        sized := List.map_subset _ (List.subset_append_left _ _) }
      · -- a task is not completed when it is queued
        rcases List.mem_append.mp ht with hold | hnew
        · exact ⟨t, hold, hdone, rfl⟩
        · obtain ⟨_, _, rfl⟩ := List.mem_map.mp hnew
          cases of_decide_eq_true hdone
      · rcases List.mem_append.mp hg with hold | hnew
        · exact ⟨g, hold, hactive, rfl⟩
        · rw [List.mem_singleton.mp hnew] at hactive
          cases of_decide_eq_true hactive
  | pause =>
    refine indexStep_commit h fun db' r heq => ?_
    obtain rfl := v10AdminPauseReprocessing_ok heq
    exact .same { Spares.refl h with }
  | resume =>
    refine indexStep_commit h fun db' r heq => ?_
    obtain rfl := v10AdminResumeReprocessing_ok heq
    exact .same { Spares.refl h with }
  | cancel =>
    refine indexStep_commit h fun db' r heq => ?_
    rcases v10AdminCancelReprocessing_ok heq with rfl | ⟨_, _, _, _, _, rfl⟩
    · exact .same (.refl h)
    refine .same { Spares.refl h with
      generations := .updateWhere fun g _ hactive => ?_
      sized := sizes_updateWhere (fun _ => by rfl) _ }
    cases of_decide_eq_true hactive
  | retry =>
    refine indexStep_commit h fun db' r heq => ?_
    rcases v10AdminRetryReprocessing_ok heq with rfl | ⟨operation, _, _, _, rfl⟩
    · exact .same (.refl h)
    unfold retriedDb retriedWork
    cases operation.operationType with
    | reingestion => exact .same { Spares.refl h with }
    | reindex =>
      refine .same { Spares.refl h with
        live := fun _ _ _ => rfl
        done := .updateWhere fun t _ hdone => ?_
        generations := .updateWhere fun g _ hactive => ?_
        sized := sizes_updateWhere (fun _ => by rfl) _ }
      · cases of_decide_eq_true hdone
      · cases of_decide_eq_true hactive
  | rollbackEmbedding =>
    refine indexStep_commit h fun db' r heq => ?_
    rcases v10AdminRollbackEmbeddingGeneration_ok heq with ⟨rfl, -⟩ | ⟨_, _, _, _, rfl, rfl⟩
    · exact .same (.refl h)
    · exact .rollback rfl heq
  | cleanupGeneration =>
    refine indexStep_commit h fun db' r heq => ?_
    rcases v10AdminCleanupGeneration_ok heq with rfl | ⟨_, ⟨g, _, hclean⟩, rfl⟩ | ⟨_, _, rfl⟩
    · exact .same (.refl h)
    · obtain ⟨rfl, -, -, hinactive⟩ := of_decide_eq_true hclean
      exact .cleanup hinactive
    · exact .spares (deleteGenerationRows_spares h _)

/-- The commit of a task is refused, or stores the vector of the task it locked. -/
theorem v10CommitReindexTask_ok {request : ReindexRequest} {r : Bool}
    (h : v10CommitReindexTask db request = .ok (db', r)) :
    db' = db ∨ ∃ task ∈ tasks db, ∃ target operations, task.operationId = request.operationId ∧
      readReindexTarget db request task = .ok target ∧
      db' = storedDb db request target operations := by
  unfold v10CommitReindexTask at h
  split at h
  · exact Or.inl (left_of_ok h).symm
  next task hlock =>
    obtain ⟨hmem, hheld, -⟩ := lockReindexTask_some hlock
    simp only [holdsTaskLease, holdsTaskTokens, decide_eq_true_eq] at hheld
    split at h
    · cases h
    next target hread =>
      dsimp only at h
      split at h
      · cases h
      next counted hcounted =>
        obtain rfl := left_of_ok h
        unfold countedReindex at hcounted
        rw [ite_error_eq_ok] at hcounted
        exact Or.inr ⟨task, hmem, target, _, hheld.1.1, hread, (Except.ok.inj hcounted.2).symm⟩

theorem systemStep_index (h : Indexed db) (call : SystemCall) :
    IndexStep db call (systemStep db call) := by
  cases call with
  | chat call =>
    by_cases hsystem : ∃ c, call = .system c
    · obtain ⟨c, rfl⟩ := hsystem
      exact ingestStep_index h c
    · obtain ⟨chat, heq, -⟩ := chatStep_onlyChats db fun c heq => hsystem ⟨c, heq⟩
      show IndexStep db _ (chatStep db call)
      rw [heq]
      exact .same { Spares.refl h with }
  | claimTasks =>
    refine indexStep_commit h fun db' r heq => ?_
    obtain ⟨rfl, -⟩ := claimReindexTasksAt_ok heq
    refine .same { Spares.refl h with
      live := fun _ _ _ => rfl
      done := .updateWhere fun t _ hdone => ?_ }
    cases of_decide_eq_true hdone
  | commitTask request =>
    refine indexStep_commit h fun db' r heq => ?_
    rcases v10CommitReindexTask_ok heq with rfl | ⟨_, hmem, _, _, hoperation, hread, rfl⟩
    · exact .same (.refl h)
    · exact .store hmem hoperation hread
  | failTask =>
    refine indexStep_commit h fun db' r heq => ?_
    rcases v10FailReindexTask_ok heq with rfl | ⟨_, _, _, rfl⟩
    · exact .same (.refl h)
    refine .same { Spares.refl h with
      live := fun _ _ _ => rfl
      done := .updateWhere fun t _ hdone => ?_
      generations := ?_
      sized := ?_ }
    · have hdone := of_decide_eq_true hdone
      dsimp only [failedTask] at hdone
      split at hdone <;> cases hdone
    · show Traced _ _ _ (if _ then _ else _)
      split
      · exact .refl _ _ _
      · refine .updateWhere fun g _ hactive => ?_
        cases of_decide_eq_true hactive
    · show List.map _ _ ⊆ List.map _ (if _ then _ else _)
      split
      · exact List.Subset.refl _
      · exact sizes_updateWhere (fun _ => by rfl) _
  | claimQualification =>
    refine indexStep_commit h fun db' r heq => ?_
    rcases v10ClaimReindexQualification_ok heq with rfl | ⟨_, rfl⟩
    · exact .same (.refl h)
    · exact .same { Spares.refl h with }
  | completeQualification report =>
    refine indexStep_commit h fun db' r heq => ?_
    unfold v10CompleteReindexQualification at heq
    split at heq
    · obtain rfl := left_of_ok heq
      exact .same (.refl h)
    next operation hfind =>
      have hheld := List.find?_some hfind
      simp only [holdsQualification, decide_eq_true_eq] at hheld
      split at heq
      · cases heq
      next generation hgeneration =>
        split at heq
        · obtain rfl := left_of_ok heq
          refine .same { Spares.refl h with
            generations := .updateWhere fun g _ hactive => ?_
            sized := sizes_updateWhere (fun _ => by rfl) _ }
          cases of_decide_eq_true hactive
        next haccepted =>
          obtain rfl := left_of_ok heq
          have hbuilds := List.find?_some hgeneration
          simp only [isRejected, decide_eq_true_eq, not_or, Bool.not_eq_true] at haccepted
          exact .cutover (List.mem_of_find?_eq_some hfind) hheld.2.1 hheld.1
            (of_decide_eq_true hbuilds) haccepted.1

/-! ## What every call keeps -/

variable {isGone : ChunkId → Bool} {generationId : GenerationId} {chunkId : ChunkId}

/-- A vector of a chunk that is left is left. -/
theorem Spares.embeds (hspares : Spares db db' isGone) (hleft : isGone chunkId = false)
    (h : Embeds db generationId chunkId) : Embeds db' generationId chunkId := by
  obtain ⟨e, he, hgen, rfl⟩ := h
  exact ⟨e, (hspares.vector e).mpr ⟨he, hleft⟩, hgen, rfl⟩

theorem Spares.indexed (hspares : Spares db db' isGone) (h : Indexed db) : Indexed db' where
  chunks := hspares.keyed
  keys := hspares.keys
  vector e he := by
    obtain ⟨hmem, hleft⟩ := (hspares.vector e).mp he
    obtain ⟨c, hc, hid, hgen⟩ := h.vector e hmem
    exact ⟨c, (hspares.chunk c).mpr ⟨hc, hid ▸ hleft⟩, hid, hgen⟩
  done t' ht' hdone := by
    obtain ⟨t, ht, hwas, hkey⟩ := hspares.done t' ht' (decide_eq_true hdone)
    obtain ⟨hgen, hchunk⟩ := Prod.mk.inj hkey
    rw [← hgen]
    refine hspares.embeds (hspares.live t' ht' hdone) ?_
    rw [← hchunk]
    exact h.done t ht (of_decide_eq_true hwas)

/-- The old chunks of a generation, before its new ones are stored. -/
abbrev cleared (db : Db) (target : IngestTarget) : Db :=
  deleteChunks (fun c => c.documentGenerationId = target.generation.id) db

theorem cleared_spares (h : Indexed db) (target : IngestTarget) :
    Spares db (cleared db target)
      (goneWith db fun c => c.documentGenerationId = target.generation.id) :=
  .delete h rfl rfl rfl (.refl _ _ _) rfl rfl

section Ingested

variable {request : IngestRequest} {job : IngestionJob} {target : IngestTarget}
  {document : Document} {operations : List ReprocessingOperation}

theorem ingestedDb_embeds (h : Embeds (cleared db target) generationId chunkId) :
    Embeds (ingestedDb db request job target document operations) generationId chunkId := by
  obtain ⟨e, he, hkey⟩ := h
  exact ⟨e, List.mem_append_left _ he, hkey⟩

/-- The chunks of the job replace those of its generation. -/
theorem ingestedDb_indexed (h : Indexed db) (hnodup : (request.chunks.map (·.id)).Nodup)
    (hfresh : ∀ c ∈ db.content.chunks, c.documentGenerationId ≠ target.generation.id →
      ∀ x ∈ request.chunks, c.id ≠ x.id) :
    Indexed (ingestedDb db request job target document operations) := by
  have hcleared : Indexed (cleared db target) := (cleared_spares h target).indexed h
  constructor
  case chunks =>
    refine hcleared.chunks.appendAll ?_ fun c hc x hx => ?_
    · show ((request.chunks.map (chunkRow job.documentId target.generation.id)).map (·.id)).Nodup
      rw [List.map_map]
      exact hnodup
    · obtain ⟨hmem, hother⟩ := mem_deleteWhere.mp hc
      obtain ⟨y, hy, rfl⟩ := List.mem_map.mp hx
      exact hfresh c hmem (of_decide_eq_false hother) y hy
  case keys =>
    refine hcleared.keys.appendAll ?_ fun e he x hx hkey => ?_
    · rw [Keyed, List.map_map, List.map_map]
      refine List.Nodup.of_map Prod.snd ?_
      rw [List.map_map]
      exact hnodup
    · obtain ⟨c, hc, hid, -⟩ := hcleared.vector e he
      obtain ⟨hmem, hother⟩ := mem_deleteWhere.mp hc
      obtain ⟨_, hrow, rfl⟩ := List.mem_map.mp hx
      obtain ⟨y, hy, rfl⟩ := List.mem_map.mp hrow
      exact hfresh c hmem (of_decide_eq_false hother) y hy (hid.trans (Prod.mk.inj hkey).2)
  case vector =>
    intro e he
    rcases List.mem_append.mp he with hold | hnew
    · obtain ⟨c, hc, hrow⟩ := hcleared.vector e hold
      exact ⟨c, List.mem_append_left _ hc, hrow⟩
    · obtain ⟨c, hc, rfl⟩ := List.mem_map.mp hnew
      obtain ⟨x, hx, rfl⟩ := List.mem_map.mp hc
      exact ⟨_, List.mem_append_right _ hc, rfl, rfl⟩
  case done => exact fun t ht hdone => ingestedDb_embeds (hcleared.done t ht hdone)

end Ingested

/-- An upsert leaves the keys of the rows, and puts the new row where none has its key. -/
theorem upsertEmbedding_keys (row : ChunkEmbedding) (rows : List ChunkEmbedding) :
    (∀ e ∈ upsertEmbedding row rows, e = row ∨ ∃ e₀ ∈ rows, e₀.chunkId = e.chunkId ∧
      e₀.documentGenerationId = e.documentGenerationId ∧
      ∃ x, (x = row ∨ x = e₀) ∧ x.embeddingGenerationId = e.embeddingGenerationId ∧
        x.dimension = e.dimension) ∧
    ∀ e₀, e₀ ∈ rows ∨ e₀ = row → ∃ e ∈ upsertEmbedding row rows,
      e.embeddingGenerationId = e₀.embeddingGenerationId ∧ e.chunkId = e₀.chunkId := by
  unfold upsertEmbedding
  dsimp only
  split
  next hany =>
    have hkept : ∀ e₀ ∈ rows, ∃ e ∈ updateWhere (fun x =>
        x.embeddingGenerationId = row.embeddingGenerationId ∧ x.chunkId = row.chunkId)
        (fun x => { x with
          dimension := row.dimension, textSha256 := row.textSha256, provenance := row.provenance })
        rows, e.embeddingGenerationId = e₀.embeddingGenerationId ∧ e.chunkId = e₀.chunkId := by
      intro e₀ he₀
      refine ⟨_, mem_updateWhere.mpr ⟨e₀, he₀, rfl⟩, ?_⟩
      split <;> exact ⟨rfl, rfl⟩
    refine ⟨fun e he => ?_, fun e₀ he₀ => ?_⟩
    · obtain ⟨e₀, he₀, rfl⟩ := mem_updateWhere.mp he
      refine Or.inr ⟨e₀, he₀, ?_⟩
      split
      next hrow => exact ⟨rfl, rfl, row, Or.inl rfl, (of_decide_eq_true hrow).1.symm, rfl⟩
      next => exact ⟨rfl, rfl, e₀, Or.inr rfl, rfl, rfl⟩
    · rcases he₀ with he₀ | rfl
      · exact hkept e₀ he₀
      · obtain ⟨x, hx, hrow⟩ := List.any_eq_true.mp hany
        obtain ⟨hgen, hid⟩ := of_decide_eq_true hrow
        obtain ⟨e, he, hegen, heid⟩ := hkept x hx
        exact ⟨e, he, hegen.trans hgen, heid.trans hid⟩
  next =>
    refine ⟨fun e he => ?_, fun e₀ he₀ => ⟨e₀, ?_, rfl, rfl⟩⟩
    · rcases List.mem_append.mp he with hold | hnew
      · exact Or.inr ⟨e, hold, rfl, rfl, e, Or.inr rfl, rfl, rfl⟩
      · exact Or.inl (List.mem_singleton.mp hnew)
    · rw [List.mem_append, List.mem_singleton]
      exact he₀

theorem upsertEmbedding_keyed {row : ChunkEmbedding} {rows : List ChunkEmbedding}
    (h : Keyed vectorKey rows) : Keyed vectorKey (upsertEmbedding row rows) := by
  unfold upsertEmbedding
  dsimp only
  split
  next => exact h.updateWhere fun _ => rfl
  next hany =>
    refine h.append fun e he hkey => hany (List.any_eq_true.mpr ⟨e, he, ?_⟩)
    exact decide_eq_true (Prod.mk.inj hkey)

section Stored

variable {request : ReindexRequest} {task : ReindexTask} {target : ReindexTarget}
  {operations : List ReprocessingOperation}

theorem storedDb_embeds (h : Embeds db generationId chunkId) :
    Embeds (storedDb db request target operations) generationId chunkId := by
  obtain ⟨e₀, he₀, rfl, rfl⟩ := h
  exact (upsertEmbedding_keys _ _).2 e₀ (Or.inl he₀)

/-- The commit of a task leaves the vector its completed row speaks of. -/
theorem storedDb_indexed (h : Indexed db) (hinv : EmbeddingsInv db)
    (hmem : task ∈ tasks db) (hoperation : task.operationId = request.operationId)
    (hread : readReindexTarget db request task = .ok target) :
    Indexed (storedDb db request target operations) := by
  obtain ⟨-, hgeneration, -, hsource, hid⟩ := readReindexTarget_ok hread
  have hkeys := upsertEmbedding_keys (embeddingRow target.generation
    target.source.documentGenerationId target.source.id target.source.textSha256) (vectors db)
  constructor
  case chunks => exact h.chunks
  case keys => exact upsertEmbedding_keyed h.keys
  case vector =>
    intro e he
    rcases hkeys.1 e he with rfl | ⟨e₀, he₀, hchunk, hgen, -⟩
    · exact ⟨target.source, hsource, rfl, rfl⟩
    · rw [← hchunk, ← hgen]
      exact h.vector e₀ he₀
  case done =>
    intro t' ht' hdone
    obtain ⟨t, ht, rfl⟩ := mem_updateWhere.mp ht'
    by_cases hrow : t.operationId = request.operationId ∧ t.chunkId = request.chunkId
    · rw [if_pos (decide_eq_true hrow)]
      -- both tasks are of one operation, which builds one generation
      obtain ⟨o, ho, hoid, hbuilds, -⟩ := EmbeddingInv.task hinv t ht
      obtain ⟨o', ho', hoid', hbuilds', -⟩ := EmbeddingInv.task hinv task hmem
      have hids : o.id = o'.id := by rw [hoid, hrow.1, hoid', hoperation]
      rw [(EmbeddingInv.operations hinv).eq ho ho' hids, hbuilds'] at hbuilds
      obtain ⟨e, he, hgen, hchunk⟩ := hkeys.2 _ (Or.inr rfl)
      refine ⟨e, he, hgen.trans ?_, hchunk.trans (hid.trans hrow.2.symm)⟩
      exact hgeneration.trans (Option.some.inj hbuilds)
    · rw [if_neg (by simpa using hrow)] at hdone ⊢
      exact storedDb_embeds (h.done t ht hdone)

end Stored

/-- The rows of another embedding generation are left. -/
theorem deleteEmbeddingRows_embeds {other : GenerationId} (hother : other ≠ generationId)
    (h : Embeds db other chunkId) : Embeds (deleteEmbeddingRows db generationId) other chunkId := by
  obtain ⟨e, he, rfl, hchunk⟩ := h
  exact ⟨e, mem_deleteWhere.mpr ⟨he, decide_eq_false hother⟩, rfl, hchunk⟩

theorem IndexStep.indexed (hstep : IndexStep db call db') (hinv : EmbeddingsInv db)
    (h : Indexed db) : Indexed db' := by
  cases hstep with
  | spares hspares => exact hspares.indexed h
  | ingest _ nodup fresh => exact ingestedDb_indexed h nodup fresh
  | store mem operation read => exact storedDb_indexed h hinv mem operation read
  | rollback => exact ⟨h.chunks, h.keys, h.vector, h.done⟩
  | cutover => exact ⟨h.chunks, h.keys, h.vector, h.done⟩
  | cleanup =>
    refine ⟨h.chunks, h.keys.deleteWhere _, fun e he => h.vector e (mem_deleteWhere.mp he).1,
      fun t ht hdone => ?_⟩
    obtain ⟨hmem, hother⟩ := mem_deleteWhere.mp ht
    exact deleteEmbeddingRows_embeds (of_decide_eq_false hother) (h.done t hmem hdone)

/-- No generation but the one the state points to is active. -/
def OneActive (db : Db) : Prop :=
  ∀ g ∈ embeddings db, g.state = .active → g.id = activeId db

/-- A switch leaves the target alone active. -/
theorem OneActive.switch (h : OneActive db) {target : GenerationId} {now : Time} :
    ∀ g' ∈ switched now (activeId db) target (embeddings db), g'.state = .active →
      g'.id = target := by
  intro g' hg' hstate
  obtain ⟨g, hg, rfl⟩ := mem_updateWhere.mp hg'
  split
  next htarget => exact of_decide_eq_true htarget
  next hother =>
    -- it was active before, so it was the one that was retired
    rw [if_neg hother] at hstate
    obtain ⟨old, hold, rfl⟩ := mem_updateWhere.mp hg
    split at hstate
    · cases hstate
    next hkept => exact absurd (decide_eq_true (h old hold hstate)) hkept

theorem IndexStep.oneActive (hstep : IndexStep db call db') (h : OneActive db) :
    OneActive db' := by
  cases hstep with
  | spares hspares =>
    intro g' hg' hstate
    obtain ⟨g, hg, hwas, hid⟩ := hspares.generations g' hg' (decide_eq_true hstate)
    rw [hspares.active]
    exact hid.symm.trans (h g hg (of_decide_eq_true hwas))
  | ingest | store => exact h
  | rollback | cutover => exact h.switch
  | cleanup => exact fun g hg => h g (mem_deleteWhere.mp hg).1

/-- A vector has the dimension of its generation. -/
def Sized (db : Db) : Prop :=
  ∀ e ∈ vectors db, (e.embeddingGenerationId, e.dimension) ∈ sizes db

theorem switched_sizes (now : Time) (active target : GenerationId)
    (rows : List EmbeddingGeneration) : rows.map (fun g => (g.id, g.dimension)) ⊆
      (switched now active target rows).map fun g => (g.id, g.dimension) :=
  List.Subset.trans (sizes_updateWhere (fun _ => by rfl) _)
    (sizes_updateWhere (fun _ => by rfl) _)

theorem IndexStep.sized (hstep : IndexStep db call db') (h : Sized db) : Sized db' := by
  cases hstep with
  | spares hspares => exact fun e he => hspares.sized (h e ((hspares.vector e).mp he).1)
  | ingest active =>
    intro e he
    rcases List.mem_append.mp he with hold | hnew
    · exact h e (mem_deleteWhere.mp hold).1
    · obtain ⟨_, _, rfl⟩ := List.mem_map.mp hnew
      exact List.mem_map_of_mem (List.mem_of_find?_eq_some active)
  | store _ _ read =>
    have hnew := List.mem_map_of_mem (f := fun g => (g.id, g.dimension))
      (readReindexTarget_ok read).1
    intro e he
    rcases (upsertEmbedding_keys _ _).1 e he with rfl | ⟨e₀, he₀, -, -, x, hx, hgen, hdim⟩
    · exact hnew
    · rw [← hgen, ← hdim]
      rcases hx with rfl | rfl
      · exact hnew
      · exact h _ he₀
  | rollback => exact fun e he => switched_sizes _ _ _ _ (h e he)
  | cutover => exact fun e he => switched_sizes _ _ _ _ (h e he)
  | cleanup =>
    intro e he
    obtain ⟨hmem, hother⟩ := mem_deleteWhere.mp he
    obtain ⟨g, hg, hsize⟩ := List.mem_map.mp (h e hmem)
    refine List.mem_map.mpr ⟨g, mem_deleteWhere.mpr ⟨hg, ?_⟩, hsize⟩
    rw [(Prod.mk.inj hsize).1]
    exact hother

structure IndexInv (db : Db) : Prop extends GenerationsInv db where
  indexed : Indexed db
  oneActive : OneActive db
  sized : Sized db

theorem indexInv_step (h : IndexInv db) (call : SystemCall) : IndexInv (systemStep db call) := by
  have hstep := systemStep_index h.indexed call
  exact ⟨systemStep_generations h.toGenerationsInv call, hstep.indexed h.embeddings h.indexed,
    hstep.oneActive h.oneActive, hstep.sized h.sized⟩

theorem indexInv_migrated (h : Migrated db) (hvectors : vectors db = []) : IndexInv db := by
  refine ⟨generationsInv_migrated h, ⟨?_, ?_, ?_, ?_⟩, ?_, ?_⟩
  · rw [h.content]
    exact .nil _
  · rw [hvectors]
    exact .nil _
  · rw [hvectors]
    nofun
  · rw [tasks, h.reindexTasks]
    nofun
  · obtain ⟨g, hrows, -, -, hid⟩ := h.baseline
    intro g' hg' _
    rw [embeddings, hrows, List.mem_singleton] at hg'
    rw [hg', hid]
  · rw [Sized, hvectors]
    nofun

/-! ## What is served -/

/-- The generation the state points to is the one that is active, and a generation that was
served is the baseline or was built by a reindex that has succeeded, with no task of it left. -/
structure Served (db : Db) : Prop where
  active : ∃ g ∈ embeddings db, g.id = activeId db ∧ g.state = .active ∧
    ∀ g' ∈ embeddings db, g'.state = .active → g' = g
  built : ∀ g ∈ embeddings db, wasServed g → g.operationId = none ∨
    ∃ o ∈ db.reprocessing.operations, g.operationId = some o.id ∧ o.operationType = .reindex ∧
      o.state = .succeeded ∧ ∀ t ∈ tasks db, t.operationId = o.id → t.state = .completed

theorem IndexInv.served (h : IndexInv db) : Served db where
  active := by
    obtain ⟨g, hg, hid, hstate⟩ := EmbeddingInv.active h.embeddings
    refine ⟨g, hg, hid, hstate, fun g' hg' hactive => ?_⟩
    exact (EmbeddingInv.generations h.embeddings).eq hg' hg
      ((h.oneActive g' hg' hactive).trans hid.symm)
  built g hg hserved := by
    cases hoperation : g.operationId with
    | none => exact Or.inl rfl
    | some i =>
      obtain ⟨o, ho, rfl, htype, hdone⟩ := EmbeddingInv.built h.embeddings g hg i hoperation
      refine Or.inr ⟨o, ho, rfl, htype, hdone hserved, fun t ht htask => ?_⟩
      by_contra hopen
      exact (EmbeddingInv.task_open h.embeddings ht hopen ho htask.symm).2 (hdone hserved)

theorem indexInv_run (h : Migrated db) (hvectors : vectors db = []) (calls : List SystemCall) :
    IndexInv (run systemStep db calls) :=
  run_inv_of_step IndexInv (fun _ call hinv => indexInv_step hinv call) calls
    (indexInv_migrated h hvectors)

/-- In every state the system reaches, the tables of the index agree. -/
theorem index_run (h : Migrated db) (hvectors : vectors db = []) (calls : List SystemCall) :
    Indexed (run systemStep db calls) ∧ Sized (run systemStep db calls) :=
  have hinv := indexInv_run h hvectors calls
  ⟨hinv.indexed, hinv.sized⟩

theorem index_run_reindexed : Indexed (run systemStep backedUpDb reindexedCalls) ∧
    Sized (run systemStep backedUpDb reindexedCalls) :=
  index_run migrated_backedUpDb rfl reindexedCalls

/-- In every state the system reaches, one finished generation is in use. -/
theorem served_run (h : Migrated db) (hvectors : vectors db = []) (calls : List SystemCall) :
    Served (run systemStep db calls) := (indexInv_run h hvectors calls).served

/-- A reindex is done and its generation in use, and the baseline retained. -/
theorem served_run_reindexed :
    Served (run systemStep backedUpDb reindexedCalls) ∧
      (embeddings (run systemStep backedUpDb reindexedCalls)).map (fun g => (g.id, g.state)) =
        [(1, .retained), (43, .active)] :=
  ⟨served_run migrated_backedUpDb rfl reindexedCalls, by decide +kernel⟩

/-! ## What can be found -/

/-- Every chunk of the active generation of a ready document has a vector in the active
embedding generation. -/
def Findable (db : Db) : Prop :=
  ∀ c ∈ servedChunks db, Embeds db (activeId db) c.id

/-- A rollback that goes through finds a vector of every served chunk. -/
def covers (db : Db) : SystemCall → Bool
  | rollback token generationId =>
    match v10AdminRollbackEmbeddingGeneration db token generationId with
    | .ok (_, true) => (servedChunks db).all fun c => Embeds db generationId c.id
    | _ => true
  | _ => true

theorem mem_servedChunks {c : Chunk} : c ∈ servedChunks db ↔ c ∈ db.content.chunks ∧
    ∃ d ∈ db.content.documents, d.state = .ready ∧
      d.activeGenerationId = c.documentGenerationId := by
  simp only [servedChunks, List.mem_flatMap, List.mem_filter, decide_eq_true_eq]
  constructor
  · intro h
    obtain ⟨d, ⟨hd, hready⟩, hc, hgen⟩ := h
    exact ⟨hc, d, hd, hready, hgen.symm⟩
  · intro h
    obtain ⟨hc, d, hd, hready, hgen⟩ := h
    exact ⟨d, ⟨hd, hready⟩, hc, hgen.symm⟩

theorem Spares.findable (hspares : Spares db db' isGone) (h : Findable db) : Findable db' := by
  intro c hc
  obtain ⟨hmem, d', hd', hready, hgen⟩ := mem_servedChunks.mp hc
  obtain ⟨hmem, hleft⟩ := (hspares.chunk c).mp hmem
  obtain ⟨d, hd, hwas, hsame⟩ := hspares.served d' hd' (decide_eq_true hready)
  rw [hspares.active]
  refine hspares.embeds hleft (h c (mem_servedChunks.mpr ⟨hmem, d, hd, ?_, hsame.trans hgen⟩))
  exact of_decide_eq_true hwas

/-- A document is served from the chunks of the commit, or as it was before. -/
theorem ingestedDb_findable {request : IngestRequest} {job : IngestionJob} {target : IngestTarget}
    {document : Document} {operations : List ReprocessingOperation} (hindexed : Indexed db)
    (hactive : activeEmbedding db = some target.embedding) (h : Findable db) :
    Findable (ingestedDb db request job target document operations) := by
  have hcleared := (cleared_spares hindexed target).findable h
  have hid : target.embedding.id = activeId db := by
    simpa using List.find?_some hactive
  intro c hc
  obtain ⟨hmem, d', hd', hready, hgen⟩ := mem_servedChunks.mp hc
  rcases List.mem_append.mp hmem with hold | hnew
  · -- an old chunk is of another generation, so its document is another one
    have hother := of_decide_eq_false (mem_deleteWhere.mp hold).2
    obtain ⟨d, hd, rfl⟩ := mem_updateWhere.mp hd'
    by_cases hdoc : d.id = job.documentId
    · rw [if_pos (decide_eq_true hdoc)] at hgen
      exact absurd hgen.symm hother
    · rw [if_neg (by simpa using hdoc)] at hready hgen
      exact ingestedDb_embeds (hcleared c (mem_servedChunks.mpr ⟨hold, d, hd, hready, hgen⟩))
  · exact ⟨embeddingRow target.embedding target.generation.id c.id c.textSha256,
      List.mem_append_right _ (List.mem_map.mpr ⟨c, hnew, rfl⟩), hid, rfl⟩

/-- The generation that is switched to has a vector of every chunk the report saw served. -/
theorem cutoverDb_findable (hinv : IndexInv db) {report : QualificationReport}
    {operation : ReprocessingOperation} {generation : EmbeddingGeneration}
    (hmem : operation ∈ db.reprocessing.operations) (hqualifying : operation.state = .qualifying)
    (hid : operation.id = report.operationId)
    (hbuilds : operation.operationGenerationId = some generation.id)
    (hunchanged : sourceChanged db report.operationId = false) :
    Findable (cutoverDb db report generation) := by
  intro c hc
  obtain ⟨hmem', d', hd', hready, hgen⟩ := mem_servedChunks.mp hc
  -- the cutover tells a document its version only
  have htraced : Traced (·.activeGenerationId) (fun d => d.state = .ready) db.content.documents
      (cutoverDb db report generation).content.documents :=
    .updateWhere fun _ _ hready => ⟨hready, rfl⟩
  obtain ⟨d, hd, hwas, hsame⟩ := htraced d' hd' (decide_eq_true hready)
  have hserved : c ∈ servedChunks db :=
    mem_servedChunks.mpr ⟨hmem', d, hd, of_decide_eq_true hwas, hsame.trans hgen⟩
  simp only [sourceChanged, decide_eq_false_iff_not, not_or, Bool.not_eq_true] at hunchanged
  have htask : c.id ∈ taskChunks db report.operationId := by
    simpa using List.any_eq_false.mp hunchanged.2 c.id (List.mem_map_of_mem hserved)
  obtain ⟨t, ht, hchunk⟩ := List.mem_map.mp htask
  obtain ⟨ht, hof⟩ := List.mem_filter.mp ht
  have hop : operation.id = t.operationId := hid.trans (of_decide_eq_true hof).symm
  obtain ⟨o, ho, hoid, hbuilds', hopen⟩ := EmbeddingInv.task hinv.embeddings t ht
  obtain rfl := (EmbeddingInv.operations hinv.embeddings).eq ho hmem (hoid.trans hop.symm)
  have hdone : t.state = .completed := by
    by_contra hleft
    exact (hopen hleft).1 hqualifying
  have hembeds := hinv.indexed.done t ht hdone
  rw [hbuilds] at hbuilds'
  rwa [← Option.some.inj hbuilds', hchunk] at hembeds

theorem findable_step (hinv : IndexInv db) (h : Findable db) (call : SystemCall) :
    Findable (systemStep db call) ↔ covers db call = true := by
  have hstep := systemStep_index hinv.indexed call
  constructor
  · intro hfindable
    unfold covers
    split
    next token generationId =>
      split
      next db' hresult =>
        rcases v10AdminRollbackEmbeddingGeneration_ok hresult with
          ⟨-, hrefused⟩ | ⟨_, _, _, _, rfl, -⟩
        · cases hrefused
        have hdb : systemStep db (rollback token generationId) = rolledBackDb db generationId := by
          show LocalRag.Core.commit db (v10AdminRollbackEmbeddingGeneration _ _ _) = _
          rw [hresult]
          rfl
        rw [hdb] at hfindable
        exact List.all_eq_true.mpr fun c hc => decide_eq_true (hfindable c hc)
      next => rfl
    next => rfl
  · intro hcovers
    generalize systemStep db call = db' at hstep
    cases hstep with
    | spares hspares => exact hspares.findable h
    | ingest active => exact ingestedDb_findable hinv.indexed active h
    | store => exact fun c hc => storedDb_embeds (h c hc)
    | rollback hcall done =>
      subst hcall
      simp only [covers, done] at hcovers
      exact fun c hc => of_decide_eq_true (List.all_eq_true.mp hcovers c hc)
    | cutover mem qualifying id builds unchanged =>
      exact cutoverDb_findable hinv mem qualifying id builds unchanged
    | cleanup inactive => exact fun c hc => deleteEmbeddingRows_embeds inactive.symm (h c hc)

theorem findable_migrated (h : Migrated db) : Findable db := by
  intro c hc
  have hmem := (mem_servedChunks.mp hc).1
  rw [h.content] at hmem
  cases hmem

/-- Only a rollback can lose a chunk from retrieval: every served chunk has its vector in every
state of a run exactly if every rollback that goes through goes to a generation with a vector
of every chunk served then. -/
theorem findable_iff (h : Migrated db) (hvectors : vectors db = []) (calls : List SystemCall) :
    Always systemStep Findable db calls ↔
      Along systemStep (fun db call => covers db call = true) db calls := by
  refine always_iff_along (fun db => IndexInv db ∧ Findable db) (fun _ hinv => hinv.2)
    (fun db call hok hinv =>
      ⟨indexInv_step hinv.1 call, (findable_step hinv.1 hinv.2 call).mpr hok⟩)
    (fun db call hok hinv hfindable => hok ((findable_step hinv.1 hinv.2 call).mp hfindable))
    ⟨indexInv_migrated h hvectors, findable_migrated h⟩

/-- The way to another generation and back keeps the document findable. -/
theorem findable_iff_rolledBack :
    Always systemStep Findable backedUpDb (reindexedCalls ++ [rollbackCall]) :=
  (findable_iff migrated_backedUpDb rfl _).mpr (by decide +kernel)

end LocalRag.Chat
