import LocalRag.Ingest.Qualification
import LocalRag.Ingest.Steps

/-!
# Embedding generations — which state a generation is in, and why

`EmbeddingInv` is what the functions that write `reprocessing_operations`,
`embedding_generations`, `embedding_generation_state` and `reindex_tasks` keep: the
generation the state points to is the active one, one that is active or retained
was built by a reindex that succeeded, a qualifying operation still has the
generation it is building, and a task that is not completed keeps its operation
from qualifying. The last is what stops the two writes that move generations
without looking at their state (`v10_fail_reindex_task`, the retry): they reach
those of one operation, and no active or retained one belongs to an operation with
work left.

Most writes touch one table and are one of three lemmas: rows of operations
rewritten (`EmbeddingInv.mapOperations`), rows of generations rewritten
(`EmbeddingInv.mapGenerations`), tasks rewritten or gone (`EmbeddingInv.withTasks`). The
cutover, the rollback, the start and the cleanup are their own.
-/

namespace LocalRag.Ingest

open LocalRag.Core Access Library Storage

/-- The generation is the one in use, or was. -/
def wasServed (g : EmbeddingGeneration) : Prop :=
  g.state = .active ∨ g.state = .retained

structure EmbeddingInv (r : Reprocessing) (jobs : List IngestionJob) : Prop where
  operations : Keyed (·.id) r.operations
  generations : Keyed (·.id) r.embeddingGenerations
  active : ∃ g ∈ r.embeddingGenerations, g.id = r.activeEmbeddingGeneration ∧ g.state = .active
  /-- A generation with an operation is a reindex's; one that was served, a succeeded one's. -/
  built : ∀ g ∈ r.embeddingGenerations, ∀ i, g.operationId = some i →
    ∃ o ∈ r.operations, o.id = i ∧ o.operationType = .reindex ∧
      (wasServed g → o.state = .succeeded)
  /-- A task's operation builds the task's generation, and is not done before the task. -/
  task : ∀ t ∈ r.reindexTasks, ∃ o ∈ r.operations, o.id = t.operationId ∧
    o.operationGenerationId = some t.generationId ∧
    (t.state ≠ .completed → o.state ≠ .qualifying ∧ o.state ≠ .succeeded)
  taskGeneration : ∀ t ∈ r.reindexTasks,
    ∃ g ∈ r.embeddingGenerations, g.id = t.generationId ∧ g.operationId = some t.operationId
  qualifying : ∀ o ∈ r.operations, o.state = .qualifying →
    ∃ g ∈ r.embeddingGenerations, o.operationGenerationId = some g.id ∧
      g.operationId = some o.id ∧ g.state = .building
  /-- The operation of a job is a reingestion. -/
  job : ∀ j ∈ jobs, ∀ i, j.reprocessingOperationId = some i →
    ∃ o ∈ r.operations, o.id = i ∧ o.operationType = .reingestion

variable {r : Reprocessing} {jobs : List IngestionJob}

/-! ## What follows at once -/

/-- The active generation is the only active one the state points to. -/
theorem EmbeddingInv.active_state (h : EmbeddingInv r jobs) {g : EmbeddingGeneration}
    (hg : g ∈ r.embeddingGenerations) (hid : g.id = r.activeEmbeddingGeneration) :
    g.state = .active := by
  obtain ⟨g', hg', hid', hactive⟩ := h.active
  rwa [h.generations.eq hg hg' (hid.trans hid'.symm)]

variable {o : ReprocessingOperation}

/-- The operation of a task with work left is not done. -/
theorem EmbeddingInv.task_open (h : EmbeddingInv r jobs) {t : ReindexTask}
    (ht : t ∈ r.reindexTasks) (hopen : t.state ≠ .completed) (ho : o ∈ r.operations)
    (hid : o.id = t.operationId) : o.state ≠ .qualifying ∧ o.state ≠ .succeeded := by
  obtain ⟨o', ho', hid', -, hstate⟩ := h.task t ht
  rw [h.operations.eq ho ho' (hid.trans hid'.symm)]
  exact hstate hopen

/-- A task's operation is a reindex. -/
theorem EmbeddingInv.task_reindex (h : EmbeddingInv r jobs) {t : ReindexTask}
    (ht : t ∈ r.reindexTasks) (ho : o ∈ r.operations) (hid : o.id = t.operationId) :
    o.operationType = .reindex := by
  obtain ⟨g, hg, -, hbuilt⟩ := h.taskGeneration t ht
  obtain ⟨o', ho', hid', hreindex, -⟩ := h.built g hg t.operationId hbuilt
  rwa [h.operations.eq ho ho' (hid.trans hid'.symm)]

/-! ## One table rewritten -/

/-- Jobs come from jobs, as far as the operation goes. -/
theorem EmbeddingInv.withJobs (h : EmbeddingInv r jobs) {jobs' : List IngestionJob}
    (hjobs : ∀ j' ∈ jobs', ∀ i, j'.reprocessingOperationId = some i →
      ∃ j ∈ jobs, j.reprocessingOperationId = some i) : EmbeddingInv r jobs' :=
  { h with
    job := fun j' hj' i hi => by
      obtain ⟨j, hj, hop⟩ := hjobs j' hj' i hi
      exact h.job j hj i hop }

/-- The operations with this id are neither qualifying nor done. -/
def IsOpen (r : Reprocessing) (operationId : OperationId) : Prop :=
  ∀ o ∈ r.operations, o.id = operationId → o.state ≠ .qualifying ∧ o.state ≠ .succeeded

/-- Tasks come from tasks: one that is completed stays so while its operation is closed. -/
theorem EmbeddingInv.withTasks (h : EmbeddingInv r jobs) {tasks : List ReindexTask}
    (htasks : ∀ t' ∈ tasks, ∃ t ∈ r.reindexTasks, t'.operationId = t.operationId ∧
      t'.generationId = t.generationId ∧
      (t'.state ≠ .completed → t.state ≠ .completed ∨ IsOpen r t.operationId)) :
    EmbeddingInv { r with reindexTasks := tasks } jobs :=
  { h with
    task := fun t' ht' => by
      obtain ⟨t, ht, hop, hgen, hopen⟩ := htasks t' ht'
      rw [hop, hgen]
      obtain ⟨o, ho, hid, hbuilds, hstate⟩ := h.task t ht
      refine ⟨o, ho, hid, hbuilds, fun hne => ?_⟩
      rcases hopen hne with hleft | hrunning
      · exact hstate hleft
      · exact hrunning o ho hid
    taskGeneration := fun t' ht' => by
      obtain ⟨t, ht, hop, hgen, -⟩ := htasks t' ht'
      rw [hop, hgen]
      exact h.taskGeneration t ht }

/-- The tables the invariant does not read. -/
theorem EmbeddingInv.congr {r' : Reprocessing} (h : EmbeddingInv r jobs)
    (hoperations : r'.operations = r.operations)
    (hgenerations : r'.embeddingGenerations = r.embeddingGenerations)
    (hactive : r'.activeEmbeddingGeneration = r.activeEmbeddingGeneration)
    (htasks : r'.reindexTasks = r.reindexTasks) : EmbeddingInv r' jobs := by
  constructor
  · rw [hoperations]
    exact h.operations
  · rw [hgenerations]
    exact h.generations
  · rw [hgenerations, hactive]
    exact h.active
  · rw [hgenerations, hoperations]
    exact h.built
  · rw [htasks, hoperations]
    exact h.task
  · rw [htasks, hgenerations]
    exact h.taskGeneration
  · rw [hoperations, hgenerations]
    exact h.qualifying
  · rw [hoperations]
    exact h.job

/-- A change of one operation's state that no generation and no task minds. -/
def Harmless (o o' : ReprocessingOperation) : Prop :=
  o'.state = o.state ∨
    (o.state ≠ .succeeded ∧ o'.state ≠ .qualifying ∧ o'.state ≠ .succeeded) ∨
    (o.operationType = .reingestion ∧ o'.state ≠ .qualifying)

variable {f : ReprocessingOperation → ReprocessingOperation}

/-- Operations are rewritten where they stand. -/
theorem EmbeddingInv.mapOperations (h : EmbeddingInv r jobs)
    (hid : ∀ o ∈ r.operations, (f o).id = o.id)
    (htype : ∀ o ∈ r.operations, (f o).operationType = o.operationType)
    (hgeneration : ∀ o ∈ r.operations, (f o).operationGenerationId = o.operationGenerationId)
    (hf : ∀ o ∈ r.operations, Harmless o (f o)) :
    EmbeddingInv { r with operations := r.operations.map f } jobs where
  operations := by
    show ((r.operations.map f).map (·.id)).Nodup
    rw [List.map_map, List.map_congr_left (g := (·.id)) hid]
    exact h.operations
  generations := h.generations
  active := h.active
  built := by
    intro g hg i hi
    obtain ⟨o, ho, hoid, hreindex, hserved⟩ := h.built g hg i hi
    refine ⟨f o, List.mem_map_of_mem ho, (hid o ho).trans hoid, (htype o ho).trans hreindex, ?_⟩
    intro hgs
    rcases hf o ho with hsame | ⟨hopen, -⟩ | ⟨hreingestion, -⟩
    · rw [hsame]
      exact hserved hgs
    · exact absurd (hserved hgs) hopen
    · rw [hreindex] at hreingestion
      cases hreingestion
  task := by
    intro t ht
    obtain ⟨o, ho, hoid, hbuilds, hstate⟩ := h.task t ht
    refine ⟨f o, List.mem_map_of_mem ho, (hid o ho).trans hoid, (hgeneration o ho).trans hbuilds, ?_⟩
    intro hopen
    rcases hf o ho with hsame | ⟨-, hnew⟩ | ⟨hreingestion, -⟩
    · rw [hsame]
      exact hstate hopen
    · exact hnew
    · rw [h.task_reindex ht ho hoid] at hreingestion
      cases hreingestion
  taskGeneration := h.taskGeneration
  qualifying := by
    intro o' ho' hstate
    obtain ⟨o, ho, rfl⟩ := List.mem_map.mp ho'
    rw [hid o ho, hgeneration o ho]
    refine h.qualifying o ho ?_
    rcases hf o ho with hsame | ⟨-, hne, -⟩ | ⟨-, hne⟩
    · rw [← hsame]
      exact hstate
    · exact absurd hstate hne
    · exact absurd hstate hne
  job := by
    intro j hj i hi
    obtain ⟨o, ho, hoid, hreingestion⟩ := h.job j hj i hi
    exact ⟨f o, List.mem_map_of_mem ho, (hid o ho).trans hoid, (htype o ho).trans hreingestion⟩

/-- Generations are rewritten where they stand: one that changes was not active, is not
served afterwards, and its operation is not qualifying. -/
theorem EmbeddingInv.mapGenerations (h : EmbeddingInv r jobs)
    {f : EmbeddingGeneration → EmbeddingGeneration}
    (hid : ∀ g ∈ r.embeddingGenerations, (f g).id = g.id)
    (hoperation : ∀ g ∈ r.embeddingGenerations, (f g).operationId = g.operationId)
    (hf : ∀ g ∈ r.embeddingGenerations, (f g).state = g.state ∨
      (g.state ≠ .active ∧ ¬ wasServed (f g) ∧
        ∀ o ∈ r.operations, g.operationId = some o.id → o.state ≠ .qualifying)) :
    EmbeddingInv { r with embeddingGenerations := r.embeddingGenerations.map f } jobs where
  operations := h.operations
  generations := by
    show ((r.embeddingGenerations.map f).map (·.id)).Nodup
    rw [List.map_map, List.map_congr_left (g := (·.id)) hid]
    exact h.generations
  active := by
    obtain ⟨g, hg, hgid, hactive⟩ := h.active
    refine ⟨f g, List.mem_map_of_mem hg, (hid g hg).trans hgid, ?_⟩
    rcases hf g hg with hsame | ⟨hne, -⟩
    · rw [hsame, hactive]
    · exact absurd hactive hne
  built := by
    intro g' hg' i hi
    obtain ⟨g, hg, rfl⟩ := List.mem_map.mp hg'
    rw [hoperation g hg] at hi
    obtain ⟨o, ho, hoid, hreindex, hserved⟩ := h.built g hg i hi
    refine ⟨o, ho, hoid, hreindex, fun hgs => hserved ?_⟩
    rcases hf g hg with hsame | ⟨-, hne, -⟩
    · unfold wasServed at hgs ⊢
      rwa [hsame] at hgs
    · exact absurd hgs hne
  task := h.task
  taskGeneration := by
    intro t ht
    obtain ⟨g, hg, hgid, hbuilt⟩ := h.taskGeneration t ht
    exact ⟨f g, List.mem_map_of_mem hg, (hid g hg).trans hgid, (hoperation g hg).trans hbuilt⟩
  qualifying := by
    intro o ho hstate
    obtain ⟨g, hg, hbuilds, hbuilt, hbuilding⟩ := h.qualifying o ho hstate
    refine ⟨f g, List.mem_map_of_mem hg, ?_, (hoperation g hg).trans hbuilt, ?_⟩
    · rw [hid g hg]
      exact hbuilds
    · rcases hf g hg with hsame | ⟨-, -, hne⟩
      · rw [hsame, hbuilding]
      · exact absurd hstate (hne o ho hbuilt)
  job := h.job

/-- `UPDATE reprocessing_operations SET … WHERE …`. -/
theorem EmbeddingInv.updateOperations (h : EmbeddingInv r jobs) {p : ReprocessingOperation → Bool}
    (hkeeps : ∀ o, (f o).id = o.id ∧ (f o).operationType = o.operationType ∧
      (f o).operationGenerationId = o.operationGenerationId)
    (hf : ∀ o ∈ r.operations, p o = true → Harmless o (f o)) :
    EmbeddingInv { r with operations := updateWhere p f r.operations } jobs := by
  refine h.mapOperations ?_ ?_ ?_ ?_
  · intro o _
    split
    · exact (hkeeps o).1
    · rfl
  · intro o _
    split
    · exact (hkeeps o).2.1
    · rfl
  · intro o _
    split
    · exact (hkeeps o).2.2
    · rfl
  · intro o ho
    split
    next hp => exact hf o ho hp
    next => exact Or.inl rfl

/-- `UPDATE embedding_generations SET … WHERE …`. -/
theorem EmbeddingInv.updateGenerations (h : EmbeddingInv r jobs)
    {p : EmbeddingGeneration → Bool} {f : EmbeddingGeneration → EmbeddingGeneration}
    (hkeeps : ∀ g, (f g).id = g.id ∧ (f g).operationId = g.operationId)
    (hf : ∀ g ∈ r.embeddingGenerations, p g = true → g.state ≠ .active ∧ ¬ wasServed (f g) ∧
      ∀ o ∈ r.operations, g.operationId = some o.id → o.state ≠ .qualifying) :
    EmbeddingInv { r with embeddingGenerations := updateWhere p f r.embeddingGenerations } jobs := by
  refine h.mapGenerations ?_ ?_ ?_
  · intro g _
    split
    · exact (hkeeps g).1
    · rfl
  · intro g _
    split
    · exact (hkeeps g).2
    · rfl
  · intro g hg
    split
    next hp => exact Or.inr (hf g hg hp)
    next => exact Or.inl rfl

/-! ## Calls that write none of the four tables but to delete tasks -/

/-- The invariant, of a database. -/
def EmbeddingsInv (db : Db) : Prop := EmbeddingInv db.reprocessing db.content.jobs

/-- The jobs of `db'` belong to operations that jobs of `db` belong to. -/
def JobsFrom (db db' : Db) : Prop :=
  ∀ j' ∈ db'.content.jobs, ∀ i, j'.reprocessingOperationId = some i →
    ∃ j ∈ db.content.jobs, j.reprocessingOperationId = some i

structure Untouched (db db' : Db) : Prop where
  operations : db'.reprocessing.operations = db.reprocessing.operations
  generations : db'.reprocessing.embeddingGenerations = db.reprocessing.embeddingGenerations
  active : db'.reprocessing.activeEmbeddingGeneration = db.reprocessing.activeEmbeddingGeneration
  tasks : db'.reprocessing.reindexTasks ⊆ db.reprocessing.reindexTasks
  jobs : JobsFrom db db'

variable {db db' : Db}

theorem Untouched.inv (h : Untouched db db') (hinv : EmbeddingsInv db) : EmbeddingsInv db' := by
  have htasks : EmbeddingInv { db.reprocessing with
      reindexTasks := db'.reprocessing.reindexTasks } db.content.jobs :=
    hinv.withTasks fun t ht => ⟨t, h.tasks ht, rfl, rfl, Or.inl⟩
  exact (htasks.withJobs h.jobs).congr h.operations h.generations h.active rfl

theorem Untouched.same (hreprocessing : db'.reprocessing = db.reprocessing)
    (hjobs : db'.content.jobs = db.content.jobs) : Untouched db db' where
  operations := by rw [hreprocessing]
  generations := by rw [hreprocessing]
  active := by rw [hreprocessing]
  tasks := by rw [hreprocessing]; exact List.Subset.refl _
  jobs := fun j hj i hi => ⟨j, hjobs ▸ hj, hi⟩

/-- Rows of `ingestion_jobs` rewritten, under their operation. -/
theorem jobsFrom_update {p : IngestionJob → Bool} {f : IngestionJob → IngestionJob}
    (hjobs : db'.content.jobs = updateWhere p f db.content.jobs)
    (hf : ∀ j, (f j).reprocessingOperationId = j.reprocessingOperationId) : JobsFrom db db' := by
  intro j' hj' i hi
  rw [hjobs] at hj'
  obtain ⟨j, hj, rfl⟩ := mem_updateWhere.mp hj'
  refine ⟨j, hj, ?_⟩
  split at hi
  · rwa [hf] at hi
  · exact hi

/-- Rows deleted. -/
theorem jobsFrom_subset (hjobs : db'.content.jobs ⊆ db.content.jobs) : JobsFrom db db' :=
  fun j hj _ hi => ⟨j, hjobs hj, hi⟩

/-- Rows added that belong to no operation. -/
theorem jobsFrom_append {added : List IngestionJob}
    (hjobs : db'.content.jobs = db.content.jobs ++ added)
    (hadded : ∀ j ∈ added, j.reprocessingOperationId = none) : JobsFrom db db' := by
  intro j hj i hi
  rw [hjobs] at hj
  rcases List.mem_append.mp hj with hj | hj
  · exact ⟨j, hj, hi⟩
  · rw [hadded j hj] at hi
    cases hi

theorem deleteWhere_subset {ρ : Type} (p : ρ → Bool) (t : List ρ) : deleteWhere p t ⊆ t :=
  fun _ hr => (mem_deleteWhere.mp hr).1

/-- A library call leaves the documents and the reprocessing tables alone, but for an upload and a
deletion. -/
inductive LibraryStep (db db' : Db) : Prop where
  | same (content : db'.content = db.content) (reprocessing : db'.reprocessing = db.reprocessing)
  | create {ids : CommitIds} {request : UploadRequest}
      (document : insertDocument db ids request = .ok db'.content)
      (reprocessing : db'.reprocessing = db.reprocessing)
  | delete {document : Document} {node : LibraryNode} {deletionId : DeletionId}
      (deleted : db' = deletedDb db document node deletionId)

theorem step_library (db : Db) (call : Call) : LibraryStep db (step db call) := by
  have heffect := step_effect db call
  generalize step db call = after at heffect
  cases heffect with
  | applyAcl performed =>
    obtain ⟨_, _, _, _, _, _, rfl⟩ := applyOperation_ok (fun _ => True) performed
    exact .same rfl rfl
  | upload _ document => exact .create document rfl
  | deleteDocument done =>
    obtain ⟨document, _, _, _, rfl, _, _, _, _, rfl⟩ := v4AdminDeleteDocument_ok done
    exact .delete rfl
  | same | tick | sessions | activate | reset | setUser | createFolder | rename | deleteFolder
  | previewAcl | createChildren | stored => exact .same rfl rfl

theorem step_untouched (db : Db) (call : Call) : Untouched db (step db call) := by
  have hstep := step_library db call
  generalize step db call = db' at hstep
  cases hstep with
  | same hcontent hreprocessing => exact .same hreprocessing (by rw [hcontent])
  | create hdocument hreprocessing =>
    -- the job of an upload belongs to no operation
    have hcontent := (insertDocument_ok hdocument).1
    refine ⟨by rw [hreprocessing], by rw [hreprocessing], by rw [hreprocessing], ?_, ?_⟩
    · rw [hreprocessing]
      exact List.Subset.refl _
    · refine jobsFrom_append (by rw [hcontent]) fun j hj => ?_
      rw [List.mem_singleton.mp hj]
      rfl
  | delete hdeleted =>
    subst hdeleted
    refine ⟨rfl, rfl, rfl, deleteWhere_subset _ _, ?_⟩
    exact jobsFrom_subset (deleteWhere_subset _ _)

/-- A document queued again. -/
theorem requeuedDb_untouched (db : Db) (document : Document) (jobId : JobId) :
    Untouched db (requeuedDb db document jobId) := by
  refine ⟨rfl, rfl, rfl, deleteWhere_subset _ _, ?_⟩
  refine jobsFrom_append rfl fun j hj => ?_
  rw [List.mem_singleton.mp hj]
  rfl

/-! ## The workers' calls -/

/-- The operation of a job is a reingestion, whichever row has its id. -/
theorem EmbeddingInv.job_reingestion (h : EmbeddingInv r jobs) {j : IngestionJob} (hj : j ∈ jobs)
    (ho : o ∈ r.operations) (hop : j.reprocessingOperationId = some o.id) :
    o.operationType = .reingestion := by
  obtain ⟨o', ho', hid, htype⟩ := h.job j hj o.id hop
  rwa [h.operations.eq ho ho' hid.symm]

theorem poisonedDb_embeddings (h : EmbeddingsInv db) {job : IngestionJob}
    (hjob : job ∈ db.content.jobs) (error : String) : EmbeddingsInv (poisonedDb db job error) := by
  have hoperations := EmbeddingInv.updateOperations h
    (p := fun o => job.reprocessingOperationId = some o.id) (f := poisonedOperation)
    (fun _ => ⟨rfl, rfl, rfl⟩) fun o ho hp =>
      Or.inr (Or.inr ⟨h.job_reingestion hjob ho (by simpa using hp), by simp [poisonedOperation]⟩)
  have hjobs : JobsFrom db (poisonedDb db job error) := jobsFrom_update rfl fun _ => rfl
  exact hoperations.withJobs hjobs

theorem ingestedDb_embeddings (h : EmbeddingsInv db) {request : IngestRequest}
    {job : IngestionJob} (hjob : job ∈ db.content.jobs) {target : IngestTarget}
    {document : Document} {operations : List ReprocessingOperation}
    (hcount : countOperation job.reprocessingOperationId request.chunks.length
      db.reprocessing.operations = .ok operations) :
    EmbeddingsInv (ingestedDb db request job target document operations) := by
  have hoperations : EmbeddingInv { db.reprocessing with operations := operations }
      db.content.jobs := by
    unfold countOperation at hcount
    split at hcount
    · obtain rfl := Except.ok.inj hcount
      exact h
    next i hop =>
      rw [ite_error_eq_ok] at hcount
      obtain rfl := Except.ok.inj hcount.2
      refine EmbeddingInv.updateOperations h (fun _ => ⟨rfl, rfl, rfl⟩) fun o ho hp => ?_
      unfold Harmless countedOperation
      dsimp only
      split
      · refine Or.inr (Or.inr ⟨h.job_reingestion hjob ho ?_, nofun⟩)
        rw [hop, of_decide_eq_true hp]
      · exact Or.inl rfl
  have hjobs : JobsFrom db (ingestedDb db request job target document operations) :=
    jobsFrom_update rfl fun _ => rfl
  refine ((hoperations.withTasks fun t ht => ?_).withJobs hjobs).congr rfl rfl rfl rfl
  exact ⟨t, deleteWhere_subset _ _ ht, rfl, rfl, Or.inl⟩

/-- A transaction keeps the invariant if every way it returns does. -/
theorem embeddings_commit {ρ : Type} {res : Except SqlError (Db × ρ)} (h : EmbeddingsInv db)
    (hres : ∀ db' r, res = .ok (db', r) → EmbeddingsInv db') :
    EmbeddingsInv (LocalRag.Core.commit db res) :=
  commit_inv EmbeddingsInv h hres

theorem jobStep_embeddings (h : EmbeddingsInv db) (call : JobCall) :
    EmbeddingsInv (jobStep db call) := by
  have hjobs : ∀ {db' : Db} {p : IngestionJob → Bool} {f : IngestionJob → IngestionJob},
      db'.reprocessing = db.reprocessing →
      db'.content.jobs = updateWhere p f db.content.jobs →
      (∀ j, (f j).reprocessingOperationId = j.reprocessingOperationId) → EmbeddingsInv db' := by
    intro db' p f hreprocessing hrows hf
    exact (h.withJobs (jobsFrom_update hrows hf)).congr (by rw [hreprocessing])
      (by rw [hreprocessing]) (by rw [hreprocessing]) (by rw [hreprocessing])
  have heffect := jobStep_effect db call
  generalize jobStep db call = after at heffect
  cases heffect with
  | same => exact h
  | tick elapsed => exact h
  | commit mem _ _ _ _ count => exact ingestedDb_embeddings h mem count
  | poison _ error mem => exact poisonedDb_embeddings h mem error
  | claim | heartbeat | progress | requeue => exact hjobs rfl rfl fun _ => rfl

/-! ## The administrator's calls -/

variable {token : Option HexText}

variable {previewId : PreviewId}

theorem v10AdminPreviewReprocessing_untouched {operationType : Option OperationType}
    {targetProfileId : String} {source : Option String} {res : ReprocessingPreview × Bool}
    (h : v10AdminPreviewReprocessing db token previewId operationType targetProfileId source =
      .ok (db', res)) : Untouched db db' := by
  obtain ⟨_, rfl⟩ := v10AdminPreviewReprocessing_ok h
  exact ⟨rfl, rfl, rfl, List.Subset.refl _, fun j hj i hi => ⟨j, hj, hi⟩⟩

theorem v10AdminIssueReprocessingGrant_untouched {impact : ReprocessingImpact}
    {tokenHash : HexText} {res : Time}
    (h : v10AdminIssueReprocessingGrant db token previewId impact tokenHash = .ok (db', res)) :
    Untouched db db' := by
  obtain ⟨_, rfl⟩ := v10AdminIssueReprocessingGrant_ok h
  exact ⟨rfl, rfl, rfl, List.Subset.refl _, fun j hj i hi => ⟨j, hj, hi⟩⟩

/-- A new operation, running. -/
theorem EmbeddingInv.start (h : EmbeddingInv r jobs) (hfresh : ∀ x ∈ r.operations, x.id ≠ o.id)
    (hrunning : o.state = .running) :
    EmbeddingInv { r with operations := r.operations ++ [o] } jobs where
  operations := h.operations.append hfresh
  generations := h.generations
  active := h.active
  built := by
    intro g hg i hi
    obtain ⟨x, hx, hbuilt⟩ := h.built g hg i hi
    exact ⟨x, List.mem_append_left _ hx, hbuilt⟩
  task := by
    intro t ht
    obtain ⟨x, hx, htask⟩ := h.task t ht
    exact ⟨x, List.mem_append_left _ hx, htask⟩
  taskGeneration := h.taskGeneration
  qualifying := by
    intro x hx hstate
    rcases List.mem_append.mp hx with hx | hx
    · exact h.qualifying x hx hstate
    · rw [List.mem_singleton.mp hx, hrunning] at hstate
      cases hstate
  job := by
    intro j hj i hi
    obtain ⟨x, hx, hjob⟩ := h.job j hj i hi
    exact ⟨x, List.mem_append_left _ hx, hjob⟩

/-- The generation a running reindex builds, and its tasks. -/
theorem EmbeddingInv.build (h : EmbeddingInv r jobs) (ho : o ∈ r.operations)
    (hreindex : o.operationType = .reindex) (hrunning : o.state = .running)
    {g : EmbeddingGeneration} (hfresh : ∀ x ∈ r.embeddingGenerations, x.id ≠ g.id)
    (hbuilt : g.operationId = some o.id) (hbuilding : g.state = .building)
    (hbuilds : o.operationGenerationId = some g.id) (tasks : List ReindexTask)
    (htasks : ∀ t ∈ tasks, t.operationId = o.id ∧ t.generationId = g.id) :
    EmbeddingInv { r with
      embeddingGenerations := r.embeddingGenerations ++ [g]
      reindexTasks := r.reindexTasks ++ tasks } jobs where
  operations := h.operations
  generations := h.generations.append hfresh
  active := by
    obtain ⟨x, hx, hactive⟩ := h.active
    exact ⟨x, List.mem_append_left _ hx, hactive⟩
  built := by
    intro x hx i hi
    rcases List.mem_append.mp hx with hx | hx
    · exact h.built x hx i hi
    · obtain rfl := List.mem_singleton.mp hx
      rw [hbuilt] at hi
      refine ⟨o, ho, Option.some.inj hi, hreindex, fun hserved => ?_⟩
      rcases hserved with hs | hs
      · rw [hbuilding] at hs
        cases hs
      · rw [hbuilding] at hs
        cases hs
  task := by
    intro t ht
    rcases List.mem_append.mp ht with ht | ht
    · exact h.task t ht
    · obtain ⟨hop, hgen⟩ := htasks t ht
      rw [hop, hgen]
      refine ⟨o, ho, rfl, hbuilds, fun _ => ?_⟩
      rw [hrunning]
      exact ⟨nofun, nofun⟩
  taskGeneration := by
    intro t ht
    rcases List.mem_append.mp ht with ht | ht
    · obtain ⟨x, hx, hbuilt⟩ := h.taskGeneration t ht
      exact ⟨x, List.mem_append_left _ hx, hbuilt⟩
    · obtain ⟨hop, hgen⟩ := htasks t ht
      rw [hop, hgen]
      exact ⟨g, List.mem_append_right _ (List.mem_singleton_self g), rfl, hbuilt⟩
  qualifying := by
    intro x hx hstate
    obtain ⟨y, hy, hkept⟩ := h.qualifying x hx hstate
    exact ⟨y, List.mem_append_left _ hy, hkept⟩
  job := h.job

/-- The operation a start adds runs, under the id and of the kind the start says. -/
theorem insertedOperation_spec (ids : StartIds) (preview : ReprocessingPreview) :
    (insertedOperation ids preview).id = ids.operationId ∧
      (insertedOperation ids preview).state = .running ∧
      (insertedOperation ids preview).operationType = preview.impact.operationType ∧
      (preview.impact.operationType = .reindex →
        (insertedOperation ids preview).operationGenerationId =
          some ids.embeddingGenerationId) := by
  unfold insertedOperation
  cases htype : preview.impact.operationType with
  | reindex => exact ⟨rfl, rfl, htype, fun _ => rfl⟩
  | reingestion => exact ⟨rfl, rfl, htype, nofun⟩

theorem v10AdminStartReprocessing_embeddings (hinv : EmbeddingsInv db) {ids : StartIds}
    {impact : ReprocessingImpact} {tokenHash : HexText} {res : OperationId}
    (h : v10AdminStartReprocessing db token ids previewId impact tokenHash = .ok (db', res)) :
    EmbeddingsInv db' := by
  obtain ⟨preview, started, -, hfresh, hstarted, rfl⟩ := v10AdminStartReprocessing_ok h
  -- what is spent is in other tables
  suffices EmbeddingsInv started from EmbeddingInv.congr this rfl rfl rfl rfl
  obtain ⟨hid, hrunning, htype, hbuilds⟩ := insertedOperation_spec ids preview
  have hnew := EmbeddingInv.start hinv (o := insertedOperation ids preview)
    (fun o ho => hid ▸ hfresh o ho) hrunning
  have hmem : insertedOperation ids preview ∈
      db.reprocessing.operations ++ [insertedOperation ids preview] :=
    List.mem_append_right _ (List.mem_singleton_self _)
  cases hstarted with
  | reindex hreindex hgeneration =>
    refine (hnew.build hmem (htype.trans hreindex) hrunning
      (g := reindexGeneration db ids preview.impact) hgeneration (congrArg some hid.symm) rfl
      (hbuilds hreindex) ((servedChunks db).map (reindexTask db.now ids)) ?_).congr rfl rfl rfl rfl
    intro t ht
    obtain ⟨c, _, rfl⟩ := List.mem_map.mp ht
    exact ⟨hid.symm, rfl⟩
  | reingestion hreingestion =>
    refine { hnew with job := ?_ }
    intro j hj i hi
    rcases List.mem_append.mp hj with hj | hj
    · exact hnew.job j hj i hi
    · obtain ⟨n, hn, rfl⟩ := List.mem_mapIdx.mp hj
      obtain rfl := Option.some.inj hi
      exact ⟨_, hmem, hid, htype.trans hreingestion⟩

/-- Pause and resume move an operation between two open states. -/
theorem moveOperation_embeddings (h : EmbeddingsInv db) (operationId : OperationId)
    {source target : OperationState} (hsource : source ≠ .succeeded)
    (htarget : target ≠ .qualifying ∧ target ≠ .succeeded) :
    EmbeddingsInv (moveOperation db operationId source target).1 := by
  refine EmbeddingInv.updateOperations h (fun _ => ⟨rfl, rfl, rfl⟩) fun o _ hp => ?_
  simp only [decide_eq_true_eq] at hp
  refine Or.inr (Or.inl ⟨?_, htarget⟩)
  rw [hp.2]
  exact hsource

/-- An operation that is not done is stopped or taken up again. -/
theorem EmbeddingInv.reopen (h : EmbeddingInv r jobs) {operation : ReprocessingOperation}
    (hmem : operation ∈ r.operations) (hopen : operation.state ≠ .succeeded)
    (hkeeps : ∀ o, (f o).id = o.id ∧ (f o).operationType = o.operationType ∧
      (f o).operationGenerationId = o.operationGenerationId)
    (hstate : ∀ o, (f o).state ≠ .qualifying ∧ (f o).state ≠ .succeeded) :
    EmbeddingInv { r with
      operations := updateWhere (fun o => o.id = operation.id) f r.operations } jobs := by
  refine h.updateOperations hkeeps fun o ho hp => Or.inr (Or.inl ⟨?_, hstate o⟩)
  rw [h.operations.eq ho hmem (of_decide_eq_true hp)]
  exact hopen

/-- After such a write the operation is open. -/
theorem isOpen_of_update (r : Reprocessing) (operationId : OperationId)
    (hstate : ∀ o, (f o).state ≠ .qualifying ∧ (f o).state ≠ .succeeded) :
    IsOpen { r with
      operations := updateWhere (fun o => o.id = operationId) f r.operations } operationId := by
  intro o ho heq
  obtain ⟨o₀, _, rfl⟩ := mem_updateWhere.mp ho
  by_cases hp : o₀.id = operationId
  · rw [if_pos (by simpa using hp)]
    exact hstate o₀
  · rw [if_neg (by simpa using hp)] at heq
    exact absurd heq hp

variable {operationId : OperationId}

/-- The generations of an operation that is neither qualifying nor done leave the states in
which they may not be touched alone. -/
theorem EmbeddingInv.updateBuilt (h : EmbeddingInv r jobs) (hopen : IsOpen r operationId)
    {p : EmbeddingGeneration → Bool} (hp : ∀ g, p g = true → g.operationId = some operationId)
    {f : EmbeddingGeneration → EmbeddingGeneration}
    (hkeeps : ∀ g, (f g).id = g.id ∧ (f g).operationId = g.operationId)
    (hf : ∀ g, ¬ wasServed (f g)) :
    EmbeddingInv { r with embeddingGenerations := updateWhere p f r.embeddingGenerations } jobs := by
  refine h.updateGenerations hkeeps fun g hg hpg => ⟨?_, hf g, ?_⟩
  · intro hactive
    obtain ⟨o, ho, hid, -, hdone⟩ := h.built g hg operationId (hp g hpg)
    exact (hopen o ho hid).2 (hdone (Or.inl hactive))
  · intro o ho hbuilt
    rw [hp g hpg] at hbuilt
    exact (hopen o ho (Option.some.inj hbuilt).symm).1

variable {res : Bool}

theorem v10AdminCancelReprocessing_embeddings (hinv : EmbeddingsInv db)
    (h : v10AdminCancelReprocessing db token operationId = .ok (db', res)) : EmbeddingsInv db' := by
  rcases v10AdminCancelReprocessing_ok h with rfl | ⟨operation, hmem, rfl, hstate, -, rfl⟩
  · exact hinv
  have hopen : operation.state ≠ .succeeded := by
    rcases hstate with hstate | hstate
    · rw [hstate]
      nofun
    · rw [hstate]
      nofun
  have hoperations := EmbeddingInv.reopen hinv hmem hopen
    (f := fun o => { o with state := .cancelled, reasonCode := some "cancelled_by_admin" })
    (fun _ => ⟨rfl, rfl, rfl⟩) fun _ => ⟨nofun, nofun⟩
  have hgenerations := hoperations.updateBuilt
    (isOpen_of_update _ _ fun _ => ⟨nofun, nofun⟩)
    (p := fun g => g.operationId = some operation.id ∧
      (g.state = .building ∨ g.state = .qualified))
    (f := fun g => { g with state := .abandoned, retiredAt := some db.now })
    (fun g hp => (of_decide_eq_true hp).1) (fun _ => ⟨rfl, rfl⟩) (fun _ => by simp [wasServed])
  have hjobs : JobsFrom db (cancelledDb db operation.id) :=
    jobsFrom_subset (deleteWhere_subset _ _)
  exact hgenerations.withJobs hjobs

theorem v10AdminRetryReprocessing_embeddings (hinv : EmbeddingsInv db)
    (h : v10AdminRetryReprocessing db token operationId = .ok (db', res)) : EmbeddingsInv db' := by
  rcases v10AdminRetryReprocessing_ok h with rfl | ⟨operation, hmem, rfl, hstate, rfl⟩
  · exact hinv
  have hopen : operation.state ≠ .succeeded := by
    rw [hstate]
    nofun
  have hoperations := EmbeddingInv.reopen hinv hmem hopen
    (f := retriedOperation) (fun _ => ⟨rfl, rfl, rfl⟩) fun _ => ⟨nofun, nofun⟩
  unfold retriedDb retriedWork
  cases operation.operationType with
  | reindex =>
    have hgenerations := hoperations.updateBuilt
      (isOpen_of_update _ _ fun _ => ⟨nofun, nofun⟩)
      (p := fun g => g.operationId = some operation.id)
      (f := fun g => { g with state := .building, retiredAt := none })
      (fun g hp => of_decide_eq_true hp) (fun _ => ⟨rfl, rfl⟩)
      (fun _ => by simp [wasServed])
    refine EmbeddingInv.congr (hgenerations.withTasks fun t' ht' => ?_) rfl rfl rfl rfl
    obtain ⟨t, ht, rfl⟩ := mem_updateWhere.mp ht'
    refine ⟨t, ht, ?_⟩
    split
    next hp =>
      -- a task that is taken up again had failed
      simp only [decide_eq_true_eq] at hp
      exact ⟨rfl, rfl, fun _ => Or.inl (by rw [hp.2.1]; nofun)⟩
    next => exact ⟨rfl, rfl, Or.inl⟩
  | reingestion =>
    refine EmbeddingInv.withJobs hoperations fun j' hj' i hi => ?_
    obtain ⟨j, hj, rfl⟩ := mem_updateWhere.mp hj'
    refine ⟨j, hj, ?_⟩
    split at hi
    · exact hi
    · exact hi

/-! ## Another generation becomes the active one -/

/-- Row by row: the target is active, the one before it retained, any other as it was. -/
theorem mem_switched {now : Time} {active target : GenerationId}
    {generations : List EmbeddingGeneration} (hne : target ≠ active) {g' : EmbeddingGeneration} :
    g' ∈ switched now active target generations ↔ ∃ g ∈ generations,
      (if g.id = target then { g with state := .active, retiredAt := none }
        else if g.id = active then { g with state := .retained, retiredAt := some now }
        else g) = g' := by
  unfold switched updateWhere
  rw [List.map_map, List.mem_map]
  refine exists_congr fun g => and_congr_right fun _ => ?_
  simp only [Function.comp, decide_eq_true_eq]
  by_cases hactive : g.id = active
  · have hother : ¬ g.id = target := fun heq => hne (heq.symm.trans hactive)
    simp [hactive, Ne.symm hne]
  · simp [hactive]

theorem EmbeddingInv.switch (h : EmbeddingInv r jobs) {target : EmbeddingGeneration}
    (hmem : target ∈ r.embeddingGenerations) (hidle : target.state ≠ .active)
    (hdone : ∀ i, target.operationId = some i → ∃ o ∈ r.operations, o.id = i ∧
      o.operationType = .reindex ∧ o.state = .succeeded) (now : Time) :
    EmbeddingInv { r with
      embeddingGenerations := switched now r.activeEmbeddingGeneration target.id
        r.embeddingGenerations
      activeEmbeddingGeneration := target.id } jobs := by
  have hne : target.id ≠ r.activeEmbeddingGeneration :=
    fun heq => hidle (h.active_state hmem heq)
  -- a row under its old key, with the operation it had
  have hrow : ∀ g ∈ r.embeddingGenerations,
      ∃ g' ∈ switched now r.activeEmbeddingGeneration target.id r.embeddingGenerations,
        g'.id = g.id ∧ g'.operationId = g.operationId ∧
        (g.id ≠ target.id → g.id ≠ r.activeEmbeddingGeneration → g' = g) := by
    intro g hg
    refine ⟨_, (mem_switched hne).mpr ⟨g, hg, rfl⟩, ?_⟩
    by_cases htarget : g.id = target.id
    · simp [htarget]
    · by_cases hactive : g.id = r.activeEmbeddingGeneration
      · simp [hactive, Ne.symm hne]
      · simp [htarget, hactive]
  refine ⟨h.operations, ?_, ?_, ?_, h.task, ?_, ?_, h.job⟩
  · show Keyed _ (switched _ _ _ _)
    unfold switched
    refine Keyed.updateWhere (Keyed.updateWhere h.generations ?_) ?_
    · exact fun _ => rfl
    · exact fun _ => rfl
  · exact ⟨_, (mem_switched hne).mpr ⟨target, hmem, if_pos rfl⟩, rfl, rfl⟩
  · intro g' hg' i hi
    obtain ⟨g, hg, rfl⟩ := (mem_switched hne).mp hg'
    by_cases htarget : g.id = target.id
    · obtain rfl := h.generations.eq hg hmem htarget
      rw [if_pos rfl] at hi
      obtain ⟨o, ho, hid, hreindex, hsucceeded⟩ := hdone i hi
      exact ⟨o, ho, hid, hreindex, fun _ => hsucceeded⟩
    · rw [if_neg htarget] at hi ⊢
      by_cases hactive : g.id = r.activeEmbeddingGeneration
      · rw [if_pos hactive] at hi
        obtain ⟨o, ho, hid, hreindex, hsucceeded⟩ := h.built g hg i hi
        exact ⟨o, ho, hid, hreindex, fun _ => hsucceeded (Or.inl (h.active_state hg hactive))⟩
      · rw [if_neg hactive] at hi ⊢
        exact h.built g hg i hi
  · intro t ht
    obtain ⟨g, hg, hid, hbuilt⟩ := h.taskGeneration t ht
    obtain ⟨g', hg', hid', hop', -⟩ := hrow g hg
    exact ⟨g', hg', hid'.trans hid, hop'.trans hbuilt⟩
  · intro o ho hstate
    obtain ⟨g, hg, hbuilds, hbuilt, hbuilding⟩ := h.qualifying o ho hstate
    obtain ⟨g', hg', hid', hop', hkept⟩ := hrow g hg
    have hsame : g' = g := by
      refine hkept ?_ ?_
      · -- the target's operation has succeeded, this one's is qualifying
        intro heq
        obtain rfl := h.generations.eq hg hmem heq
        obtain ⟨o', ho', hid, -, hsucceeded⟩ := hdone o.id hbuilt
        rw [h.operations.eq ho' ho hid, hstate] at hsucceeded
        cases hsucceeded
      · intro heq
        rw [h.active_state hg heq] at hbuilding
        cases hbuilding
    subst hsame
    exact ⟨g', hg', hbuilds, hbuilt, hbuilding⟩

theorem v10AdminRollbackEmbeddingGeneration_embeddings (hinv : EmbeddingsInv db)
    {generationId : GenerationId}
    (h : v10AdminRollbackEmbeddingGeneration db token generationId = .ok (db', res)) :
    EmbeddingsInv db' := by
  rcases v10AdminRollbackEmbeddingGeneration_ok h with ⟨rfl, -⟩ | ⟨g, hg, rfl, hretained, rfl, -⟩
  · exact hinv
  · refine EmbeddingInv.switch hinv hg ?_ ?_ db.now
    · rw [hretained]
      nofun
    · intro i hi
      obtain ⟨o, ho, hid, hreindex, hsucceeded⟩ := EmbeddingInv.built hinv g hg i hi
      exact ⟨o, ho, hid, hreindex, hsucceeded (Or.inr hretained)⟩

/-- A generation in neither of the states a qualifying or an active one has may go, with its
tasks. -/
theorem EmbeddingInv.remove (h : EmbeddingInv r jobs) {target : EmbeddingGeneration}
    (hmem : target ∈ r.embeddingGenerations)
    (hne : target.id ≠ r.activeEmbeddingGeneration) (hbuilt : target.state ≠ .building) :
    EmbeddingInv { r with
      embeddingGenerations := deleteWhere (fun g => g.id = target.id) r.embeddingGenerations
      reindexTasks := deleteWhere (fun t => t.generationId = target.id) r.reindexTasks } jobs where
  operations := h.operations
  generations := h.generations.deleteWhere _
  active := by
    obtain ⟨g, hg, hid, hactive⟩ := h.active
    refine ⟨g, mem_deleteWhere.mpr ⟨hg, decide_eq_false fun heq => hne ?_⟩, hid, hactive⟩
    exact heq.symm.trans hid
  built := fun g hg => h.built g (mem_deleteWhere.mp hg).1
  task := fun t ht => h.task t (mem_deleteWhere.mp ht).1
  taskGeneration := by
    intro t ht
    obtain ⟨ht, hkept⟩ := mem_deleteWhere.mp ht
    obtain ⟨g, hg, hid, hop⟩ := h.taskGeneration t ht
    refine ⟨g, mem_deleteWhere.mpr ⟨hg, ?_⟩, hid, hop⟩
    rwa [hid]
  qualifying := by
    intro o ho hstate
    obtain ⟨g, hg, hbuilds, hop, hbuilding⟩ := h.qualifying o ho hstate
    refine ⟨g, mem_deleteWhere.mpr ⟨hg, decide_eq_false fun heq => hbuilt ?_⟩, hbuilds, hop,
      hbuilding⟩
    rwa [← h.generations.eq hg hmem heq]
  job := h.job

theorem v10AdminCleanupGeneration_embeddings (hinv : EmbeddingsInv db)
    {generationType : GenerationType} {generationId : GenerationId}
    (h : v10AdminCleanupGeneration db token generationType generationId = .ok (db', res)) :
    EmbeddingsInv db' := by
  rcases v10AdminCleanupGeneration_ok h with rfl | ⟨-, ⟨g, hg, hclean⟩, rfl⟩ | ⟨-, -, rfl⟩
  · exact hinv
  · simp only [isCleanableEmbedding, decide_eq_true_eq] at hclean
    obtain ⟨rfl, _, hstate, hne⟩ := hclean
    have hbuilt : g.state ≠ .building := by
      intro hbuilding
      simp [hbuilding] at hstate
    exact EmbeddingInv.congr (EmbeddingInv.remove hinv hg hne hbuilt) rfl rfl rfl rfl
  · have huntouched : Untouched db (deleteGenerationRows db generationId) := by
      refine ⟨rfl, rfl, rfl, deleteWhere_subset _ _, ?_⟩
      exact jobsFrom_subset (deleteWhere_subset _ _)
    exact huntouched.inv hinv

/-! ## The calls of a reindex -/

/-- A task's row is rewritten by a worker that holds it; its operation is open unless the
row is completed. -/
theorem EmbeddingInv.updateTasks (h : EmbeddingInv r jobs) {p : ReindexTask → Bool}
    {f : ReindexTask → ReindexTask}
    (hkeeps : ∀ t, (f t).operationId = t.operationId ∧ (f t).generationId = t.generationId)
    (hf : ∀ t ∈ r.reindexTasks, p t = true → (f t).state ≠ .completed →
      IsOpen r t.operationId) :
    EmbeddingInv { r with reindexTasks := updateWhere p f r.reindexTasks } jobs := by
  refine h.withTasks fun t' ht' => ?_
  obtain ⟨t, ht, rfl⟩ := mem_updateWhere.mp ht'
  refine ⟨t, ht, ?_⟩
  split
  next hp => exact ⟨(hkeeps t).1, (hkeeps t).2, fun hne => Or.inr (hf t ht hp hne)⟩
  next => exact ⟨rfl, rfl, Or.inl⟩

/-- A running operation is open. -/
theorem EmbeddingInv.isOpen_of_runs (h : EmbeddingsInv db)
    (hruns : operationRuns db operationId = true) : IsOpen db.reprocessing operationId := by
  obtain ⟨x, hx, hrow⟩ := List.any_eq_true.mp hruns
  obtain ⟨hid, hrunning⟩ := of_decide_eq_true hrow
  intro o ho heq
  rw [EmbeddingInv.operations h |>.eq ho hx (heq.trans hid.symm), hrunning]
  exact ⟨nofun, nofun⟩

theorem v10ClaimReindexTasks_embeddings (hinv : EmbeddingsInv db) {request : ReindexClaimRequest}
    {locked : List (OperationId × ChunkId)} {res : List ReindexClaim}
    (h : v10ClaimReindexTasks db request locked = .ok (db', res)) : EmbeddingsInv db' := by
  obtain ⟨rfl, -⟩ := claimReindexTasksAt_ok h
  refine EmbeddingInv.updateTasks hinv (fun _ => ⟨rfl, rfl⟩) fun t _ hp _ => ?_
  obtain ⟨u, hu, hsame⟩ := List.any_eq_true.mp hp
  have hop : t.operationId = u.operationId := (of_decide_eq_true hsame).1
  rw [hop]
  exact EmbeddingInv.isOpen_of_runs hinv (isClaimableTask_runs (mem_chosenTasks hu).2.1)

theorem v10FailReindexTask_embeddings (hinv : EmbeddingsInv db) {chunkId : ChunkId}
    {leaseToken : LeaseToken} {fencingToken : Nat} {error : String}
    (h : v10FailReindexTask db operationId chunkId leaseToken fencingToken error = .ok (db', res)) :
    EmbeddingsInv db' := by
  rcases v10FailReindexTask_ok h with rfl | ⟨task, ht, hheld, rfl⟩
  · exact hinv
  · simp only [holdsTaskTokens, decide_eq_true_eq] at hheld
    have hleft : task.state ≠ .completed := by
      rw [hheld.2.2.1]
      nofun
    have hopen : IsOpen db.reprocessing task.operationId :=
      fun o ho hid => EmbeddingInv.task_open hinv ht hleft ho hid
    have htasks := EmbeddingInv.updateTasks hinv (p := sameTask task) (f := failedTask error)
      (fun _ => ⟨rfl, rfl⟩) fun t _ hp _ => by
        have hop : task.operationId = t.operationId := (of_decide_eq_true hp).1
        rwa [← hop]
    unfold failedTaskDb
    by_cases hagain : task.attempt < 3
    · simp only [hagain, if_true]
      exact htasks
    · simp only [hagain, if_false]
      have hgenerations := htasks.updateBuilt hopen
        (p := fun g => g.operationId = some task.operationId)
        (f := fun g => { g with state := .abandoned, retiredAt := some db.now })
        (fun g hp => of_decide_eq_true hp) (fun _ => ⟨rfl, rfl⟩) (fun _ => by simp [wasServed])
      refine hgenerations.updateOperations (fun _ => ⟨rfl, rfl, rfl⟩) fun o ho hp => ?_
      exact Or.inr (Or.inl ⟨(hopen o ho (of_decide_eq_true hp)).2, nofun, nofun⟩)

/-- An operation without work left is closed: it qualifies with the generation it builds, or
has succeeded. -/
theorem EmbeddingInv.close (h : EmbeddingInv r jobs) {operation : ReprocessingOperation}
    (hmem : operation ∈ r.operations)
    (hkeeps : ∀ o, (f o).id = o.id ∧ (f o).operationType = o.operationType ∧
      (f o).operationGenerationId = o.operationGenerationId)
    (hdone : operation.state = .succeeded → (f operation).state = .succeeded)
    (htasks : ∀ t ∈ r.reindexTasks, t.operationId = operation.id → t.state = .completed)
    (hbuilds : (f operation).state = .qualifying → ∃ g ∈ r.embeddingGenerations,
      operation.operationGenerationId = some g.id ∧ g.operationId = some operation.id ∧
      g.state = .building) :
    EmbeddingInv { r with
      operations := updateWhere (fun o => o.id = operation.id) f r.operations } jobs := by
  have hid : ∀ o ∈ r.operations, (if o.id = operation.id then f o else o).id = o.id := by
    intro o _
    split
    · exact (hkeeps o).1
    · rfl
  -- a row of the table after the update, of the row it was
  have hrow : ∀ o ∈ r.operations, (if o.id = operation.id then f o else o) ∈
      updateWhere (fun o => o.id = operation.id) f r.operations :=
    fun o ho => mem_updateWhere.mpr ⟨o, ho, by simp⟩
  refine ⟨h.operations.updateWhere fun o => (hkeeps o).1, h.generations, h.active, ?_, ?_,
    h.taskGeneration, ?_, ?_⟩
  · intro g hg i hi
    obtain ⟨o, ho, hoid, hreindex, hserved⟩ := h.built g hg i hi
    refine ⟨_, hrow o ho, (hid o ho).trans hoid, ?_, fun hgs => ?_⟩
    · split
      · exact (hkeeps o).2.1.trans hreindex
      · exact hreindex
    · split
      next heq =>
        rw [h.operations.eq ho hmem heq] at hserved ⊢
        exact hdone (hserved hgs)
      next => exact hserved hgs
  · intro t ht
    obtain ⟨o, ho, hoid, hgen, hstate⟩ := h.task t ht
    refine ⟨_, hrow o ho, (hid o ho).trans hoid, ?_, fun hleft => ?_⟩
    · split
      · exact (hkeeps o).2.2.trans hgen
      · exact hgen
    · split
      next heq => exact absurd (htasks t ht (hoid.symm.trans heq)) hleft
      next => exact hstate hleft
  · intro o' ho' hstate
    obtain ⟨o, ho, rfl⟩ := mem_updateWhere.mp ho'
    by_cases heq : o.id = operation.id
    · obtain rfl := h.operations.eq ho hmem heq
      simp only [decide_true, if_true] at hstate ⊢
      rw [(hkeeps o).1, (hkeeps o).2.2]
      exact hbuilds hstate
    · simp only [heq, decide_false, Bool.false_eq_true, if_false] at hstate ⊢
      exact h.qualifying o ho hstate
  · intro j hj i hi
    obtain ⟨o, ho, hoid, htype⟩ := h.job j hj i hi
    refine ⟨_, hrow o ho, (hid o ho).trans hoid, ?_⟩
    split
    · exact (hkeeps o).2.1.trans htype
    · exact htype

/-- The counts of an operation agree when none of its tasks is left. -/
theorem completed_of_count
    (h : (countReindexTasks db operationId).1 = (countReindexTasks db operationId).2) :
    ∀ t ∈ db.reprocessing.reindexTasks, t.operationId = operationId → t.state = .completed := by
  intro t ht hop
  have hall := List.length_filter_eq_length_iff.mp h t (List.mem_filter.mpr ⟨ht, by simpa using hop⟩)
  simpa using hall

variable {request : ReindexRequest}

/-- The count of a task that was leased until now: where it says that none is left, the generation
is still being built. -/
theorem countedReindex_embeddings (hinv : EmbeddingsInv db) {target : ReindexTarget}
    {task : ReindexTask} (htask : task ∈ db.reprocessing.reindexTasks)
    (hop : task.operationId = request.operationId) (hleft : task.state ≠ .completed)
    {counts : Nat × Nat}
    (hdone : counts.1 = counts.2 → ∀ t ∈ (storeReindexTask db request target).reprocessing.reindexTasks,
      t.operationId = request.operationId → t.state = .completed)
    (hbuilding : counts.1 = counts.2 → ∃ g ∈ db.reprocessing.embeddingGenerations,
      g.id = task.generationId ∧ g.state = .building)
    (hcounted : countedReindex (storeReindexTask db request target) request.operationId counts =
      .ok db') : EmbeddingsInv db' := by
  have hstored : EmbeddingsInv (storeReindexTask db request target) := by
    have htasks := EmbeddingInv.updateTasks hinv (f := completedTask)
      (p := fun t => t.operationId = request.operationId ∧ t.chunkId = request.chunkId)
      (fun _ => ⟨rfl, rfl⟩) fun t _ _ hne => absurd rfl hne
    exact htasks.congr rfl rfl rfl rfl
  unfold countedReindex at hcounted
  rw [ite_error_eq_ok] at hcounted
  obtain rfl := Except.ok.inj hcounted.2
  obtain ⟨operation, hmem, hid, hbuilds, hstate⟩ := EmbeddingInv.task hinv task htask
  have hopen := hstate hleft
  have hrequest : request.operationId = operation.id := hop.symm.trans hid.symm
  by_cases hall : counts.1 = counts.2
  · rw [hrequest] at hdone ⊢
    refine EmbeddingInv.close hstored hmem (fun _ => ⟨rfl, rfl, rfl⟩)
      (fun hsucceeded => absurd hsucceeded hopen.2) (hdone hall) fun _ => ?_
    -- the generation of the task is the one the operation builds
    obtain ⟨g, hg, hgid, hbuilt⟩ := EmbeddingInv.taskGeneration hinv task htask
    obtain ⟨x, hx, hxid, hstate⟩ := hbuilding hall
    obtain rfl := (EmbeddingInv.generations hinv).eq hx hg (hxid.trans hgid.symm)
    exact ⟨x, hg, hbuilds.trans (congrArg some hgid.symm), hbuilt.trans (congrArg some hid.symm),
      hstate⟩
  · refine EmbeddingInv.updateOperations hstored (fun _ => ⟨rfl, rfl, rfl⟩) fun o _ _ => ?_
    exact Or.inl (if_neg hall)

/-- The generation a commit reads is the task's, and being built. -/
theorem readReindexTarget_ok {task : ReindexTask} {target : ReindexTarget}
    (h : readReindexTarget db request task = .ok target) :
    target.generation ∈ db.reprocessing.embeddingGenerations ∧
      target.generation.id = task.generationId ∧ target.generation.state = .building ∧
      target.source ∈ db.content.chunks ∧ target.source.id = request.chunkId := by
  unfold readReindexTarget at h
  split at h
  next generation source hgeneration hsource =>
    rw [ite_error_eq_ok] at h
    obtain rfl := Except.ok.inj h.2
    have hrow := List.find?_some hgeneration
    simp only [decide_eq_true_eq] at hrow
    exact ⟨List.mem_of_find?_eq_some hgeneration, hrow.1, hrow.2,
      List.mem_of_find?_eq_some hsource, by simpa using List.find?_some hsource⟩
  next => cases h

theorem v10CommitReindexTask_embeddings (hinv : EmbeddingsInv db)
    (h : v10CommitReindexTask db request = .ok (db', res)) : EmbeddingsInv db' := by
  unfold v10CommitReindexTask at h
  split at h
  · obtain rfl := left_of_ok h
    exact hinv
  next task hlock =>
    obtain ⟨htask, hheld, -⟩ := lockReindexTask_some hlock
    split at h
    · cases h
    next target htarget =>
      dsimp only at h
      split at h
      · cases h
      next counted hcounted =>
        obtain rfl := left_of_ok h
        simp only [holdsTaskLease, holdsTaskTokens, decide_eq_true_eq] at hheld
        obtain ⟨hg, hid, hbuilding, -⟩ := readReindexTarget_ok htarget
        have hleft : task.state ≠ .completed := by
          rw [hheld.1.2.2.1]
          nofun
        exact countedReindex_embeddings hinv htask hheld.1.1 hleft (fun hall => completed_of_count hall)
          (fun _ => ⟨_, hg, hid, hbuilding⟩) hcounted

theorem v10ClaimReindexQualification_embeddings (hinv : EmbeddingsInv db) {owner : String}
    {leaseSeconds : Nat} {leaseToken : LeaseToken} {locked : List OperationId}
    {res : Option QualificationClaim}
    (h : v10ClaimReindexQualification db owner leaseSeconds leaseToken locked = .ok (db', res)) :
    EmbeddingsInv db' := by
  rcases v10ClaimReindexQualification_ok h with rfl | ⟨operationId, rfl⟩
  · exact hinv
  · exact EmbeddingInv.updateOperations hinv (fun _ => ⟨rfl, rfl, rfl⟩) fun _ _ _ => Or.inl rfl

section Qualified

variable {report : QualificationReport} {operation : ReprocessingOperation}
  {generation : EmbeddingGeneration}

/-- The generation of a qualifying operation is being built. -/
theorem EmbeddingInv.qualifying_building (hinv : EmbeddingsInv db)
    (hmem : operation ∈ db.reprocessing.operations) (hqualifying : operation.state = .qualifying)
    (hg : generation ∈ db.reprocessing.embeddingGenerations)
    (hbuilds : operation.operationGenerationId = some generation.id) :
    generation.operationId = some operation.id ∧ generation.state = .building := by
  obtain ⟨g, hg', hgid, hbuilt, hbuilding⟩ :=
    EmbeddingInv.qualifying hinv operation hmem hqualifying
  rw [hbuilds] at hgid
  obtain rfl := (EmbeddingInv.generations hinv).eq hg hg' (Option.some.inj hgid)
  exact ⟨hbuilt, hbuilding⟩

/-- A candidate is abandoned. -/
theorem rejectedDb_embeddings (hinv : EmbeddingsInv db)
    (hmem : operation ∈ db.reprocessing.operations) (hid : operation.id = report.operationId)
    (hqualifying : operation.state = .qualifying)
    (hg : generation ∈ db.reprocessing.embeddingGenerations)
    (hbuilds : operation.operationGenerationId = some generation.id) :
    EmbeddingsInv (rejectedDb db report generation) := by
  obtain ⟨hbuilt, hbuilding⟩ := EmbeddingInv.qualifying_building hinv hmem hqualifying hg hbuilds
  have hleft : operation.state ≠ .succeeded := by
    rw [hqualifying]
    nofun
  have hoperations := EmbeddingInv.reopen hinv hmem hleft
    (f := rejectedOperation report.reasonCode) (fun _ => ⟨rfl, rfl, rfl⟩)
    fun _ => ⟨nofun, nofun⟩
  have hopen := isOpen_of_update db.reprocessing operation.id
    (f := rejectedOperation report.reasonCode) fun _ => ⟨nofun, nofun⟩
  have hgenerations := hoperations.updateGenerations (p := fun x => x.id = generation.id)
    (f := fun x => { x with state := .abandoned, retiredAt := some db.now })
    (fun _ => ⟨rfl, rfl⟩) ?_
  · unfold rejectedDb
    rw [← hid]
    exact hgenerations
  · intro x hx hp
    obtain rfl := (EmbeddingInv.generations hinv).eq hx hg (of_decide_eq_true hp)
    refine ⟨by rw [hbuilding]; nofun, by simp [wasServed], fun o ho hop => ?_⟩
    rw [hbuilt] at hop
    exact (hopen o ho (Option.some.inj hop).symm).1

/-- The operation succeeds, then its generation becomes the active one. -/
theorem cutoverDb_embeddings (hinv : EmbeddingsInv db)
    (hmem : operation ∈ db.reprocessing.operations) (hid : operation.id = report.operationId)
    (hqualifying : operation.state = .qualifying)
    (hg : generation ∈ db.reprocessing.embeddingGenerations)
    (hbuilds : operation.operationGenerationId = some generation.id) :
    EmbeddingsInv (cutoverDb db report generation) := by
  obtain ⟨hbuilt, hbuilding⟩ := EmbeddingInv.qualifying_building hinv hmem hqualifying hg hbuilds
  have hclosed := EmbeddingInv.close hinv hmem (f := succeededOperation)
    (fun _ => ⟨rfl, rfl, rfl⟩) (fun _ => rfl) ?_ nofun
  · have hswitched := hclosed.switch hg (by rw [hbuilding]; nofun) ?_ db.now
    · unfold cutoverDb
      rw [← hid]
      exact hswitched
    · intro i hi
      rw [hbuilt] at hi
      obtain rfl := Option.some.inj hi
      obtain ⟨o, ho, hoid, hreindex, -⟩ := EmbeddingInv.built hinv generation hg _ hbuilt
      obtain rfl := (EmbeddingInv.operations hinv).eq ho hmem hoid
      exact ⟨succeededOperation o, mem_updateWhere.mpr ⟨o, ho, if_pos (by simp)⟩, rfl,
        hreindex, rfl⟩
  · intro t ht hop
    by_contra hopen
    exact (EmbeddingInv.task_open hinv ht hopen hmem hop.symm).1 hqualifying

end Qualified

theorem v10CompleteReindexQualification_embeddings (hinv : EmbeddingsInv db)
    {report : QualificationReport}
    (h : v10CompleteReindexQualification db report = .ok (db', res)) : EmbeddingsInv db' := by
  rcases v10CompleteReindexQualification_ok h with
    rfl | ⟨operation, hmem, generation, hg, hid, hqualifying, hbuilds, rfl | rfl⟩
  · exact hinv
  · exact rejectedDb_embeddings hinv hmem hid hqualifying hg hbuilds
  · exact cutoverDb_embeddings hinv hmem hid hqualifying hg hbuilds

/-! ## Every call -/

theorem ingestStep_embeddings (h : EmbeddingsInv db) (call : IngestCall) :
    EmbeddingsInv (ingestStep db call) := by
  cases call with
  | library call => exact (step_untouched db call).inv h
  | job call => exact jobStep_embeddings h call
  | maintenanceRequeue =>
    refine embeddings_commit h fun db' r heq => ?_
    rcases v4MaintenanceRequeueDocument_ok heq with rfl | ⟨_, _, _, _, _, rfl⟩
    · exact h
    · exact (requeuedDb_untouched db _ _).inv h
  | documentReingest =>
    refine embeddings_commit h fun db' r heq => ?_
    rcases v4CommitDocumentReingest_ok heq with rfl | ⟨_, _, _, _, _, _, rfl⟩
    · exact h
    · exact (requeuedDb_untouched db _ _).inv h
  | previewReprocessing =>
    exact embeddings_commit h fun _ _ heq => (v10AdminPreviewReprocessing_untouched heq).inv h
  | issueGrant =>
    exact embeddings_commit h fun _ _ heq => (v10AdminIssueReprocessingGrant_untouched heq).inv h
  | startReprocessing =>
    exact embeddings_commit h fun _ _ heq => v10AdminStartReprocessing_embeddings h heq
  | pause token operationId =>
    refine embeddings_commit h fun db' r heq => ?_
    obtain rfl := v10AdminPauseReprocessing_ok heq
    exact moveOperation_embeddings h operationId nofun ⟨nofun, nofun⟩
  | resume token operationId =>
    refine embeddings_commit h fun db' r heq => ?_
    obtain rfl := v10AdminResumeReprocessing_ok heq
    exact moveOperation_embeddings h operationId nofun ⟨nofun, nofun⟩
  | cancel => exact embeddings_commit h fun _ _ heq => v10AdminCancelReprocessing_embeddings h heq
  | retry => exact embeddings_commit h fun _ _ heq => v10AdminRetryReprocessing_embeddings h heq
  | rollbackEmbedding =>
    exact embeddings_commit h fun _ _ heq => v10AdminRollbackEmbeddingGeneration_embeddings h heq
  | cleanupGeneration =>
    exact embeddings_commit h fun _ _ heq => v10AdminCleanupGeneration_embeddings h heq

end LocalRag.Ingest
