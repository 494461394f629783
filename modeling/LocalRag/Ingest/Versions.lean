import LocalRag.Ingest.Steps

/-!
# Documents and their generations

A document that is `ready` is served from its active generation. The facts about
that version stand in four tables: the document's versions and counts, the
generation's, the chunk rows with their ordinals, and the jobs that may still
write to it. `VersionInv` says that they agree; `ContentStep.versionInv` keeps it
with one case per write, each case put together from the small updates of the
first sections.

The part that carries it is about jobs. A live job (`isLive`: queued, running, or
one a retry may queue again) is the only live one for its target, and never
targets the active generation of a ready document. So the only writes that reach
such a generation are a commit, which makes it ready again, and the maintenance
requeue, which takes the document out of `ready` first. A generation that a poison,
a cancel or a retry changes is therefore not one that is being served.

The ordinals are the payload's. A commit is a worker's (`FromWorker`), whose
payload `process` numbered from zero.
-/

namespace LocalRag.Ingest

open LocalRag.Core Access Library Storage

/-- A worker may still be given the job. -/
def isLive (j : IngestionJob) : Prop :=
  j.status = .queued ∨ j.status = .running ∨
    (j.reprocessingOperationId ≠ none ∧ j.status ≠ .completed)

/-- The chunk rows of the document's active generation. -/
def activeChunks (c : Content) (d : Document) : List Chunk :=
  c.chunks.filter fun x => x.documentGenerationId = d.activeGenerationId

/-- The document's active generation is ready and says of itself what the document
and the chunk rows say. -/
def Served (c : Content) (d : Document) : Prop :=
  ∃ g ∈ c.generations, g.id = d.activeGenerationId ∧ g.documentId = d.id ∧ g.state = .ready ∧
    g.parserVersion = d.parserVersion ∧ g.chunkingVersion = d.chunkingVersion ∧
    g.chunkCount = d.chunkCount ∧
    (activeChunks c d).map (·.ordinal) = List.range g.chunkCount

/-- The four tables agree on what is served and on who may still write. -/
structure VersionInv (c : Content) : Prop where
  documents : Keyed (·.id) c.documents
  generations : Keyed (·.id) c.generations
  jobs : Keyed (·.id) c.jobs
  /-- `fk_documents_active_generation`. -/
  active : ∀ d ∈ c.documents,
    ∃ g ∈ c.generations, g.id = d.activeGenerationId ∧ g.documentId = d.id
  /-- `fk_chunks_document_generation`. -/
  chunk : ∀ x ∈ c.chunks,
    ∃ g ∈ c.generations, g.id = x.documentGenerationId ∧ g.documentId = x.documentId
  /-- `fk_ingestion_target_generation`. -/
  target : ∀ j ∈ c.jobs,
    ∃ g ∈ c.generations, g.id = j.targetGenerationId ∧ g.documentId = j.documentId
  ready : ∀ g ∈ c.generations, g.state = .ready →
    ∃ d ∈ c.documents, d.id = g.documentId ∧ d.activeGenerationId = g.id
  served : ∀ d ∈ c.documents, d.state = .ready → Served c d
  one : ∀ j ∈ c.jobs, ∀ j' ∈ c.jobs, isLive j → isLive j' →
    j.targetGenerationId = j'.targetGenerationId → j = j'
  idle : ∀ d ∈ c.documents, d.state = .ready →
    ∀ j ∈ c.jobs, j.targetGenerationId = d.activeGenerationId → ¬ isLive j
  unfinished : ∀ j ∈ c.jobs, j.reprocessingOperationId ≠ none → j.status ≠ .completed →
    ∀ d ∈ c.documents, d.activeGenerationId ≠ j.targetGenerationId

theorem versionInv_empty : VersionInv ⟨[], [], [], []⟩ where
  documents := Keyed.nil _
  generations := Keyed.nil _
  jobs := Keyed.nil _
  active := by simp
  chunk := by simp
  target := by simp
  ready := by simp
  served := by simp
  one := by simp
  idle := by simp
  unfinished := by simp

variable {c : Content}

variable {d : Document}

/-- Two documents with one active generation are one document. -/
theorem VersionInv.document_eq (h : VersionInv c) {d' : Document} (hd : d ∈ c.documents)
    (hd' : d' ∈ c.documents) (heq : d.activeGenerationId = d'.activeGenerationId) : d = d' := by
  obtain ⟨g, hg, hid, hdoc⟩ := h.active d hd
  obtain ⟨g', hg', hid', hdoc'⟩ := h.active d' hd'
  have hgen : g = g' := h.generations.eq hg hg' (by rw [hid, hid', heq])
  refine h.documents.eq hd hd' ?_
  rw [← hdoc, ← hdoc', hgen]

/-- The chunks of a document's active generation carry the document's id. -/
theorem VersionInv.chunk_document (h : VersionInv c) (hd : d ∈ c.documents) {x : Chunk}
    (hx : x ∈ c.chunks) (heq : x.documentGenerationId = d.activeGenerationId) :
    x.documentId = d.id := by
  obtain ⟨g, hg, hid, hdoc⟩ := h.active d hd
  obtain ⟨g', hg', hid', hdoc'⟩ := h.chunk x hx
  have hgen : g = g' := h.generations.eq hg hg' (by rw [hid, hid', heq])
  rw [← hdoc, ← hdoc', hgen]

/-- So do the jobs that target it. -/
theorem VersionInv.job_document (h : VersionInv c) (hd : d ∈ c.documents) {j : IngestionJob}
    (hj : j ∈ c.jobs) (heq : j.targetGenerationId = d.activeGenerationId) :
    j.documentId = d.id := by
  obtain ⟨g, hg, hid, hdoc⟩ := h.active d hd
  obtain ⟨g', hg', hid', hdoc'⟩ := h.target j hj
  have hgen : g = g' := h.generations.eq hg hg' (by rw [hid, hid', heq])
  rw [← hdoc, ← hdoc', hgen]

/-- A served generation is the ready one of its document. -/
theorem VersionInv.served_ready (h : VersionInv c) (hd : d ∈ c.documents)
    (hready : d.state = .ready) {g : DocumentGeneration} (hg : g ∈ c.generations)
    (heq : g.id = d.activeGenerationId) : g.state = .ready := by
  obtain ⟨g', hg', hid', _, hstate, _⟩ := h.served d hd hready
  rw [h.generations.eq hg hg' (heq.trans hid'.symm)]
  exact hstate

/-! ## Writes of `ingestion_jobs` -/

/-- The row goes on as before: the same job, no livelier than it was. -/
structure JobKept (j j' : IngestionJob) : Prop where
  id : j'.id = j.id
  documentId : j'.documentId = j.documentId
  target : j'.targetGenerationId = j.targetGenerationId
  operation : j'.reprocessingOperationId = j.reprocessingOperationId
  live : isLive j' → isLive j
  completed : j.status = .completed → j'.status = .completed

theorem JobKept.refl (j : IngestionJob) : JobKept j j := ⟨rfl, rfl, rfl, rfl, fun h => h, fun h => h⟩

/-- Every row a worker's call writes goes on as before. -/
theorem RowStep.kept {db : Db} {j j' : IngestionJob} {call : JobCall}
    (h : RowStep db j call j') : JobKept j j' := by
  have hrunning : ∀ {jobId leaseToken fencingToken},
      holdsJobLease db.now jobId leaseToken fencingToken j = true → isLive j :=
    fun hheld => Or.inr (Or.inl (holdsJobLease_running hheld))
  refine ⟨h.id, ?_, ?_, ?_, ?_, h.completed⟩
  · cases h <;> rfl
  · cases h <;> rfl
  · cases h <;> rfl
  · intro hlive
    cases h with
    | same => exact hlive
    | claim _ _ _ _ hclaim =>
      simp only [isClaimableJob, decide_eq_true_eq] at hclaim
      rcases hclaim.1 with hq | hr
      · exact Or.inl hq.1
      · exact Or.inr (Or.inl hr.1)
    | heartbeat _ hheld => exact hrunning hheld
    | progress _ hheld => exact hrunning hheld
    | commit hheld => exact hrunning hheld
    | requeue _ hheld => exact hrunning hheld
    | poison _ hheld => exact hrunning hheld

/-- A table whose rows all go on as before. -/
theorem VersionInv.keepJobs (h : VersionInv c) {jobs : List IngestionJob}
    (hkeys : Keyed (·.id) jobs) (hkept : ∀ j' ∈ jobs, ∃ j ∈ c.jobs, JobKept j j') :
    VersionInv { c with jobs := jobs } where
  documents := h.documents
  generations := h.generations
  jobs := hkeys
  active := h.active
  chunk := h.chunk
  target := by
    intro j' hj'
    obtain ⟨j, hj, hk⟩ := hkept j' hj'
    rw [hk.target, hk.documentId]
    exact h.target j hj
  ready := h.ready
  served := h.served
  one := by
    intro a' ha' b' hb' hla hlb heq
    obtain ⟨a, ha, hka⟩ := hkept a' ha'
    obtain ⟨b, hb, hkb⟩ := hkept b' hb'
    rw [hka.target, hkb.target] at heq
    have hab := h.one a ha b hb (hka.live hla) (hkb.live hlb) heq
    refine hkeys.eq ha' hb' ?_
    show a'.id = b'.id
    rw [hka.id, hkb.id, hab]
  idle := by
    intro d hd hready j' hj' heq hlive
    obtain ⟨j, hj, hk⟩ := hkept j' hj'
    rw [hk.target] at heq
    exact h.idle d hd hready j hj heq (hk.live hlive)
  unfinished := by
    intro j' hj' hop hopen d hd
    obtain ⟨j, hj, hk⟩ := hkept j' hj'
    rw [hk.target]
    rw [hk.operation] at hop
    exact h.unfinished j hj hop (fun hdone => hopen (hk.completed hdone)) d hd

/-- A subset of the jobs. -/
theorem VersionInv.deleteJobs (h : VersionInv c) (p : IngestionJob → Bool) :
    VersionInv { c with jobs := deleteWhere p c.jobs } := by
  refine h.keepJobs (h.jobs.deleteWhere p) fun j hj => ?_
  exact ⟨j, (mem_deleteWhere.mp hj).1, JobKept.refl j⟩

/-- An update under which the rows go on as before. -/
theorem VersionInv.updateJobs (h : VersionInv c) {p : IngestionJob → Bool}
    {f : IngestionJob → IngestionJob} (hid : ∀ j, (f j).id = j.id)
    (hf : ∀ j ∈ c.jobs, p j = true → JobKept j (f j)) :
    VersionInv { c with jobs := updateWhere p f c.jobs } := by
  refine h.keepJobs (h.jobs.updateWhere hid) fun j' hj' => ?_
  obtain ⟨j, hj, rfl⟩ := mem_updateWhere.mp hj'
  refine ⟨j, hj, ?_⟩
  by_cases hp : p j = true
  · rw [if_pos hp]
    exact hf j hj hp
  · rw [if_neg hp]
    exact JobKept.refl j

/-- What a new job has to meet: no live job has its target, and no ready document
is served from it. -/
structure NewJobs (c : Content) (rows : List IngestionJob) : Prop where
  keyed : Keyed (·.id) rows
  fresh : ∀ j ∈ c.jobs, ∀ j' ∈ rows, j.id ≠ j'.id
  target : ∀ j ∈ rows,
    ∃ g ∈ c.generations, g.id = j.targetGenerationId ∧ g.documentId = j.documentId
  free : ∀ j ∈ rows, ∀ j' ∈ c.jobs, isLive j' → j'.targetGenerationId ≠ j.targetGenerationId
  apart : ∀ j ∈ rows, ∀ j' ∈ rows, j.targetGenerationId = j'.targetGenerationId → j = j'
  unserved : ∀ j ∈ rows, ∀ d ∈ c.documents, d.state = .ready →
    d.activeGenerationId ≠ j.targetGenerationId
  unfinished : ∀ j ∈ rows, j.reprocessingOperationId ≠ none →
    ∀ d ∈ c.documents, d.activeGenerationId ≠ j.targetGenerationId

theorem VersionInv.appendJobs (h : VersionInv c) {rows : List IngestionJob}
    (hnew : NewJobs c rows) : VersionInv { c with jobs := c.jobs ++ rows } where
  documents := h.documents
  generations := h.generations
  jobs := h.jobs.appendAll hnew.keyed hnew.fresh
  active := h.active
  chunk := h.chunk
  target := by
    intro j hj
    rcases List.mem_append.mp hj with hj | hj
    · exact h.target j hj
    · exact hnew.target j hj
  ready := h.ready
  served := h.served
  one := by
    intro a ha b hb hla hlb heq
    rcases List.mem_append.mp ha with ha | ha
    · rcases List.mem_append.mp hb with hb | hb
      · exact h.one a ha b hb hla hlb heq
      · exact absurd heq (hnew.free b hb a ha hla)
    · rcases List.mem_append.mp hb with hb | hb
      · exact absurd heq.symm (hnew.free a ha b hb hlb)
      · exact hnew.apart a ha b hb heq
  idle := by
    intro d hd hready j hj heq
    rcases List.mem_append.mp hj with hj | hj
    · exact h.idle d hd hready j hj heq
    · exact absurd heq.symm (hnew.unserved j hj d hd hready)
  unfinished := by
    intro j hj hop hopen d hd
    rcases List.mem_append.mp hj with hj | hj
    · exact h.unfinished j hj hop hopen d hd
    · exact hnew.unfinished j hj hop d hd

/-! ## Writes of `documents` -/

/-- An update that leaves the active generation and takes the row out of `ready`. -/
theorem VersionInv.updateDocuments (h : VersionInv c) {p : Document → Bool}
    {f : Document → Document} (hid : ∀ d, (f d).id = d.id)
    (hactive : ∀ d, (f d).activeGenerationId = d.activeGenerationId)
    (hstate : ∀ d, (f d).state ≠ .ready) :
    VersionInv { c with documents := updateWhere p f c.documents } := by
  -- every row after the update is an old one, or one that is not ready
  have hrow : ∀ d' ∈ updateWhere p f c.documents, ∃ d ∈ c.documents, d'.id = d.id ∧
      d'.activeGenerationId = d.activeGenerationId ∧ (d'.state = .ready → d' = d) := by
    intro d' hd'
    obtain ⟨d, hd, rfl⟩ := mem_updateWhere.mp hd'
    refine ⟨d, hd, ?_⟩
    by_cases hp : p d = true
    · rw [if_pos hp]
      exact ⟨hid d, hactive d, fun hr => absurd hr (hstate d)⟩
    · rw [if_neg hp]
      exact ⟨rfl, rfl, fun _ => rfl⟩
  refine ⟨h.documents.updateWhere hid, h.generations, h.jobs, ?_, h.chunk, h.target, ?_, ?_,
    h.one, ?_, ?_⟩
  · intro d' hd'
    obtain ⟨d, hd, hid', hact, _⟩ := hrow d' hd'
    rw [hid', hact]
    exact h.active d hd
  · intro g hg hready
    obtain ⟨d, hd, hdoc, hact⟩ := h.ready g hg hready
    refine ⟨if p d then f d else d, mem_updateWhere.mpr ⟨d, hd, rfl⟩, ?_, ?_⟩
    · split
      · rw [hid, hdoc]
      · exact hdoc
    · split
      · rw [hactive, hact]
      · exact hact
  · intro d' hd' hready
    obtain ⟨d, hd, _, _, heq⟩ := hrow d' hd'
    obtain rfl := heq hready
    exact h.served d' hd hready
  · intro d' hd' hready
    obtain ⟨d, hd, _, _, heq⟩ := hrow d' hd'
    obtain rfl := heq hready
    exact h.idle d' hd hready
  · intro j hj hop hopen d' hd'
    obtain ⟨d, hd, _, hact, _⟩ := hrow d' hd'
    rw [hact]
    exact h.unfinished j hj hop hopen d hd

/-- A new document that is not ready, with its generation already there. -/
theorem VersionInv.appendDocument (h : VersionInv c) (hfresh : ∀ x ∈ c.documents, x.id ≠ d.id)
    (hgen : ∃ g ∈ c.generations, g.id = d.activeGenerationId ∧ g.documentId = d.id)
    (hstate : d.state ≠ .ready)
    (hjobs : ∀ j ∈ c.jobs, j.targetGenerationId ≠ d.activeGenerationId) :
    VersionInv { c with documents := c.documents ++ [d] } where
  documents := h.documents.append hfresh
  generations := h.generations
  jobs := h.jobs
  active := by
    intro x hx
    rcases List.mem_append.mp hx with hx | hx
    · exact h.active x hx
    · rw [List.mem_singleton.mp hx]
      exact hgen
  chunk := h.chunk
  target := h.target
  ready := by
    intro g hg hready
    obtain ⟨x, hx, hrow⟩ := h.ready g hg hready
    exact ⟨x, List.mem_append_left _ hx, hrow⟩
  served := by
    intro x hx hready
    rcases List.mem_append.mp hx with hx | hx
    · exact h.served x hx hready
    · rw [List.mem_singleton.mp hx] at hready
      exact absurd hready hstate
  one := h.one
  idle := by
    intro x hx hready
    rcases List.mem_append.mp hx with hx | hx
    · exact h.idle x hx hready
    · rw [List.mem_singleton.mp hx] at hready
      exact absurd hready hstate
  unfinished := by
    intro j hj hop hopen x hx
    rcases List.mem_append.mp hx with hx | hx
    · exact h.unfinished j hj hop hopen x hx
    · rw [List.mem_singleton.mp hx]
      exact (hjobs j hj).symm

/-! ## Writes of `document_generations` and `chunks` -/

/-- An update of generations that are not served, which makes none ready. -/
theorem VersionInv.updateGenerations (h : VersionInv c) {p : DocumentGeneration → Bool}
    {f : DocumentGeneration → DocumentGeneration} (hid : ∀ g, (f g).id = g.id)
    (hdoc : ∀ g, (f g).documentId = g.documentId) (hstate : ∀ g, (f g).state ≠ .ready)
    (hunserved : ∀ g ∈ c.generations, p g = true → ∀ d ∈ c.documents, d.state = .ready →
      d.activeGenerationId ≠ g.id) :
    VersionInv { c with generations := updateWhere p f c.generations } := by
  have hkept : ∀ {i : GenerationId} {d : DocumentId},
      (∃ g ∈ c.generations, g.id = i ∧ g.documentId = d) →
      ∃ g ∈ updateWhere p f c.generations, g.id = i ∧ g.documentId = d := by
    rintro i d ⟨g, hg, hi, hd⟩
    refine ⟨if p g then f g else g, mem_updateWhere.mpr ⟨g, hg, rfl⟩, ?_, ?_⟩
    · split
      · rw [hid, hi]
      · exact hi
    · split
      · rw [hdoc, hd]
      · exact hd
  refine ⟨h.documents, h.generations.updateWhere hid, h.jobs, fun d hd => hkept (h.active d hd),
    fun x hx => hkept (h.chunk x hx), fun j hj => hkept (h.target j hj), ?_, ?_, h.one, h.idle,
    h.unfinished⟩
  · intro g' hg' hready
    obtain ⟨g, hg, rfl⟩ := mem_updateWhere.mp hg'
    by_cases hp : p g = true
    · rw [if_pos hp] at hready
      exact absurd hready (hstate g)
    · rw [if_neg hp] at hready ⊢
      exact h.ready g hg hready
  · intro d hd hready
    obtain ⟨g, hg, hgid, hrest⟩ := h.served d hd hready
    have hp : ¬ p g = true := fun hp => hunserved g hg hp d hd hready hgid.symm
    exact ⟨g, mem_updateWhere.mpr ⟨g, hg, by rw [if_neg hp]⟩, hgid, hrest⟩

/-- New generations that are being built. -/
theorem VersionInv.appendGenerations (h : VersionInv c) {rows : List DocumentGeneration}
    (hkeys : Keyed (·.id) rows) (hfresh : ∀ g ∈ c.generations, ∀ g' ∈ rows, g.id ≠ g'.id)
    (hstate : ∀ g ∈ rows, g.state ≠ .ready) :
    VersionInv { c with generations := c.generations ++ rows } := by
  have hkept : ∀ {i : GenerationId} {d : DocumentId},
      (∃ g ∈ c.generations, g.id = i ∧ g.documentId = d) →
      ∃ g ∈ c.generations ++ rows, g.id = i ∧ g.documentId = d := by
    rintro i d ⟨g, hg, hrow⟩
    exact ⟨g, List.mem_append_left _ hg, hrow⟩
  refine ⟨h.documents, h.generations.appendAll hkeys hfresh, h.jobs,
    fun d hd => hkept (h.active d hd), fun x hx => hkept (h.chunk x hx),
    fun j hj => hkept (h.target j hj), ?_, ?_, h.one, h.idle, h.unfinished⟩
  · intro g hg hready
    rcases List.mem_append.mp hg with hg | hg
    · exact h.ready g hg hready
    · exact absurd hready (hstate g hg)
  · intro d hd hready
    obtain ⟨g, hg, hrest⟩ := h.served d hd hready
    exact ⟨g, List.mem_append_left _ hg, hrest⟩

/-- Deleting chunks leaves the active chunks of a document it does not touch. -/
theorem activeChunks_deleteWhere {p : Chunk → Bool}
    (hp : ∀ x ∈ c.chunks, x.documentGenerationId = d.activeGenerationId → p x = false) :
    activeChunks { c with chunks := deleteWhere p c.chunks } d = activeChunks c d := by
  show (deleteWhere p c.chunks).filter _ = c.chunks.filter _
  rw [deleteWhere, List.filter_filter]
  refine List.filter_congr fun x hx => ?_
  by_cases hgen : x.documentGenerationId = d.activeGenerationId
  · simp [hgen, hp x hx hgen]
  · simp [hgen]

/-- Chunks of generations that are not served go. -/
theorem VersionInv.deleteChunks (h : VersionInv c) {p : Chunk → Bool}
    (hunserved : ∀ x ∈ c.chunks, p x = true → ∀ d ∈ c.documents, d.state = .ready →
      x.documentGenerationId ≠ d.activeGenerationId) :
    VersionInv { c with chunks := deleteWhere p c.chunks } := by
  refine ⟨h.documents, h.generations, h.jobs, h.active, ?_, h.target, h.ready, ?_, h.one, h.idle,
    h.unfinished⟩
  · intro x hx
    exact h.chunk x (mem_deleteWhere.mp hx).1
  · intro d hd hready
    obtain ⟨g, hg, hid, hdoc, hstate, hparser, hchunking, hcount, hords⟩ := h.served d hd hready
    refine ⟨g, hg, hid, hdoc, hstate, hparser, hchunking, hcount, ?_⟩
    rw [activeChunks_deleteWhere]
    · exact hords
    · intro x hx hgen
      by_contra hp
      exact hunserved x hx (by simpa using hp) d hd hready hgen

/-- A generation that no row refers to goes. -/
theorem VersionInv.deleteGeneration (h : VersionInv c) {generationId : GenerationId}
    (hactive : ∀ d ∈ c.documents, d.activeGenerationId ≠ generationId)
    (hchunks : ∀ x ∈ c.chunks, x.documentGenerationId ≠ generationId)
    (hjobs : ∀ j ∈ c.jobs, j.targetGenerationId ≠ generationId) :
    VersionInv { c with
      generations := deleteWhere (fun g => g.id = generationId) c.generations } := by
  have hkept : ∀ {i : GenerationId} {d : DocumentId}, i ≠ generationId →
      (∃ g ∈ c.generations, g.id = i ∧ g.documentId = d) →
      ∃ g ∈ deleteWhere (fun g => g.id = generationId) c.generations,
        g.id = i ∧ g.documentId = d := by
    rintro i d hne ⟨g, hg, hi, hd⟩
    exact ⟨g, mem_deleteWhere.mpr ⟨hg, by simpa [hi] using hne⟩, hi, hd⟩
  refine ⟨h.documents, h.generations.deleteWhere _, h.jobs,
    fun d hd => hkept (hactive d hd) (h.active d hd),
    fun x hx => hkept (hchunks x hx) (h.chunk x hx),
    fun j hj => hkept (hjobs j hj) (h.target j hj), ?_, ?_, h.one, h.idle, h.unfinished⟩
  · intro g hg hready
    exact h.ready g (mem_deleteWhere.mp hg).1 hready
  · intro d hd hready
    obtain ⟨g, hg, hid, hrest⟩ := h.served d hd hready
    refine ⟨g, mem_deleteWhere.mpr ⟨hg, ?_⟩, hid, hrest⟩
    simpa [hid] using hactive d hd

/-! ## The writes of the calls -/

variable {db : Db}

/-- An upload adds a generation, its document and its job. -/
theorem VersionInv.create (h : VersionInv db.content) {ids : CommitIds} {request : UploadRequest}
    {content : Content} (hins : insertDocument db ids request = .ok content) :
    VersionInv content := by
  obtain ⟨rfl, hdoc, _, _, hgen, hjob⟩ := insertDocument_ok hins
  have hfresh : ∀ j ∈ db.content.jobs, j.targetGenerationId ≠ ids.generationId := by
    intro j hj heq
    obtain ⟨g, hg, hid, _⟩ := h.target j hj
    exact hgen g hg (hid.trans heq)
  have hunused : ∀ d ∈ db.content.documents, d.activeGenerationId ≠ ids.generationId := by
    intro d hd heq
    obtain ⟨g, hg, hid, _⟩ := h.active d hd
    exact hgen g hg (hid.trans heq)
  have h₁ := @VersionInv.appendGenerations _ h [uploadedGeneration ids request]
    (by simp [Keyed]) (by simpa [uploadedGeneration] using hgen) (by simp [uploadedGeneration])
  have hrow : ∃ g ∈ db.content.generations ++ [uploadedGeneration ids request],
      g.id = ids.generationId ∧ g.documentId = ids.documentId :=
    ⟨uploadedGeneration ids request, by simp, rfl, rfl⟩
  have h₂ := h₁.appendDocument (d := uploadedDocument ids request) (by exact hdoc) hrow
    (by simp [uploadedDocument]) (by exact hfresh)
  refine @VersionInv.appendJobs _ h₂ [uploadedJob db.now ids]
    ⟨by simp [Keyed], by simpa [uploadedJob] using hjob, ?_, ?_, by simp, ?_,
      by simp [uploadedJob]⟩
  · intro j hj
    rw [List.mem_singleton.mp hj]
    exact hrow
  · intro j hj j' hj' _
    rw [List.mem_singleton.mp hj]
    exact hfresh j' hj'
  · intro j hj d hd hready
    rw [List.mem_singleton.mp hj]
    rcases List.mem_append.mp hd with hd | hd
    · exact hunused d hd
    · rw [List.mem_singleton.mp hd] at hready
      cases hready

/-- A deletion takes everything of one document. -/
theorem VersionInv.delete (h : VersionInv c) (i : DocumentId) :
    VersionInv (deletedContent c i) := by
  have hkept : ∀ {k : GenerationId} {d : DocumentId}, d ≠ i →
      (∃ g ∈ c.generations, g.id = k ∧ g.documentId = d) →
      ∃ g ∈ (deletedContent c i).generations, g.id = k ∧ g.documentId = d := by
    rintro k d hne ⟨g, hg, hk, hd⟩
    exact ⟨g, mem_deleteWhere.mpr ⟨hg, by simpa [hd] using hne⟩, hk, hd⟩
  have hdocs : ∀ {d : Document}, d ∈ (deletedContent c i).documents →
      d ∈ c.documents ∧ d.id ≠ i := by
    intro d hd
    simpa [deletedContent] using hd
  have hjobs : ∀ {j : IngestionJob}, j ∈ (deletedContent c i).jobs → j ∈ c.jobs ∧ j.documentId ≠ i := by
    intro j hj
    simpa [deletedContent] using hj
  refine ⟨h.documents.deleteWhere _, h.generations.deleteWhere _, h.jobs.deleteWhere _, ?_, ?_, ?_,
    ?_, ?_, ?_, ?_, ?_⟩
  · intro d hd
    exact hkept (hdocs hd).2 (h.active d (hdocs hd).1)
  · intro x hx
    obtain ⟨hx, hne⟩ : x ∈ c.chunks ∧ x.documentId ≠ i := by simpa [deletedContent] using hx
    exact hkept hne (h.chunk x hx)
  · intro j hj
    exact hkept (hjobs hj).2 (h.target j (hjobs hj).1)
  · intro g hg hready
    obtain ⟨hg, hne⟩ : g ∈ c.generations ∧ g.documentId ≠ i := by simpa [deletedContent] using hg
    obtain ⟨d, hd, hid, hact⟩ := h.ready g hg hready
    exact ⟨d, mem_deleteWhere.mpr ⟨hd, by simpa [hid] using hne⟩, hid, hact⟩
  · intro d hd hready
    obtain ⟨hd, hne⟩ := hdocs hd
    obtain ⟨g, hg, hgid, hdoc, hstate, hparser, hchunking, hcount, hords⟩ := h.served d hd hready
    refine ⟨g, mem_deleteWhere.mpr ⟨hg, by simpa [hdoc] using hne⟩, hgid, hdoc, hstate, hparser,
      hchunking, hcount, ?_⟩
    rw [← hords]
    refine congrArg (List.map (·.ordinal)) (activeChunks_deleteWhere fun x hx hgen => ?_)
    rw [h.chunk_document hd hx hgen]
    simpa using hne
  · intro a ha b hb
    exact h.one a (hjobs ha).1 b (hjobs hb).1
  · intro d hd hready j hj
    exact h.idle d (hdocs hd).1 hready j (hjobs hj).1
  · intro j hj hop hopen d hd
    exact h.unfinished j (hjobs hj).1 hop hopen d (hdocs hd).1

theorem VersionInv.progress (h : VersionInv db.content) {job : IngestionJob}
    (hmem : job ∈ db.content.jobs) {l : JobLease} (hheld : l.holds db.now job = true)
    {stage : DocumentState} (hstage : stage ≠ .ready) (completed total : Nat) :
    VersionInv (progressedDb db job stage completed total).content := by
  have h₁ := h.updateDocuments (p := fun d => d.id = job.documentId ∧
      d.activeGenerationId = job.targetGenerationId ∧ d.state ≠ .ready)
    (f := fun d => { d with state := stage, error := none }) (fun _ => rfl) (fun _ => rfl)
    fun _ => hstage
  refine h₁.updateJobs (fun _ => rfl) fun j hj hid => ?_
  obtain rfl : j = job := h.jobs.eq hj hmem (by simpa using hid)
  exact (RowStep.progress (l := l) ⟨stage, completed, total⟩ hheld).kept

theorem VersionInv.poison (h : VersionInv db.content) {job : IngestionJob}
    (hmem : job ∈ db.content.jobs) {l : JobLease} (hheld : l.holds db.now job = true)
    (error : String) : VersionInv (poisonedDb db job error).content := by
  have hlive : isLive job := Or.inr (Or.inl (holdsJobLease_running hheld))
  -- a live job never targets what is being served
  have h₁ := h.updateGenerations (p := fun g => g.id = job.targetGenerationId)
    (f := fun g => { g with state := .failed, error := some (clippedError error) })
    (fun _ => rfl) (fun _ => rfl) (fun _ => by simp) (by
      intro g _ hg d hd hready heq
      have hg : g.id = job.targetGenerationId := by simpa using hg
      exact h.idle d hd hready job hmem (hg.symm.trans heq.symm) hlive)
  have h₂ := h₁.updateDocuments (p := fun d => d.id = job.documentId ∧
      d.activeGenerationId = job.targetGenerationId ∧ d.state ≠ .ready)
    (f := fun d => { d with state := .failed, error := some (clippedError error) }) (fun _ => rfl)
    (fun _ => rfl) fun _ => by simp
  refine h₂.updateJobs (fun _ => rfl) fun j hj hid => ?_
  obtain rfl : j = job := h.jobs.eq hj hmem (by simpa using hid)
  exact (RowStep.poison (l := l) error hheld).kept

/-- A document that is queued again leaves `ready`; its chunks go and its new job is
the only live one for the active generation. -/
theorem VersionInv.requeue (h : VersionInv db.content) {document : Document} {jobId : JobId}
    (hmem : document ∈ db.content.documents) (hidle : hasActiveJob db document.id = false)
    (hfresh : ∀ j ∈ db.content.jobs, j.id ≠ jobId) :
    VersionInv (requeuedDb db document jobId).content := by
  have h₁ := h.updateDocuments (p := fun d => d.id = document.id)
    (f := fun d => { d with state := .uploaded, error := none, pageCount := none, chunkCount := 0 })
    (fun _ => rfl) (fun _ => rfl) fun _ => by simp
  -- a row that is ready afterwards is another document's
  have hother : ∀ d ∈ updateWhere (fun d => d.id = document.id)
      (fun d => { d with state := .uploaded, error := none, pageCount := none, chunkCount := 0 })
      db.content.documents, d.state = .ready → d ∈ db.content.documents ∧ d.id ≠ document.id := by
    intro d hd hready
    obtain ⟨d₀, hd₀, rfl⟩ := mem_updateWhere.mp hd
    by_cases hp : d₀.id = document.id
    · simp [hp] at hready
    · simp only [hp, decide_false]
      exact ⟨hd₀, hp⟩
  have h₂ := h₁.deleteChunks (p := fun x => x.documentId = document.id) (by
    intro x hx hp d hd hready hgen
    obtain ⟨hd, hne⟩ := hother d hd hready
    exact hne ((h.chunk_document hd hx hgen).symm.trans (by simpa using hp)))
  refine @VersionInv.appendJobs _ h₂
    [queuedJob db.now jobId document.id document.activeGenerationId none]
    ⟨by simp [Keyed], by simpa [queuedJob] using hfresh, ?_, ?_, by simp, ?_, by simp [queuedJob]⟩
  · intro j hj
    rw [List.mem_singleton.mp hj]
    exact h.active document hmem
  · intro j hj j' hj' hlive heq
    rw [List.mem_singleton.mp hj] at heq
    have hj' : j' ∈ db.content.jobs := hj'
    have heq : j'.targetGenerationId = document.activeGenerationId := heq
    have hdoc := h.job_document hmem hj' heq
    have hnone : ¬ (j'.status = .queued ∨ j'.status = .running) := by
      intro hactive
      simp only [hasActiveJob, List.any_eq_false, decide_eq_true_eq] at hidle
      exact hidle j' hj' ⟨hdoc, hactive⟩
    rcases hlive with hq | hr | ⟨hop, hopen⟩
    · exact hnone (Or.inl hq)
    · exact hnone (Or.inr hr)
    · exact h.unfinished j' hj' hop hopen document hmem heq.symm
  · intro j hj d hd hready heq
    rw [List.mem_singleton.mp hj] at heq
    obtain ⟨hd, hne⟩ := hother d hd hready
    exact hne (congrArg (·.id) (h.document_eq hd hmem heq))

/-- A reingestion adds a generation and a job for each document it selects. -/
theorem VersionInv.start (h : VersionInv db.content) {ids : StartIds} {impact : ReprocessingImpact}
    (hgens : ∀ g ∈ db.content.generations,
      ∀ g' ∈ (reingestTargets db impact).mapIdx (reingestGeneration ids impact), g.id ≠ g'.id)
    (hjobs : ∀ j ∈ db.content.jobs,
      ∀ j' ∈ (reingestTargets db impact).mapIdx (reingestJob db.now ids), j.id ≠ j'.id) :
    VersionInv (startedContent db ids impact) := by
  have hidx : ∀ {ρ : Type} (f : Nat → Document → ρ) {x : ρ},
      x ∈ (reingestTargets db impact).mapIdx f ↔
        ∃ (i : Nat) (hi : i < (reingestTargets db impact).length),
          f i (reingestTargets db impact)[i] = x := by
    intro ρ f x
    exact List.mem_mapIdx
  -- the new generations' ids are new, so no job targets them and no document has them
  have hfresh : ∀ {i : Nat} (hi : i < (reingestTargets db impact).length),
      ∀ g ∈ db.content.generations, g.id ≠ ids.generationId + i := by
    intro i hi g hg
    exact hgens g hg _ ((hidx _).mpr ⟨i, hi, rfl⟩)
  have h₁ := h.appendGenerations
    (keyed_mapIdx ids.generationId fun _ _ => rfl) hgens (by
      intro g hg
      obtain ⟨i, hi, rfl⟩ := (hidx _).mp hg
      simp [reingestGeneration])
  have hunserved : ∀ {i : Nat} (hi : i < (reingestTargets db impact).length),
      ∀ d ∈ db.content.documents, d.activeGenerationId ≠ ids.generationId + i := by
    intro i hi d hd heq
    obtain ⟨g, hg, hid, _⟩ := h.active d hd
    exact hfresh hi g hg (hid.trans heq)
  refine h₁.appendJobs ⟨keyed_mapIdx ids.jobId fun _ _ => rfl, hjobs,
    ?_, ?_, ?_, ?_, ?_⟩
  · intro j hj
    obtain ⟨i, hi, rfl⟩ := (hidx _).mp hj
    refine ⟨reingestGeneration ids impact i (reingestTargets db impact)[i],
      List.mem_append_right _ ((hidx _).mpr ⟨i, hi, rfl⟩), rfl, rfl⟩
  · intro j hj j' hj' _ heq
    obtain ⟨i, hi, rfl⟩ := (hidx _).mp hj
    obtain ⟨g, hg, hid, _⟩ := h.target j' hj'
    exact hfresh hi g hg (hid.trans heq)
  · intro a ha b hb heq
    obtain ⟨i, hi, rfl⟩ := (hidx _).mp ha
    obtain ⟨k, hk, rfl⟩ := (hidx _).mp hb
    obtain rfl : i = k := Nat.add_left_cancel heq
    rfl
  · intro j hj d hd _
    obtain ⟨i, hi, rfl⟩ := (hidx _).mp hj
    exact hunserved hi d hd
  · intro j hj _ d hd
    obtain ⟨i, hi, rfl⟩ := (hidx _).mp hj
    exact hunserved hi d hd

theorem VersionInv.cancel (h : VersionInv db.content) (operationId : OperationId) :
    VersionInv (cancelledDb db operationId).content := by
  have h₁ := h.updateGenerations (p := fun g => g.operationId = some operationId ∧
      (g.state = .building ∨ g.state = .failed))
    (f := fun g => { g with state := .abandoned, retiredAt := some db.now }) (fun _ => rfl)
    (fun _ => rfl) (fun _ => by simp) (by
      intro g hg hp d hd hready heq
      have hstate := h.served_ready hd hready hg heq.symm
      simp only [decide_eq_true_eq] at hp
      rw [hstate] at hp
      exact absurd hp.2 (by simp))
  exact h₁.deleteJobs _

theorem VersionInv.retry (h : VersionInv db.content) (operation : ReprocessingOperation) :
    VersionInv (retriedWork db operation).content := by
  unfold retriedWork
  split
  · exact h
  · have h₁ := h.updateGenerations (p := fun g => g.operationId = some operation.id ∧
        g.state = .failed)
      (f := fun g => { g with state := .building, error := none, retiredAt := none })
      (fun _ => rfl) (fun _ => rfl) (fun _ => by simp) (by
        intro g hg hp d hd hready heq
        have hstate := h.served_ready hd hready hg heq.symm
        simp only [decide_eq_true_eq] at hp
        rw [hstate] at hp
        exact absurd hp.2 (by simp))
    refine h₁.updateJobs (fun _ => rfl) fun j _ hp => ?_
    -- a failed job of an operation was live already
    simp only [decide_eq_true_eq] at hp
    refine ⟨rfl, rfl, rfl, rfl, fun _ => ?_, fun hdone => ?_⟩
    · refine Or.inr (Or.inr ⟨?_, ?_⟩)
      · rw [hp.1]
        simp
      · rw [hp.2]
        simp
    · rw [hp.2] at hdone
      cases hdone

theorem VersionInv.cleanup (h : VersionInv db.content) {generationId : GenerationId}
    (hinactive : ∀ d ∈ db.content.documents, d.activeGenerationId ≠ generationId) :
    VersionInv (deleteGenerationRows db generationId).content := by
  have h₁ := h.deleteChunks (p := fun x => x.documentGenerationId = generationId) (by
    intro x _ hp d hd _ hgen
    exact hinactive d hd (hgen.symm.trans (by simpa using hp)))
  have h₂ := h₁.deleteJobs fun j => j.targetGenerationId = generationId
  refine h₂.deleteGeneration hinactive ?_ ?_
  · intro x hx
    simpa using (mem_deleteWhere.mp hx).2
  · intro j hj
    simpa using (mem_deleteWhere.mp hj).2

/-! ## The commit -/

/-- What the commit makes of one generation row. -/
def committedGeneration (now : Time) (previous generationId : GenerationId)
    (pageCount chunkCount : Nat) (g : DocumentGeneration) : DocumentGeneration :=
  if g.id = generationId then
    readyGeneration now pageCount chunkCount g
  else if g.id = previous ∧ g.state = .ready then
    { g with state := .retained, retiredAt := some now }
  else g

theorem readyGenerations_eq (now : Time) (previous generationId : GenerationId)
    (pageCount chunkCount : Nat) (generations : List DocumentGeneration) :
    readyGenerations now previous generationId pageCount chunkCount generations =
      generations.map (committedGeneration now previous generationId pageCount chunkCount) := by
  unfold readyGenerations updateWhere
  rw [List.map_map]
  refine List.map_congr_left fun g _ => ?_
  simp only [Function.comp, committedGeneration, decide_eq_true_eq]
  by_cases hid : g.id = generationId
  · -- the target itself is never the retained one
    have hnot : ¬ (previous ≠ generationId ∧ g.id = previous ∧ g.state = .ready) := by
      intro hp
      exact hp.1 (hp.2.1.symm.trans hid)
    simp only [if_neg hnot]
    rw [if_pos hid, if_pos hid]
  · by_cases hprev : g.id = previous ∧ g.state = .ready
    · have hp : previous ≠ generationId ∧ g.id = previous ∧ g.state = .ready :=
        ⟨fun he => hid (hprev.1.trans he), hprev⟩
      rw [if_pos hp]
      simp only [hid, if_false]
      rw [if_pos hprev]
    · have hnot : ¬ (previous ≠ generationId ∧ g.id = previous ∧ g.state = .ready) :=
        fun hp => hprev hp.2
      rw [if_neg hnot]
      simp only [hid, if_false]
      rw [if_neg hprev]

theorem committedGeneration_id (now : Time) (previous generationId : GenerationId)
    (pageCount chunkCount : Nat) (g : DocumentGeneration) :
    (committedGeneration now previous generationId pageCount chunkCount g).id = g.id ∧
      (committedGeneration now previous generationId pageCount chunkCount g).documentId =
        g.documentId := by
  unfold committedGeneration
  split
  · exact ⟨rfl, rfl⟩
  · split <;> exact ⟨rfl, rfl⟩

/-- The four tables after a payload of `n` chunk rows was stored for the generation. -/
def committedContent (c : Content) (now : Time) (document : Document) (target : IngestTarget)
    (pageCount : Nat) (rows : List Chunk) : Content :=
  { c with
    generations := readyGenerations now document.activeGenerationId target.generation.id pageCount
      rows.length c.generations
    documents := updateWhere (fun d => d.id = document.id)
      (readyDocument target pageCount rows.length) c.documents
    chunks := deleteWhere (fun x => x.documentGenerationId = target.generation.id) c.chunks ++ rows }

/-- Storing the payload of a generation that no live job targets any more serves the
document from it. -/
theorem VersionInv.serve (h : VersionInv c) (now : Time) {document : Document}
    (hdoc : document ∈ c.documents) {target : IngestTarget}
    (hmem : target.generation ∈ c.generations)
    (hgen : target.generation.documentId = document.id)
    (hidle : ∀ j ∈ c.jobs, j.targetGenerationId = target.generation.id → ¬ isLive j)
    (pageCount : Nat) {rows : List Chunk}
    (hrows : ∀ x ∈ rows, x.documentId = document.id ∧
      x.documentGenerationId = target.generation.id)
    (hords : rows.map (·.ordinal) = List.range rows.length) :
    VersionInv (committedContent c now document target pageCount rows) := by
  have hgens : (committedContent c now document target pageCount rows).generations =
      c.generations.map (committedGeneration now document.activeGenerationId target.generation.id
        pageCount rows.length) := readyGenerations_eq ..
  have hkept : ∀ {i : GenerationId} {d : DocumentId},
      (∃ g ∈ c.generations, g.id = i ∧ g.documentId = d) →
      ∃ g ∈ (committedContent c now document target pageCount rows).generations,
        g.id = i ∧ g.documentId = d := by
    rintro i d ⟨g, hg, hi, hd⟩
    rw [hgens]
    refine ⟨_, List.mem_map_of_mem hg, ?_, ?_⟩
    · rw [(committedGeneration_id ..).1, hi]
    · rw [(committedGeneration_id ..).2, hd]
  -- a row is the document's new one, or another document's old one
  have hrow : ∀ d' ∈ (committedContent c now document target pageCount rows).documents,
      d' = readyDocument target pageCount rows.length document ∨
        (d' ∈ c.documents ∧ d'.id ≠ document.id) :=
    fun d' hd' => Keyed.mem_rewritten h.documents hdoc hd'
  have hnew : readyDocument target pageCount rows.length document ∈
      (committedContent c now document target pageCount rows).documents :=
    mem_updateWhere.mpr ⟨document, hdoc, by simp⟩
  have hold : ∀ d ∈ c.documents, d.id ≠ document.id →
      d ∈ (committedContent c now document target pageCount rows).documents :=
    fun d hd hne => mem_updateWhere.mpr ⟨d, hd, by simp [hne]⟩
  -- other documents are served from other generations
  have hapart : ∀ d ∈ c.documents, d.id ≠ document.id →
      d.activeGenerationId ≠ target.generation.id := by
    intro d hd hne heq
    obtain ⟨g, hg, hid, hgdoc⟩ := h.active d hd
    have hsame := h.generations.eq hg hmem (hid.trans heq)
    exact hne (hgdoc.symm.trans (hsame ▸ hgen))
  refine ⟨h.documents.updateWhere fun _ => rfl, ?_, h.jobs, ?_, ?_, fun j hj => hkept (h.target j hj),
    ?_, ?_, h.one, ?_, ?_⟩
  · unfold Keyed
    rw [hgens, List.map_map]
    refine (List.map_congr_left fun g _ => (committedGeneration_id ..).1).symm ▸ h.generations
  · intro d' hd'
    rcases hrow d' hd' with rfl | ⟨hd, _⟩
    · exact hkept ⟨target.generation, hmem, rfl, hgen⟩
    · exact hkept (h.active d' hd)
  · intro x hx
    rcases List.mem_append.mp hx with hx | hx
    · exact hkept (h.chunk x (mem_deleteWhere.mp hx).1)
    · rw [(hrows x hx).1, (hrows x hx).2]
      exact hkept ⟨target.generation, hmem, rfl, hgen⟩
  · -- a generation that is ready afterwards is the new one, or was ready and is not
    -- the document's previous one
    intro g' hg' hready
    rw [hgens] at hg'
    obtain ⟨g, hg, rfl⟩ := List.mem_map.mp hg'
    rw [(committedGeneration_id ..).1, (committedGeneration_id ..).2]
    by_cases hid : g.id = target.generation.id
    · have hsame := h.generations.eq hg hmem hid
      refine ⟨_, hnew, ?_, ?_⟩
      · rw [hsame]
        exact hgen.symm
      · exact hid.symm
    · unfold committedGeneration at hready
      rw [if_neg hid] at hready
      split at hready
      · cases hready
      next hprev =>
        obtain ⟨d, hd, hdid, hact⟩ := h.ready g hg hready
        refine ⟨d, hold d hd fun heq => ?_, hdid, hact⟩
        rw [h.documents.eq hd hdoc heq] at hact
        exact hprev ⟨hact.symm, hready⟩
  · intro d' hd' hready
    rcases hrow d' hd' with rfl | ⟨hd, hne⟩
    · refine ⟨committedGeneration now document.activeGenerationId target.generation.id pageCount
        rows.length target.generation, ?_, ?_⟩
      · rw [hgens]
        exact List.mem_map_of_mem hmem
      · rw [committedGeneration, if_pos rfl]
        refine ⟨rfl, hgen, rfl, rfl, rfl, rfl, ?_⟩
        show ((deleteWhere _ c.chunks ++ rows).filter _).map _ = List.range rows.length
        rw [List.filter_append, ← hords]
        have hgone : (deleteWhere (fun x => x.documentGenerationId = target.generation.id)
            c.chunks).filter (fun x => x.documentGenerationId = target.generation.id) = [] := by
          rw [List.filter_eq_nil_iff]
          intro x hx
          simpa using (mem_deleteWhere.mp hx).2
        have hall : rows.filter (fun x => x.documentGenerationId = target.generation.id) = rows := by
          rw [List.filter_eq_self]
          intro x hx
          simpa using (hrows x hx).2
        exact congrArg _ ((congrArg₂ _ hgone hall).trans (List.nil_append _))
    · obtain ⟨g, hg, hgid, hgdoc, hstate, hparser, hchunking, hcount, hgords⟩ :=
        h.served d' hd hready
      have hg₁ : g.id ≠ target.generation.id := hgid ▸ hapart d' hd hne
      have hg₂ : g.id ≠ document.activeGenerationId := by
        intro heq
        exact hne (congrArg (·.id) (h.document_eq hd hdoc (hgid.symm.trans heq)))
      refine ⟨g, ?_, hgid, hgdoc, hstate, hparser, hchunking, hcount, ?_⟩
      · rw [hgens]
        refine List.mem_map.mpr ⟨g, hg, ?_⟩
        rw [committedGeneration, if_neg hg₁, if_neg fun hp => hg₂ hp.1]
      · rw [← hgords]
        refine congrArg (List.map Chunk.ordinal) ?_
        have hrest : rows.filter (fun x => x.documentGenerationId = d'.activeGenerationId) = [] := by
          rw [List.filter_eq_nil_iff]
          intro x hx
          rw [(hrows x hx).2]
          simpa using (hapart d' hd hne).symm
        show (deleteWhere _ c.chunks ++ rows).filter _ = activeChunks c d'
        rw [List.filter_append, hrest, List.append_nil]
        refine activeChunks_deleteWhere fun x _ hx => ?_
        rw [hx]
        simpa using hapart d' hd hne
  · intro d' hd' hready j hj
    rcases hrow d' hd' with rfl | ⟨hd, _⟩
    · exact hidle j hj
    · exact h.idle d' hd hready j hj
  · intro j hj hop hopen d' hd'
    rcases hrow d' hd' with rfl | ⟨hd, _⟩
    · intro heq
      exact hidle j hj heq.symm (Or.inr (Or.inr ⟨hop, hopen⟩))
    · exact h.unfinished j hj hop hopen d' hd

theorem VersionInv.commit (h : VersionInv db.content) {request : IngestRequest}
    {job : IngestionJob} {target : IngestTarget} {document : Document}
    {operations : List ReprocessingOperation} (hmem : job ∈ db.content.jobs)
    (hheld : holdsJobLease db.now request.jobId request.leaseToken request.fencingToken job = true)
    (hshare : shareEmbedding db request job = .ok target)
    (hdoc : document ∈ db.content.documents) (hid : document.id = job.documentId)
    (hords : request.chunks.map (·.ordinal) = List.range request.chunks.length) :
    VersionInv (ingestedDb db request job target document operations).content := by
  obtain ⟨hgen, hgid, hgdoc, _, _⟩ := shareEmbedding_ok hshare
  have hlive : isLive job := Or.inr (Or.inl (holdsJobLease_running hheld))
  have h₁ := h.updateJobs (p := fun j => j.id = job.id) (f := completedJob request.chunks.length)
    (fun _ => rfl) (by
      intro j hj hp
      obtain rfl : j = job := h.jobs.eq hj hmem (by simpa using hp)
      exact (RowStep.commit hheld).kept)
  -- the job was the only live one for its target, and it is completed now
  have hidle : ∀ j ∈ updateWhere (fun j => j.id = job.id) (completedJob request.chunks.length)
      db.content.jobs, j.targetGenerationId = target.generation.id → ¬ isLive j := by
    intro j' hj' heq hlive'
    obtain ⟨j, hj, rfl⟩ := mem_updateWhere.mp hj'
    by_cases hp : j.id = job.id
    · simp [hp, isLive, completedJob] at hlive'
    · simp only [hp, decide_false] at heq hlive'
      exact hp (congrArg (·.id) (h.one j hj job hmem hlive' hlive (heq.trans hgid)))
  have hserve := @VersionInv.serve _ h₁ db.now document hdoc target hgen (hgdoc.trans hid.symm) hidle
    request.pageCount.toNat
    (request.chunks.map (chunkRow job.documentId target.generation.id)) (by
      intro x hx
      obtain ⟨y, _, rfl⟩ := List.mem_map.mp hx
      exact ⟨hid.symm, rfl⟩) (by
      rw [List.map_map, List.length_map]
      exact hords)
  have hcontent : (ingestedDb db request job target document operations).content =
      committedContent { db.content with
        jobs := updateWhere (fun j => j.id = job.id) (completedJob request.chunks.length)
          db.content.jobs } db.now document target request.pageCount.toNat
        (request.chunks.map (chunkRow job.documentId target.generation.id)) := by
    unfold committedContent
    rw [List.length_map, hid]
    rfl
  rw [hcontent]
  exact hserve

/-! ## Every call, and runs -/

/-- The commit's payload is one that `process` returned. -/
def FromWorker : IngestCall → Prop
  | .job (.commit request) => ∃ w settings claim s result s',
      process w settings claim s = (.ok result, s') ∧ request.pageCount = result.pageCount ∧
        request.chunks = result.chunks
  | _ => True

variable {content : Content}

variable {call : IngestCall}

theorem ContentStep.versionInv (hs : ContentStep db call content) (hworker : FromWorker call)
    (h : VersionInv db.content) : VersionInv content := by
  cases hs with
  | same => exact h
  | create hdoc => exact h.create hdoc
  | delete => exact h.delete _
  | rows hids hrows =>
    refine h.keepJobs ?_ fun j' hj' => ?_
    · unfold Keyed
      rw [hids]
      exact h.jobs
    · obtain ⟨j, hj, hrow⟩ := hrows j' hj'
      exact ⟨j, hj, hrow.kept⟩
  | progress hmem hheld hstage =>
    refine h.progress hmem hheld (fun hready => ?_) _ _
    rw [hready] at hstage
    exact absurd hstage (by decide)
  | commit hmem hheld hshare hdoc hid =>
    obtain ⟨w, settings, claim, s, result, s', hprocess, _, hchunks⟩ := hworker
    refine h.commit hmem hheld hshare hdoc hid ?_
    rw [hchunks]
    exact process_ordinals hprocess
  | poison hmem hheld => exact h.poison hmem hheld _
  | requeue hmem hidle hfresh => exact h.requeue hmem hidle hfresh
  | start hgens hjobs => exact h.start hgens hjobs
  | cancel => exact h.cancel _
  | retry operation => exact h.retry operation
  | cleanup hinactive => exact h.cleanup hinactive

/-- Every ready document of the first state is there in the second, unchanged, with
the same active chunks. -/
def KeepsReady (c c' : Content) : Prop :=
  ∀ d ∈ c.documents, d.state = .ready →
    d ∈ c'.documents ∧ activeChunks c' d = activeChunks c d

theorem KeepsReady.refl (c : Content) : KeepsReady c c := fun _ hd _ => ⟨hd, rfl⟩

theorem KeepsReady.trans {c₁ c₂ c₃ : Content} (h : KeepsReady c₁ c₂) (h' : KeepsReady c₂ c₃) :
    KeepsReady c₁ c₃ := by
  intro d hd hready
  obtain ⟨hd₂, hchunks⟩ := h d hd hready
  obtain ⟨hd₃, hchunks'⟩ := h' d hd₂ hready
  exact ⟨hd₃, hchunks'.trans hchunks⟩

/-- The call is no commit that succeeds; nor is it the maintenance requeue or a
deletion, which are there to take a document out of service. -/
def LeavesReady (db : Db) : IngestCall → Prop
  | .job (.commit request) => jobAnswer db (.commit request) ≠ .ok (.returned true)
  | .maintenanceRequeue .. => False
  | .library (.deleteDocument ..) => False
  | _ => True

/-- An update that only writes documents that are not ready. -/
theorem keepsReady_updateDocuments {p : Document → Bool} {f : Document → Document}
    (hp : ∀ d ∈ c.documents, p d = true → d.state ≠ .ready)
    (hdocs : content.documents = updateWhere p f c.documents)
    (hchunks : content.chunks = c.chunks) : KeepsReady c content := by
  intro d hd hready
  refine ⟨?_, ?_⟩
  · rw [hdocs, mem_updateWhere]
    exact ⟨d, hd, if_neg fun hpd => hp d hd hpd hready⟩
  · show content.chunks.filter _ = _
    rw [hchunks]
    rfl

/-- A write of other tables than `documents` and `chunks`. -/
theorem keepsReady_other (hdocs : content.documents = c.documents)
    (hchunks : content.chunks = c.chunks) : KeepsReady c content := by
  intro d hd _
  refine ⟨hdocs ▸ hd, ?_⟩
  show content.chunks.filter _ = _
  rw [hchunks]
  rfl

theorem ContentStep.keepsReady (hs : ContentStep db call content) (hleaves : LeavesReady db call)
    (h : VersionInv db.content) : KeepsReady db.content content := by
  cases hs with
  | same => exact KeepsReady.refl _
  | create hins =>
    obtain ⟨rfl, _⟩ := insertDocument_ok hins
    exact fun d hd _ => ⟨List.mem_append_left _ hd, rfl⟩
  | delete => exact hleaves.elim
  | rows => exact keepsReady_other rfl rfl
  | progress =>
    refine keepsReady_updateDocuments (fun d _ hp => ?_) rfl rfl
    simp only [decide_eq_true_eq] at hp
    exact hp.2.2
  | commit _ _ _ _ _ hanswer => exact absurd hanswer hleaves
  | poison =>
    refine keepsReady_updateDocuments (fun d _ hp => ?_) rfl rfl
    simp only [decide_eq_true_eq] at hp
    exact hp.2.2
  | @requeue _ document jobId hmem _ _ hby =>
    have hfailed : document.state = .failed := by
      rcases hby with hfailed | ⟨_, _, rfl⟩
      · exact hfailed
      · exact hleaves.elim
    intro d hd hready
    have hne : d.id ≠ document.id := by
      intro heq
      rw [h.documents.eq hd hmem heq, hfailed] at hready
      cases hready
    refine ⟨mem_updateWhere.mpr ⟨d, hd, by simp [hne]⟩, ?_⟩
    refine activeChunks_deleteWhere fun x hx hgen => ?_
    rw [h.chunk_document hd hx hgen]
    simpa using hne
  | start => exact keepsReady_other rfl rfl
  | cancel => exact keepsReady_other rfl rfl
  | retry operation =>
    unfold retriedWork
    split
    · exact KeepsReady.refl _
    · exact keepsReady_other rfl rfl
  | @cleanup _ _ generationId hinactive =>
    intro d hd _
    refine ⟨hd, activeChunks_deleteWhere fun x _ hgen => ?_⟩
    rw [hgen]
    simpa using hinactive d hd

/-- What the runs below carry along. -/
structure IngestInv (db : Db) : Prop where
  tree : TreeInv db.library.nodes
  versions : VersionInv db.content

/-- The calls of the ingestion system leave the tree alone. -/
theorem ingestStep_tree (db : Db) (call : IngestCall) (h : TreeInv db.library.nodes) :
    TreeInv (ingestStep db call).library.nodes := by
  by_cases hlibrary : ∃ c, call = .library c
  · obtain ⟨c, rfl⟩ := hlibrary
    exact (step_nodes db c).treeInv h
  · rw [(ingestStep_frame db fun c heq => hlibrary ⟨c, heq⟩).1]
    exact h

theorem ingestInv_step (hworker : FromWorker call) (h : IngestInv db) :
    IngestInv (ingestStep db call) :=
  ⟨ingestStep_tree db call h.tree,
    (ingestStep_content h.tree h.versions.jobs call).versionInv hworker h.versions⟩

/-- Without a commit that succeeds, a run leaves every ready document as it is. -/
theorem keepsReady_run {calls : List IngestCall} (hworker : ∀ call ∈ calls, FromWorker call)
    (hleaves : Along ingestStep LeavesReady db calls) (h : IngestInv db) :
    KeepsReady db.content (run ingestStep db calls).content := by
  induction calls generalizing db with
  | nil => exact KeepsReady.refl _
  | cons call calls ih =>
    have hcall := hworker call (by simp)
    have hkeep := (ingestStep_content h.tree h.versions.jobs call).keepsReady hleaves.1 h.versions
    exact hkeep.trans (ih (fun x hx => hworker x (by simp [hx])) hleaves.2 (ingestInv_step hcall h))

theorem ingestInv_run {calls : List IngestCall} (hworker : ∀ call ∈ calls, FromWorker call)
    (h : IngestInv db) : IngestInv (run ingestStep db calls) := by
  induction calls generalizing db with
  | nil => exact h
  | cons call calls ih =>
    exact ih (fun x hx => hworker x (by simp [hx])) (ingestInv_step (hworker call (by simp)) h)

/-- An installation without documents. -/
structure Fresh (db : Db) : Prop extends Installed db where
  content : db.content = ⟨[], [], [], []⟩

theorem ingestInv_fresh (h : Fresh db) : IngestInv db := by
  refine ⟨?_, ?_⟩
  · rw [h.nodes]
    exact treeInv_nil
  · rw [h.content]
    exact versionInv_empty

/-- In every state the system reaches, a ready document is served from a ready
generation that agrees with it and with its chunk rows, no document has two ready
generations, and what follows without a successful commit leaves ready documents and
their active chunks as they are. -/
theorem versions_run (h : Fresh db) {calls : List IngestCall}
    (hworker : ∀ call ∈ calls, FromWorker call) :
    (∀ d ∈ (run ingestStep db calls).content.documents, d.state = .ready →
      Served (run ingestStep db calls).content d) ∧
    (∀ g ∈ (run ingestStep db calls).content.generations,
      ∀ g' ∈ (run ingestStep db calls).content.generations, g.documentId = g'.documentId →
      g.state = .ready → g'.state = .ready → g = g') ∧
    (∀ later : List IngestCall, (∀ call ∈ later, FromWorker call) →
      Along ingestStep LeavesReady (run ingestStep db calls) later →
      KeepsReady (run ingestStep db calls).content
        (run ingestStep db (calls ++ later)).content) := by
  have hinv := ingestInv_run hworker (ingestInv_fresh h)
  refine ⟨hinv.versions.served, ?_, ?_⟩
  · intro g hg g' hg' hdoc hready hready'
    obtain ⟨d, hd, hid, hact⟩ := hinv.versions.ready g hg hready
    obtain ⟨d', hd', hid', hact'⟩ := hinv.versions.ready g' hg' hready'
    have hsame : d = d' := hinv.versions.documents.eq hd hd' (by rw [hid, hid', hdoc])
    refine hinv.versions.generations.eq hg hg' ?_
    show g.id = g'.id
    rw [← hact, ← hact', hsame]
  · intro later hlater hleaves
    rw [run_append]
    exact keepsReady_run hlater hleaves hinv

/-! ## A failed attempt -/

/-- The sample installation with a verified backup. -/
def backedUpDb : Db := { sampleDb with reprocessing.backupVerifications := [0] }

/-- The payload of the sample document, one chunk. -/
def samplePayload : ProcessedIngestion where
  pageCount := 1
  chunks := [{
    id := 0, ordinal := 0, pageStart := 1, pageEnd := 1, sectionName := none, text := "a",
    tokenCount := 1, textSha256 := .digest 1, sourceSha256 := .digest 7, parseMethod := .direct,
    parserVersion := "p1", chunkingVersion := "c1", embeddingVersion := "embedding-v1",
    schemaVersion := "v1", highlightAnchor := "", dimension := 8 }]

/-- An upload that is ingested and ready. -/
def servedCalls : List IngestCall :=
  [.library (.uploadPreflight (some (.digest 1)) 20 (sampleUpload 7 none "a.pdf")),
    .library (.commitUpload (some (.digest 1)) 20 ⟨30, 31, 32, 33, 34⟩
      (sampleUpload 7 none "a.pdf")),
    .job (.claim "a" 60 101 []),
    .job (.commit ⟨31, 101, 1, samplePayload.pageCount, samplePayload.chunks⟩)]

/-- What the preview of a reingestion of that one document says. -/
def sampleImpact : ReprocessingImpact where
  operationType := .reingestion
  targetProfileId := "parser.paddleocr-vl-1.6.adaptive-v2"
  sourceParserVersion := none
  targetParserVersion := some "pypdf+paddleocr-vl-v1.6-adaptive-v2"
  targetChunkingVersion := some "fragment-paragraph-sentence-v2"
  targetEmbeddingVersion := none
  targetDimension := none
  documentCount := 1
  chunkCount := 1
  estimatedBytes := 1

/-- A reingestion is started and its job claimed. -/
def reingestCalls : List IngestCall :=
  [.previewReprocessing (some (.digest 1)) 40 (some .reingestion)
      "parser.paddleocr-vl-1.6.adaptive-v2" none,
    .issueGrant (some (.digest 1)) 40 sampleImpact (.digest 41),
    .startReprocessing (some (.digest 1)) ⟨42, 43, 44, 45⟩ 40 sampleImpact (.digest 41),
    .job (.claim "b" 60 102 [])]

theorem fromWorker_servedCalls : ∀ call ∈ servedCalls, FromWorker call := by
  intro call hcall
  simp only [servedCalls, List.mem_cons, List.not_mem_nil, or_false] at hcall
  rcases hcall with rfl | rfl | rfl | rfl
  · trivial
  · trivial
  · trivial
  · refine ⟨sampleWorld, sampleSettings, sampleClaim 1, Reports.start, samplePayload,
      (process sampleWorld sampleSettings (sampleClaim 1) Reports.start).2, ?_, rfl, rfl⟩
    rfl

theorem fresh_backedUpDb : Fresh backedUpDb :=
  ⟨⟨installed_sampleDb.users, rfl, rfl, rfl, rfl, rfl, rfl, rfl⟩, rfl⟩

/-- The document is served; a reingestion of it is started and poisoned, which fails
the operation and leaves the document and its chunks as they are. -/
theorem versions_run_poisoned :
    Fresh backedUpDb ∧ (∀ call ∈ servedCalls, FromWorker call) ∧
    (∃ d ∈ (run ingestStep backedUpDb servedCalls).content.documents,
      Served (run ingestStep backedUpDb servedCalls).content d) ∧
    (run ingestStep backedUpDb (servedCalls ++
      (reingestCalls ++ [.job (.poison 45 102 1 "timeout")]))).reprocessing.operations.map (·.state) =
        [.failed] ∧
    KeepsReady (run ingestStep backedUpDb servedCalls).content
      (run ingestStep backedUpDb (servedCalls ++
        (reingestCalls ++ [.job (.poison 45 102 1 "timeout")]))).content := by
  obtain ⟨hserved, _, hkeeps⟩ := versions_run fresh_backedUpDb fromWorker_servedCalls
  refine ⟨fresh_backedUpDb, fromWorker_servedCalls, ?_, by decide +kernel, ?_⟩
  · have hready : ∃ d ∈ (run ingestStep backedUpDb servedCalls).content.documents,
        d.state = .ready := by decide +kernel
    obtain ⟨d, hd, hstate⟩ := hready
    exact ⟨d, hd, hserved d hd hstate⟩
  · refine hkeeps _ ?_ ⟨trivial, trivial, trivial, trivial, trivial, trivial⟩
    intro call hcall
    simp only [reingestCalls, List.cons_append, List.nil_append, List.mem_cons, List.not_mem_nil,
      or_false] at hcall
    rcases hcall with rfl | rfl | rfl | rfl | rfl <;> trivial

end LocalRag.Ingest
