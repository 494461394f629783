import LocalRag.Ingest.Versions

/-!
# Documents own their active generation

`fk_documents_active_generation`, with nothing assumed about what a worker sends: a
document's active generation is a row of the document's own. `VersionInv` has this
too, next to facts that need the payload to be one `process` returned; here every
call may be anything.

Most writes leave the ids alone, and with them `OwnedInv` (`OwnedInv.sameIds`). The
upload and the start add generations under new ids, so no document has one of them
already; the commit moves the document of its job to the job's target, which is a
row of that document; a deletion takes a document with all its generations, and the
cleanup takes a generation that no document has.
-/

namespace LocalRag.Ingest

open LocalRag.Core Access Library Storage

structure OwnedInv (c : Content) : Prop where
  documents : Keyed (·.id) c.documents
  generations : Keyed (·.id) c.generations
  jobs : Keyed (·.id) c.jobs
  active : ∀ d ∈ c.documents,
    ∃ g ∈ c.generations, g.id = d.activeGenerationId ∧ g.documentId = d.id

theorem ownedInv_empty : OwnedInv ⟨[], [], [], []⟩ where
  documents := Keyed.nil _
  generations := Keyed.nil _
  jobs := Keyed.nil _
  active := by simp

/-- What a document row says about who owns what. -/
def documentIds (d : Document) : DocumentId × GenerationId := (d.id, d.activeGenerationId)

/-- What a generation row says about it. -/
def generationIds (g : DocumentGeneration) : GenerationId × DocumentId := (g.id, g.documentId)

variable {c c' : Content} {db : Db}

/-- The generation of another document is not active. -/
theorem OwnedInv.active_owner (h : OwnedInv c) {d : Document} (hd : d ∈ c.documents)
    {g : DocumentGeneration} (hg : g ∈ c.generations) (hid : d.activeGenerationId = g.id) :
    g.documentId = d.id := by
  obtain ⟨g', hg', hid', howner⟩ := h.active d hd
  rwa [h.generations.eq hg hg' (hid.symm.trans hid'.symm)]

/-- A row of the second table is one of the first, as far as the ids go. -/
theorem exists_of_map_eq {ρ κ : Type} {f : ρ → κ} {t t' : List ρ} (h : t'.map f = t.map f) {r : ρ}
    (hr : r ∈ t') : ∃ r₀ ∈ t, f r₀ = f r := by
  have hmem : f r ∈ t.map f := h ▸ List.mem_map_of_mem hr
  obtain ⟨r₀, hr₀, heq⟩ := List.mem_map.mp hmem
  exact ⟨r₀, hr₀, heq⟩

/-- A write that leaves the ids alone. -/
theorem OwnedInv.sameIds (h : OwnedInv c)
    (hdocuments : c'.documents.map documentIds = c.documents.map documentIds)
    (hgenerations : c'.generations.map generationIds = c.generations.map generationIds)
    (hjobs : Keyed (·.id) c'.jobs) : OwnedInv c' where
  documents := by
    have hids : c'.documents.map (·.id) = c.documents.map (·.id) := by
      simpa [documentIds, Function.comp_def] using congrArg (List.map Prod.fst) hdocuments
    unfold Keyed
    rw [hids]
    exact h.documents
  generations := by
    have hids : c'.generations.map (·.id) = c.generations.map (·.id) := by
      simpa [generationIds, Function.comp_def] using congrArg (List.map Prod.fst) hgenerations
    unfold Keyed
    rw [hids]
    exact h.generations
  jobs := hjobs
  active := by
    intro d' hd'
    obtain ⟨d, hd, hsame⟩ := exists_of_map_eq hdocuments hd'
    obtain ⟨hdoc, hactive⟩ := Prod.mk.inj hsame
    obtain ⟨g, hg, hid, howner⟩ := h.active d hd
    obtain ⟨g', hg', hsame'⟩ := exists_of_map_eq hgenerations.symm hg
    obtain ⟨hgid, hgdoc⟩ := Prod.mk.inj hsame'
    exact ⟨g', hg', hgid.trans (hid.trans hactive), hgdoc.trans (howner.trans hdoc)⟩

/-- Jobs come and go without a word about it. -/
theorem OwnedInv.withJobs (h : OwnedInv c) {jobs : List IngestionJob}
    (hjobs : Keyed (·.id) jobs) : OwnedInv { c with jobs := jobs } :=
  @OwnedInv.sameIds c { c with jobs := jobs } h rfl rfl hjobs

/-! ## The writes of the calls -/

/-- An upload adds a generation and the document that owns it. -/
theorem OwnedInv.create (h : OwnedInv db.content) {ids : CommitIds} {request : UploadRequest}
    {content : Content} (hins : insertDocument db ids request = .ok content) :
    OwnedInv content := by
  obtain ⟨rfl, hdocument, -, -, hgeneration, hjob⟩ := insertDocument_ok hins
  refine ⟨h.documents.append hdocument, h.generations.append hgeneration, h.jobs.append hjob, ?_⟩
  intro d hd
  rcases List.mem_append.mp hd with hold | hnew
  · obtain ⟨g, hg, hrest⟩ := h.active d hold
    exact ⟨g, List.mem_append_left _ hg, hrest⟩
  · rw [List.mem_singleton.mp hnew]
    exact ⟨uploadedGeneration ids request, by simp, rfl, rfl⟩

/-- A deletion takes a document and what it owns. -/
theorem OwnedInv.delete (h : OwnedInv c) (i : DocumentId) : OwnedInv (deletedContent c i) := by
  refine ⟨h.documents.deleteWhere _, h.generations.deleteWhere _, h.jobs.deleteWhere _, ?_⟩
  intro d hd
  obtain ⟨hd, hne⟩ : d ∈ c.documents ∧ d.id ≠ i := by simpa [deletedContent] using hd
  obtain ⟨g, hg, hid, howner⟩ := h.active d hd
  exact ⟨g, mem_deleteWhere.mpr ⟨hg, by simpa [howner] using hne⟩, hid, howner⟩

/-- A commit moves the job's document to the job's target, a row of that document. -/
theorem OwnedInv.commit (h : OwnedInv db.content) {request : IngestRequest}
    {job : IngestionJob} {target : IngestTarget} {document : Document}
    {operations : List ReprocessingOperation} (hshare : shareEmbedding db request job = .ok target) :
    OwnedInv (ingestedDb db request job target document operations).content := by
  obtain ⟨hmem, -, howner, -, -⟩ := shareEmbedding_ok hshare
  have hkept : (ingestedDb db request job target document operations).content.generations.map
      generationIds = db.content.generations.map generationIds := by
    show (readyGenerations _ _ _ _ _ db.content.generations).map generationIds = _
    rw [readyGenerations_eq, List.map_map]
    refine List.map_congr_left fun g _ => ?_
    obtain ⟨hgid, hgdoc⟩ := committedGeneration_id db.now document.activeGenerationId
      target.generation.id request.pageCount.toNat request.chunks.length g
    exact Prod.ext hgid hgdoc
  have hgenerations : Keyed (·.id)
      (ingestedDb db request job target document operations).content.generations := by
    have hids := congrArg (List.map Prod.fst) hkept
    simp only [List.map_map] at hids
    unfold Keyed
    exact hids ▸ h.generations
  refine ⟨Keyed.updateWhere h.documents fun _ => rfl, hgenerations,
    Keyed.updateWhere h.jobs fun _ => rfl, ?_⟩
  intro d' hd'
  obtain ⟨d, hd, rfl⟩ := mem_updateWhere.mp hd'
  by_cases hp : d.id = job.documentId
  · obtain ⟨g', hg', hsame⟩ := exists_of_map_eq hkept.symm hmem
    obtain ⟨hgid, hgdoc⟩ := Prod.mk.inj hsame
    simp only [hp, decide_true, if_true]
    exact ⟨g', hg', hgid, hgdoc.trans (howner.trans hp.symm)⟩
  · obtain ⟨g, hg, hid, hdoc⟩ := h.active d hd
    obtain ⟨g', hg', hsame⟩ := exists_of_map_eq hkept.symm hg
    obtain ⟨hgid, hgdoc⟩ := Prod.mk.inj hsame
    simp only [hp, decide_false]
    exact ⟨g', hg', hgid.trans hid, hgdoc.trans hdoc⟩

/-- A start adds a generation to each document it selects, under new ids. -/
theorem OwnedInv.start (h : OwnedInv db.content) {ids : StartIds} {impact : ReprocessingImpact}
    (hgenerations : ∀ g ∈ db.content.generations,
      ∀ g' ∈ (reingestTargets db impact).mapIdx (reingestGeneration ids impact), g.id ≠ g'.id)
    (hjobs : ∀ j ∈ db.content.jobs,
      ∀ j' ∈ (reingestTargets db impact).mapIdx (reingestJob db.now ids), j.id ≠ j'.id) :
    OwnedInv (startedContent db ids impact) := by
  refine ⟨h.documents, h.generations.appendAll ?_ hgenerations, h.jobs.appendAll ?_ hjobs, ?_⟩
  · exact keyed_mapIdx ids.generationId fun _ _ => rfl
  · exact keyed_mapIdx ids.jobId fun _ _ => rfl
  · intro d hd
    obtain ⟨g, hg, hrest⟩ := h.active d hd
    exact ⟨g, List.mem_append_left _ hg, hrest⟩

/-- A retry reopens rows and adds none. -/
theorem OwnedInv.retry (h : OwnedInv db.content) (operation : ReprocessingOperation) :
    OwnedInv (retriedWork db operation).content := by
  unfold retriedWork
  split
  · exact h
  · exact h.sameIds rfl (map_updateWhere (by intro _; rfl) _) (Keyed.updateWhere h.jobs fun _ => rfl)

/-- The cleanup takes a generation that no document has. -/
theorem OwnedInv.cleanup (h : OwnedInv db.content) {generationId : GenerationId}
    (hinactive : ∀ d ∈ db.content.documents, d.activeGenerationId ≠ generationId) :
    OwnedInv (deleteGenerationRows db generationId).content := by
  refine ⟨h.documents, h.generations.deleteWhere _, h.jobs.deleteWhere _, ?_⟩
  intro d hd
  obtain ⟨g, hg, hid, howner⟩ := h.active d hd
  exact ⟨g, mem_deleteWhere.mpr ⟨hg, by simpa [hid] using hinactive d hd⟩, hid, howner⟩

/-! ## Every call -/

theorem ContentStep.ownedInv {call : IngestCall} {content : Content}
    (hs : ContentStep db call content) (h : OwnedInv db.content) : OwnedInv content := by
  cases hs with
  | same => exact h
  | create hins => exact h.create hins
  | delete => exact h.delete _
  | rows hids =>
    refine h.withJobs ?_
    unfold Keyed
    rw [hids]
    exact h.jobs
  | progress =>
    exact h.sameIds (map_updateWhere (by intro _; rfl) _) rfl (Keyed.updateWhere h.jobs fun _ => rfl)
  | commit _ _ hshare => exact h.commit hshare
  | poison =>
    exact h.sameIds (map_updateWhere (by intro _; rfl) _) (map_updateWhere (by intro _; rfl) _)
      (Keyed.updateWhere h.jobs fun _ => rfl)
  | requeue _ _ hfresh =>
    exact h.sameIds (map_updateWhere (by intro _; rfl) _) rfl (h.jobs.append hfresh)
  | start hgenerations hjobs => exact h.start hgenerations hjobs
  | cancel => exact h.sameIds rfl (map_updateWhere (by intro _; rfl) _) (h.jobs.deleteWhere _)
  | retry operation => exact h.retry operation
  | cleanup hinactive => exact h.cleanup hinactive

/-- What the calls of the ingestion system keep together. -/
structure LedgerInv (db : Db) : Prop where
  tree : TreeInv db.library.nodes
  owned : OwnedInv db.content

/-- A call that writes neither table. -/
theorem LedgerInv.frame {db' : Db} (h : LedgerInv db) (hlibrary : db'.library = db.library)
    (hcontent : db'.content = db.content) : LedgerInv db' := by
  refine ⟨?_, ?_⟩
  · rw [hlibrary]
    exact h.tree
  · rw [hcontent]
    exact h.owned

theorem ledgerInv_step (h : LedgerInv db) (call : IngestCall) : LedgerInv (ingestStep db call) :=
  ⟨ingestStep_tree db call h.tree,
    (ingestStep_content h.tree h.owned.jobs call).ownedInv h.owned⟩

end LocalRag.Ingest
