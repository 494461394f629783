import LocalRag.Chat.Steps
import LocalRag.Ingest.Generations
import LocalRag.Ingest.Owned
import LocalRag.Ingest.Pausing

/-!
# The cleanup — what the inventory offers, and what can be removed

`v10_admin_version_inventory` of `0010_versioned_reprocessing` tells the administrator
which generations can be cleaned up, and `v10_admin_cleanup_generation` removes one
(`Ingest.Reprocess`). The two are written apart. The inventory reports a document
generation by its own document only, and an embedding generation by its state only;
the cleanup asks that no document has the generation, that the embedding generation is
not the active one, and the foreign keys of the tables that refer to a generation have
their say.

In every state the system reaches the first two differences come to nothing:
`OwnedInv` makes the generation's own document the only one that can have it, and
`EmbeddingInv` makes the active generation active. The keys do matter. Those on
`document_generations` cascade. On `embedding_generations` there are two that do not,
the turn's (`fk_chat_turn_embedding_generation`) and the one of a generation built from
another, and a generation that something still refers to through them is offered and
cannot be removed.

Mirroring notes. The rows are listed last first; the source orders by `created_at`,
which rows of one start share, and nothing here reads the order. Of the inventory,
`ingestion_version_configuration`, the count of documents by parser version,
`profile_id`, `created_at` and `activated_at` are left out.
-/

namespace LocalRag.Chat

open LocalRag.Core Access Library Storage Ingest

/-! ## The inventory -/

structure DocumentGenerationEntry where
  generationId : GenerationId
  documentId : DocumentId
  filename : String
  parserVersion : String
  chunkingVersion : String
  state : GenerationState
  chunkCount : Nat
  retiredAt : Option Time
  cleanupAvailable : Bool
deriving Repr, DecidableEq

structure EmbeddingGenerationEntry where
  generationId : GenerationId
  embeddingVersion : String
  dimension : Nat
  state : EmbeddingState
  chunkCount : Nat
  retiredAt : Option Time
  cleanupAvailable : Bool
deriving Repr, DecidableEq

structure VersionInventory where
  documentGenerations : List DocumentGenerationEntry
  activeGenerationId : GenerationId
  embeddingVersion : String
  dimension : Nat
  embeddingGenerations : List EmbeddingGenerationEntry
deriving Repr, DecidableEq

/-- One row of `ingestion.generations`. -/
def documentEntry (g : DocumentGeneration) (document : Document) : DocumentGenerationEntry :=
  { generationId := g.id
    documentId := g.documentId
    filename := document.originalFilename
    parserVersion := g.parserVersion
    chunkingVersion := g.chunkingVersion
    state := g.state
    chunkCount := g.chunkCount
    retiredAt := g.retiredAt
    cleanupAvailable := g.operationId ≠ none ∧
      (g.state = .retained ∨ g.state = .abandoned ∨ g.state = .failed) ∧
      document.activeGenerationId ≠ g.id }

/-- One row of `embedding.generations`. -/
def embeddingEntry (db : Db) (g : EmbeddingGeneration) : EmbeddingGenerationEntry :=
  { generationId := g.id
    embeddingVersion := g.embeddingVersion
    dimension := g.dimension
    state := g.state
    chunkCount := (db.reprocessing.chunkEmbeddings.filter fun x =>
      x.embeddingGenerationId = g.id).length
    retiredAt := g.retiredAt
    cleanupAvailable := g.operationId ≠ none ∧ (g.state = .retained ∨ g.state = .abandoned) }

/-- `v10_admin_version_inventory`: null when the state points to no generation. -/
def v10AdminVersionInventory (db : Db) (token : Option HexText) :
    Except SqlError (Option VersionInventory) :=
  match v4RequireAdmin db token with
  | .error e => .error e
  | .ok _ =>
    match db.reprocessing.embeddingGenerations.find? fun g =>
        g.id = db.reprocessing.activeEmbeddingGeneration with
    | none => .ok none
    | some active =>
      .ok (some {
        documentGenerations :=
          ((db.content.generations.filter fun g => g.operationId ≠ none).flatMap fun g =>
            (db.content.documents.filter fun d => d.id = g.documentId).map
              (documentEntry g)).reverse
        activeGenerationId := active.id
        embeddingVersion := active.embeddingVersion
        dimension := active.dimension
        embeddingGenerations :=
          (db.reprocessing.embeddingGenerations.map (embeddingEntry db)).reverse })

/-! ## What an entry says -/

variable {db db' : Db} {token : Option HexText} {inventory : VersionInventory}

/-- An inventory is an administrator's, and lists the rows. -/
theorem v10AdminVersionInventory_ok
    (h : v10AdminVersionInventory db token = .ok (some inventory)) :
    (∃ actor, v4RequireAdmin db token = .ok actor) ∧
    (∀ e ∈ inventory.documentGenerations, ∃ g ∈ db.content.generations,
      ∃ d ∈ db.content.documents, d.id = g.documentId ∧ e = documentEntry g d) ∧
    ∀ e ∈ inventory.embeddingGenerations, ∃ g ∈ db.reprocessing.embeddingGenerations,
      e = embeddingEntry db g := by
  unfold v10AdminVersionInventory at h
  split at h
  · cases h
  next actor hactor =>
    split at h
    · cases h
    next active _ =>
      obtain rfl := Option.some.inj (Except.ok.inj h)
      refine ⟨⟨actor, hactor⟩, ?_, ?_⟩
      · intro e he
        simp only [List.mem_reverse, List.mem_flatMap, List.mem_filter, List.mem_map] at he
        obtain ⟨g, ⟨hg, -⟩, d, ⟨hd, hid⟩, rfl⟩ := he
        exact ⟨g, hg, d, hd, of_decide_eq_true hid, rfl⟩
      · intro e he
        simp only [List.mem_reverse, List.mem_map] at he
        obtain ⟨g, hg, rfl⟩ := he
        exact ⟨g, hg, rfl⟩

/-- The cleanup can remove the generation. -/
def CanCleanup (db : Db) (token : Option HexText) (generationType : GenerationType)
    (generationId : GenerationId) : Prop :=
  ∃ db', v10AdminCleanupGeneration db token generationType generationId = .ok (db', true)

/-- No key that does not cascade refers to the embedding generation: no turn was asked
under it, and no generation was built from it. -/
def Unreferenced (db : Db) (generationId : GenerationId) : Prop :=
  (∀ t ∈ db.chat.turns, t.embeddingGenerationId ≠ generationId) ∧
  ∀ g ∈ db.reprocessing.embeddingGenerations, g.sourceGenerationId ≠ some generationId

/-- A document generation that is offered can be removed. -/
theorem canCleanup_document (hinv : OwnedInv db.content) {actor : UserId}
    (hadmin : v4RequireAdmin db token = .ok actor) {g : DocumentGeneration} {d : Document}
    (hg : g ∈ db.content.generations) (hd : d ∈ db.content.documents) (hid : d.id = g.documentId)
    (havailable : (documentEntry g d).cleanupAvailable = true) :
    CanCleanup db token .document g.id := by
  have hrow : g.operationId ≠ none ∧
      (g.state = .retained ∨ g.state = .abandoned ∨ g.state = .failed) ∧
      d.activeGenerationId ≠ g.id := of_decide_eq_true havailable
  obtain ⟨hoperation, hstate, hinactive⟩ := hrow
  -- a document that has the generation would be the one the entry was joined with
  have hunused : ∀ x ∈ db.content.documents, x.activeGenerationId ≠ g.id := by
    intro x hx hactive
    have howner := hinv.active_owner hx hg hactive
    have hsame : x = d := hinv.documents.eq hx hd (howner.symm.trans hid.symm)
    exact hinactive (hsame ▸ hactive)
  have hclean : db.content.generations.any (isCleanableGeneration db g.id) = true := by
    refine List.any_eq_true.mpr ⟨g, hg, decide_eq_true ⟨rfl, hoperation, hstate, ?_⟩⟩
    simpa using hunused
  refine ⟨deleteGenerationRows db g.id, ?_⟩
  unfold v10AdminCleanupGeneration
  simp only [hadmin, hclean, not_true_eq_false, if_false]

/-- An embedding generation that is offered can be removed if and only if nothing
refers to it. -/
theorem canCleanup_embedding (hinv : EmbeddingsInv db) {actor : UserId}
    (hadmin : v4RequireAdmin db token = .ok actor) {g : EmbeddingGeneration}
    (hg : g ∈ db.reprocessing.embeddingGenerations)
    (havailable : (embeddingEntry db g).cleanupAvailable = true) :
    CanCleanup db token .embedding g.id ↔ Unreferenced db g.id := by
  have hrow : g.operationId ≠ none ∧ (g.state = .retained ∨ g.state = .abandoned) :=
    of_decide_eq_true havailable
  obtain ⟨hoperation, hstate⟩ := hrow
  have hinactive : g.id ≠ db.reprocessing.activeEmbeddingGeneration := by
    intro hid
    have hactive := EmbeddingInv.active_state hinv hg hid
    rw [hactive] at hstate
    exact absurd hstate (by simp)
  have hclean : db.reprocessing.embeddingGenerations.any (isCleanableEmbedding db g.id) = true :=
    List.any_eq_true.mpr ⟨g, hg, decide_eq_true ⟨rfl, hoperation, hstate, hinactive⟩⟩
  unfold CanCleanup v10AdminCleanupGeneration
  simp only [hadmin, hclean, not_true_eq_false, if_false]
  constructor
  · rintro ⟨db', h⟩
    simp only [ite_error_eq_ok] at h
    obtain ⟨hsource, hturns, -⟩ := h
    exact ⟨by simpa using hturns, by simpa using hsource⟩
  · rintro ⟨hturns, hsource⟩
    refine ⟨deleteEmbeddingRows db g.id, ?_⟩
    rw [if_neg (by simpa using hsource), if_neg (by simpa using hturns)]

/-! ## The system -/

/-- A call on the chats, the library and its documents, or one of the worker that
embeds a reindex. -/
inductive SystemCall where
  | chat (call : ChatCall)
  | claimTasks (request : ReindexClaimRequest) (locked : List (OperationId × ChunkId))
  | commitTask (request : ReindexRequest)
  | failTask (operationId : OperationId) (chunkId : ChunkId) (leaseToken : LeaseToken)
      (fencingToken : Nat) (error : String)
  | claimQualification (owner : String) (leaseSeconds : Nat) (leaseToken : LeaseToken)
      (locked : List OperationId)
  | completeQualification (report : QualificationReport)
deriving Repr, DecidableEq

/-- One transaction, or one advance of the clock. -/
def systemStep (db : Db) : SystemCall → Db
  | .chat call => chatStep db call
  | .claimTasks request locked => commit db (v10ClaimReindexTasks db request locked)
  | .commitTask request => commit db (v10CommitReindexTask db request)
  | .failTask operationId chunkId leaseToken fencingToken error =>
    commit db (v10FailReindexTask db operationId chunkId leaseToken fencingToken error)
  | .claimQualification owner leaseSeconds leaseToken locked =>
    commit db (v10ClaimReindexQualification db owner leaseSeconds leaseToken locked)
  | .completeQualification report => commit db (v10CompleteReindexQualification db report)

/-- What every call keeps. -/
structure GenerationsInv (db : Db) : Prop where
  ledger : LedgerInv db
  embeddings : EmbeddingsInv db

theorem GenerationsInv.withChat (h : GenerationsInv db) {chat : ChatStore}
    (heq : db' = { db with chat := chat }) : GenerationsInv db' := by
  subst heq
  exact ⟨h.ledger.frame rfl rfl, h.embeddings⟩

theorem generations_commit {ρ : Type} {res : Except SqlError (Db × ρ)} (h : GenerationsInv db)
    (hres : ∀ db' r, res = .ok (db', r) → GenerationsInv db') :
    GenerationsInv (LocalRag.Core.commit db res) :=
  commit_inv GenerationsInv h hres

/-- A call on the chats writes their tables, unless it is one of the rest of the system. -/
theorem chatStep_generations (h : GenerationsInv db) (call : ChatCall) :
    GenerationsInv (chatStep db call) := by
  by_cases hsystem : ∃ c, call = .system c
  · obtain ⟨c, rfl⟩ := hsystem
    exact ⟨ledgerInv_step h.ledger c, ingestStep_embeddings h.embeddings c⟩
  · obtain ⟨chat, heq, -⟩ := chatStep_onlyChats db fun c heq => hsystem ⟨c, heq⟩
    exact h.withChat heq

/-- The cutover tells the ready documents their version, which is none of their ids. -/
theorem cutoverDb_ledger (h : LedgerInv db) (report : QualificationReport)
    (generation : EmbeddingGeneration) : LedgerInv (cutoverDb db report generation) :=
  ⟨h.tree, h.owned.sameIds (map_updateWhere (by intro _; rfl) _) rfl h.owned.jobs⟩

theorem systemStep_generations (h : GenerationsInv db) (call : SystemCall) :
    GenerationsInv (systemStep db call) := by
  cases call with
  | chat call => exact chatStep_generations h call
  | claimTasks =>
    refine generations_commit h fun db' r heq => ⟨?_, v10ClaimReindexTasks_embeddings h.2 heq⟩
    obtain ⟨rfl, -⟩ := claimReindexTasksAt_ok heq
    exact h.ledger.frame rfl rfl
  | commitTask request =>
    refine generations_commit h fun db' r heq => ⟨?_, v10CommitReindexTask_embeddings h.2 heq⟩
    unfold v10CommitReindexTask at heq
    split at heq
    · obtain rfl := left_of_ok heq
      exact h.ledger
    split at heq
    · cases heq
    dsimp only at heq
    split at heq
    · cases heq
    next counted hcounted =>
      obtain rfl := left_of_ok heq
      unfold countedReindex at hcounted
      rw [ite_error_eq_ok] at hcounted
      obtain rfl := Except.ok.inj hcounted.2
      exact h.ledger.frame rfl rfl
  | failTask =>
    refine generations_commit h fun db' r heq => ⟨?_, v10FailReindexTask_embeddings h.2 heq⟩
    rcases v10FailReindexTask_ok heq with rfl | ⟨_, _, _, rfl⟩
    · exact h.ledger
    · exact h.ledger.frame rfl rfl
  | claimQualification =>
    refine generations_commit h fun db' r heq =>
      ⟨?_, v10ClaimReindexQualification_embeddings h.2 heq⟩
    rcases v10ClaimReindexQualification_ok heq with rfl | ⟨_, rfl⟩
    · exact h.ledger
    · exact h.ledger.frame rfl rfl
  | completeQualification report =>
    refine generations_commit h fun db' r heq =>
      ⟨?_, v10CompleteReindexQualification_embeddings h.2 heq⟩
    rcases v10CompleteReindexQualification_ok heq with
      rfl | ⟨_, _, generation, _, _, _, _, rfl | rfl⟩
    · exact h.ledger
    · exact h.ledger.frame rfl rfl
    · exact cutoverDb_ledger h.ledger report generation

/-! ## Runs -/

/-- A database after the migrations, with the baseline generation and nothing uploaded. -/
structure Migrated (db : Db) : Prop extends Ingest.Fresh db where
  operations : db.reprocessing.operations = []
  reindexTasks : db.reprocessing.reindexTasks = []
  baseline : ∃ g, db.reprocessing.embeddingGenerations = [g] ∧ g.operationId = none ∧
    g.state = .active ∧ g.id = db.reprocessing.activeEmbeddingGeneration

theorem generationsInv_migrated (h : Migrated db) : GenerationsInv db := by
  obtain ⟨g, hrows, hoperation, hactive, hid⟩ := h.baseline
  refine ⟨⟨?_, ?_⟩, ?_⟩
  · rw [h.nodes]
    exact treeInv_nil
  · rw [h.content]
    exact ownedInv_empty
  · unfold EmbeddingsInv
    refine ⟨?_, ?_, ?_, ?_, ?_, ?_, ?_, ?_⟩
    · rw [h.operations]
      exact Keyed.nil _
    · rw [hrows]
      exact List.nodup_singleton _
    · rw [hrows]
      exact ⟨g, List.mem_singleton_self g, hid, hactive⟩
    · intro x hx i hi
      rw [hrows, List.mem_singleton] at hx
      rw [hx, hoperation] at hi
      cases hi
    · simp [h.reindexTasks]
    · simp [h.reindexTasks]
    · simp [h.operations]
    · simp [h.content]

theorem generationsInv_run (h : Migrated db) (calls : List SystemCall) :
    GenerationsInv (run systemStep db calls) :=
  run_inv_of_step GenerationsInv (fun _ call hinv => systemStep_generations hinv call) calls
    (generationsInv_migrated h)

/-- In every state the system reaches, a document generation the inventory offers can be
removed, and an embedding generation it offers can be removed exactly if no turn was
asked under it and no generation was built from it. -/
theorem cleanup_exact (h : Migrated db) (calls : List SystemCall)
    (hinventory : v10AdminVersionInventory (run systemStep db calls) token =
      .ok (some inventory)) :
    (∀ e ∈ inventory.documentGenerations, e.cleanupAvailable = true →
      CanCleanup (run systemStep db calls) token .document e.generationId) ∧
    ∀ e ∈ inventory.embeddingGenerations, e.cleanupAvailable = true →
      (CanCleanup (run systemStep db calls) token .embedding e.generationId ↔
        Unreferenced (run systemStep db calls) e.generationId) := by
  have hinv := generationsInv_run h calls
  obtain ⟨⟨actor, hadmin⟩, hdocuments, hembeddings⟩ := v10AdminVersionInventory_ok hinventory
  refine ⟨?_, ?_⟩
  · intro e he havailable
    obtain ⟨g, hg, d, hd, hid, rfl⟩ := hdocuments e he
    exact canCleanup_document hinv.ledger.owned hadmin hg hd hid havailable
  · intro e he havailable
    obtain ⟨g, hg, rfl⟩ := hembeddings e he
    exact canCleanup_embedding hinv.embeddings hadmin hg havailable

/-! ## A rollback -/

/-- The one served document is to be reindexed. -/
def startedReindex : List IngestCall :=
  servedCalls ++
    [.previewReprocessing (some (.digest 1)) 40 (some .reindex)
        "embedding.qwen3-0.6b-1024.ollama.windows-x64" none,
      .issueGrant (some (.digest 1)) 40 sampleReindex (.digest 41),
      .startReprocessing (some (.digest 1)) ⟨42, 43, 44, 45⟩ 40 sampleReindex (.digest 41)]

/-- The reindex is done and its generation in use. -/
def reindexedCalls : List SystemCall :=
  startedReindex.map (fun call => .chat (.system call)) ++
    [.claimTasks ⟨"a", 60, 8, 103⟩ [], .commitTask ⟨42, 0, 103, 1, 1024⟩,
      .claimQualification "a" 60 104 [],
      .completeQualification ⟨42, 104, 1, true, true, true, true, none⟩]

/-- One question is asked. -/
def askedCalls : List SystemCall :=
  [.chat (.createChat (some (.digest 1)) 50 "Notes" "all_ready"),
    .chat (.beginTurn (some (.digest 1)) 50 "Why?" (some 52) "Why?" 51)]

/-- Back to the baseline. -/
def rollbackCall : SystemCall := .chat (.system (.rollbackEmbedding (some (.digest 1)) 1))

/-- What the administrator then reads. -/
def rolledBackInventory : VersionInventory where
  documentGenerations := []
  activeGenerationId := 1
  embeddingVersion := "embedding-v1"
  dimension := 8
  embeddingGenerations :=
    [⟨43, "qwen3-embedding-0.6b-1024", 1024, .retained, 1, some 0, true⟩,
      ⟨1, "embedding-v1", 8, .active, 1, none, false⟩]

theorem migrated_backedUpDb : Migrated backedUpDb :=
  ⟨fresh_backedUpDb, rfl, rfl, ⟨1, none, "embedding-v1", 8, .active, none, none⟩, rfl, rfl, rfl, rfl⟩

/-- Without a question in between, the generation that was rolled back can be removed. -/
theorem cleanup_exact_unasked :
    v10AdminVersionInventory (run systemStep backedUpDb (reindexedCalls ++ [rollbackCall]))
      (some (.digest 1)) = .ok (some rolledBackInventory) ∧
    CanCleanup (run systemStep backedUpDb (reindexedCalls ++ [rollbackCall])) (some (.digest 1))
      .embedding 43 := by
  have hinventory : v10AdminVersionInventory
      (run systemStep backedUpDb (reindexedCalls ++ [rollbackCall])) (some (.digest 1)) =
      .ok (some rolledBackInventory) := by decide +kernel
  have hunreferenced : Unreferenced
      (run systemStep backedUpDb (reindexedCalls ++ [rollbackCall])) 43 :=
    ⟨by decide +kernel, by decide +kernel⟩
  have hexact := (cleanup_exact migrated_backedUpDb _ hinventory).2
    ⟨43, "qwen3-embedding-0.6b-1024", 1024, .retained, 1, some 0, true⟩
    (List.mem_cons_self ..) rfl
  exact ⟨hinventory, hexact.mpr hunreferenced⟩

/-- After one question it is offered all the same, and the removal fails on the turn's key. -/
theorem cleanup_refused :
    Migrated backedUpDb ∧
    v10AdminVersionInventory
      (run systemStep backedUpDb (reindexedCalls ++ askedCalls ++ [rollbackCall]))
      (some (.digest 1)) = .ok (some rolledBackInventory) ∧
    v10AdminCleanupGeneration
      (run systemStep backedUpDb (reindexedCalls ++ askedCalls ++ [rollbackCall]))
      (some (.digest 1)) .embedding 43 =
        .error (foreignKeyViolation "fk_chat_turn_embedding_generation") ∧
    ¬ ∀ (calls : List SystemCall) (token : Option HexText) (inventory : VersionInventory),
      v10AdminVersionInventory (run systemStep backedUpDb calls) token = .ok (some inventory) →
      ∀ e ∈ inventory.embeddingGenerations, e.cleanupAvailable = true →
        CanCleanup (run systemStep backedUpDb calls) token .embedding e.generationId := by
  have hinventory : v10AdminVersionInventory
      (run systemStep backedUpDb (reindexedCalls ++ askedCalls ++ [rollbackCall]))
      (some (.digest 1)) = .ok (some rolledBackInventory) := by decide +kernel
  have hrefused : v10AdminCleanupGeneration
      (run systemStep backedUpDb (reindexedCalls ++ askedCalls ++ [rollbackCall]))
      (some (.digest 1)) .embedding 43 =
        .error (foreignKeyViolation "fk_chat_turn_embedding_generation") := by decide +kernel
  refine ⟨migrated_backedUpDb, hinventory, hrefused, fun hclaim => ?_⟩
  obtain ⟨db', h⟩ := hclaim _ _ _ hinventory
    ⟨43, "qwen3-embedding-0.6b-1024", 1024, .retained, 1, some 0, true⟩
    (List.mem_cons_self ..) rfl
  rw [hrefused] at h
  cases h

end LocalRag.Chat
