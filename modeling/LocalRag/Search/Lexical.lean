import LocalRag.Core.Aggregate
import LocalRag.Library.Browse
import LocalRag.Ingest.Versions

/-!
# Two searches — the lexical query and the vector query

`LEXICAL_SEARCH_SQL` of `app/services/search.py`, and `v10_retrieve_active_chunks`
of revision `0010`. The vector query joins a chunk to its document through the
document's active generation; the lexical query was written before there were
generations and joins on the document alone, so the rows a commit leaves behind
for the previous generation still count.

`servesRetrievable_iff` says when this shows: a page range, a `content` match or
a rank differs from what the retrievable chunks give exactly if a matching chunk
that cannot be retrieved is not covered by ones that can.

Mirroring notes. `to_tsvector('simple', t) @@ plainto_tsquery('simple', q)` and
`ts_rank_cd` of the two are PostgreSQL's and enter as a `TextSearch`; a rank is
a number of some ordered type. Which page of the rows is shown is left out. The
row-level policies of `documents` and `chunks` ask for `v4_can_read_document` of
the document, which the query asks for too. Distances between vectors enter as a
function of the embedding row.
-/

namespace LocalRag.Search

open LocalRag.Core Access Library Ingest

/-- PostgreSQL's text search under the `simple` configuration. A text that does
not match has no cover, so its cover density is 0. -/
structure TextSearch (ρ : Type) [LinearOrder ρ] [Zero ρ] where
  hits : String → String → Bool
  rank : String → String → ρ
  rank_nonneg : ∀ query text, 0 ≤ rank query text
  rank_eq_zero : ∀ query text, hits query text = false → rank query text = 0

/-- An element of `match_kinds`. -/
inductive MatchKind where
  | filename
  | path
  | content
deriving Repr, DecidableEq

structure LibrarySearchResult (ρ : Type) where
  documentId : DocumentId
  nodeId : NodeId
  filename : String
  displayName : String
  logicalPath : String
  pageStart : Option Nat
  pageEnd : Option Nat
  matchKinds : List MatchKind
  rank : ρ
deriving Repr, DecidableEq

section Lexical

variable {ρ : Type} [LinearOrder ρ] [Zero ρ]

/-! ## The lexical query -/

/-- The rows `FILTER` leaves to an aggregate. -/
def hitting (ts : TextSearch ρ) (query : String) (chunks : List Chunk) : List Chunk :=
  chunks.filter fun c => ts.hits query c.text

/-- `greatest(…)` of the three ranks. -/
def greatestRank (ts : TextSearch ρ) (query : String) (path : VisiblePath) (document : Document)
    (chunks : List Chunk) : ρ :=
  max (max (ts.rank query document.originalFilename) (ts.rank query path.logicalPath))
    ((chunks.map fun c => ts.rank query c.text).max?.getD 0)

/-- One group of `matches`, or `none` where `HAVING` drops it: a path, its document
and the chunk rows joined to it. -/
def lexicalRow (ts : TextSearch ρ) (query : String) (path : VisiblePath) (document : Document)
    (chunks : List Chunk) : Option (LibrarySearchResult ρ) :=
  let inFilename := ts.hits query document.originalFilename
  let inPath := ts.hits query path.logicalPath
  let inContent := chunks.any fun c => ts.hits query c.text
  if inFilename || inPath || inContent then
    some
      { documentId := document.id
        nodeId := path.id
        filename := document.originalFilename
        displayName := path.name
        logicalPath := path.logicalPath
        pageStart := ((hitting ts query chunks).map (·.pageStart)).min?
        pageEnd := ((hitting ts query chunks).map (·.pageEnd)).max?
        matchKinds := (if inFilename then [.filename] else []) ++
          (if inPath then [.path] else []) ++ (if inContent then [.content] else [])
        rank := greatestRank ts query path document chunks }
  else none

/-- The documents joined to a path. -/
def searchedDocuments (db : Db) (token : Option HexText) (actorId : UserId)
    (path : VisiblePath) : List Document :=
  db.content.documents.filter fun d => path.documentId = some d.id ∧ d.state = .ready ∧
    v4CurrentActorId db token = some actorId ∧ v4CanReadDocument db token d.id

/-- `LEFT JOIN chunks AS chunk ON chunk.document_id = document.id`. -/
def documentChunks (db : Db) (document : Document) : List Chunk :=
  db.content.chunks.filter fun c => c.documentId = document.id

/-- `matches`. -/
def lexicalMatches (ts : TextSearch ρ) (query : String) (db : Db) (token : Option HexText)
    (actorId : UserId) : List (LibrarySearchResult ρ) :=
  (visiblePaths db token actorId).flatMap fun path =>
    (searchedDocuments db token actorId path).filterMap fun document =>
      lexicalRow ts query path document (documentChunks db document)

end Lexical

/-! ## The vector query -/

/-- The chunk's document is served to the session, and from this chunk's generation. -/
def isServed (db : Db) (token : Option HexText) (chunk : Chunk) : Bool :=
  db.content.documents.any fun d => d.id = chunk.documentId ∧
    d.activeGenerationId = chunk.documentGenerationId ∧ d.state = .ready ∧
    v4CanReadDocument db token d.id

/-- The `FROM` and `WHERE` of the query: embedding rows of the active generation,
each with its chunk. -/
def retrievalCandidates (db : Db) (token : Option HexText) (activeDimension : Nat)
    (documentIds : Option (List DocumentId)) : List (ChunkEmbedding × Chunk) :=
  (db.reprocessing.chunkEmbeddings.filter fun item =>
      item.embeddingGenerationId = db.reprocessing.activeEmbeddingGeneration ∧
        item.dimension = activeDimension).flatMap fun item =>
    (db.content.chunks.filter fun chunk => chunk.id = item.chunkId ∧ isServed db token chunk ∧
      documentIds.all fun ids => chunk.documentId ∈ ids).map fun chunk => (item, chunk)

/-- `v10_retrieve_active_chunks`, for a query vector of `queryDimension` with these
distances to the stored ones. -/
def v10RetrieveActiveChunks {δ : Type} [LinearOrder δ] (db : Db) (token : Option HexText)
    (queryDimension : Nat) (distance : ChunkEmbedding → δ) (limit : Int)
    (documentIds : Option (List DocumentId)) : Except SqlError (List (ChunkId × δ)) :=
  if ¬ (1 ≤ limit ∧ limit ≤ 100) then .error ⟨"22023", "invalid retrieval limit"⟩
  else
    match activeEmbedding db with
    | none => .error noDataFound
    | some active =>
      if queryDimension ≠ active.dimension then
        .error ⟨"22023", "query embedding dimension does not match active generation"⟩
      else if active.dimension ≠ 1024 then
        .error ⟨"55000", "active embedding dimension is not release-qualified"⟩
      else
        let found := (retrievalCandidates db token active.dimension documentIds).map fun p =>
          (p.2.id, distance p.1)
        let ordered := found.insertionSort fun a b =>
          a.2 < b.2 ∨ a.2 = b.2 ∧ a.1 ≤ b.1
        .ok (ordered.take limit.toNat)

/-- The chunk is one the vector query can return. -/
def retrievable (db : Db) (token : Option HexText) (chunk : Chunk) : Bool :=
  isServed db token chunk && (activeEmbedding db).any fun active =>
    active.dimension = 1024 ∧ db.reprocessing.chunkEmbeddings.any fun item =>
      item.embeddingGenerationId = db.reprocessing.activeEmbeddingGeneration ∧
        item.dimension = active.dimension ∧ item.chunkId = chunk.id

/-- The document's chunks the vector query can return. -/
def retrievableChunks (db : Db) (token : Option HexText) (document : Document) : List Chunk :=
  (documentChunks db document).filter fun c => retrievable db token c

/-! ## When the two agree -/

section Agree

variable {ρ : Type} [LinearOrder ρ] [Zero ρ] {ts : TextSearch ρ} {query : String}
  {path : VisiblePath} {document : Document}

/-- The chunk adds nothing to the row these chunks give. -/
structure Covered (ts : TextSearch ρ) (query : String) (path : VisiblePath) (document : Document)
    (chunks : List Chunk) (x : Chunk) : Prop where
  start : ∃ y ∈ chunks, ts.hits query y.text = true ∧ y.pageStart ≤ x.pageStart
  stop : ∃ y ∈ chunks, ts.hits query y.text = true ∧ x.pageEnd ≤ y.pageEnd
  rank : ts.rank query x.text ≤ ts.rank query document.originalFilename ∨
    ts.rank query x.text ≤ ts.rank query path.logicalPath ∨
    ∃ y ∈ chunks, ts.rank query x.text ≤ ts.rank query y.text

theorem covered_self {chunks : List Chunk} {x : Chunk} (hx : x ∈ chunks)
    (hhit : ts.hits query x.text = true) : Covered ts query path document chunks x :=
  ⟨⟨x, hx, hhit, le_rfl⟩, ⟨x, hx, hhit, le_rfl⟩, Or.inr (Or.inr ⟨x, hx, le_rfl⟩)⟩

theorem mem_hitting {chunks : List Chunk} {x : Chunk} :
    x ∈ hitting ts query chunks ↔ x ∈ chunks ∧ ts.hits query x.text = true :=
  List.mem_filter

variable {kept all : List Chunk}

theorem hitting_subset (hsub : kept ⊆ all) : hitting ts query kept ⊆ hitting ts query all := by
  intro x hx
  rw [mem_hitting] at hx ⊢
  exact ⟨hsub hx.1, hx.2⟩

theorem pageStart_eq_iff (hsub : kept ⊆ all) :
    ((hitting ts query kept).map (·.pageStart)).min? =
        ((hitting ts query all).map (·.pageStart)).min? ↔
      ∀ x ∈ all, ts.hits query x.text = true →
        ∃ y ∈ kept, ts.hits query y.text = true ∧ y.pageStart ≤ x.pageStart := by
  rw [min?_map_eq_iff (hitting_subset hsub)]
  simp only [mem_hitting, and_assoc, and_imp]

theorem pageEnd_eq_iff (hsub : kept ⊆ all) :
    ((hitting ts query kept).map (·.pageEnd)).max? =
        ((hitting ts query all).map (·.pageEnd)).max? ↔
      ∀ x ∈ all, ts.hits query x.text = true →
        ∃ y ∈ kept, ts.hits query y.text = true ∧ x.pageEnd ≤ y.pageEnd := by
  rw [max?_map_eq_iff (hitting_subset hsub)]
  simp only [mem_hitting, and_assoc, and_imp]

/-- Only a hit can raise the rank: the others rank 0. -/
theorem greatestRank_eq_iff (hsub : kept ⊆ all) :
    greatestRank ts query path document kept = greatestRank ts query path document all ↔
      ∀ x ∈ all, ts.hits query x.text = true →
        ts.rank query x.text ≤ ts.rank query document.originalFilename ∨
        ts.rank query x.text ≤ ts.rank query path.logicalPath ∨
        ∃ y ∈ kept, ts.rank query x.text ≤ ts.rank query y.text := by
  have hbase : 0 ≤ max (ts.rank query document.originalFilename)
      (ts.rank query path.logicalPath) := le_max_of_le_left (ts.rank_nonneg _ _)
  unfold greatestRank
  rw [greatest_eq_iff hsub _ hbase]
  simp only [le_max_iff, or_assoc]
  refine forall₂_congr fun x hx => ⟨fun h _ => h, fun h => ?_⟩
  cases hhit : ts.hits query x.text with
  | true => exact h hhit
  | false =>
    rw [ts.rank_eq_zero _ _ hhit]
    exact Or.inl (ts.rank_nonneg _ _)

/-- Leaving chunks out changes nothing iff every hit is covered by those kept. -/
theorem lexicalRow_eq_iff (hsub : kept ⊆ all) :
    lexicalRow ts query path document kept = lexicalRow ts query path document all ↔
      ∀ x ∈ all, ts.hits query x.text = true → Covered ts query path document kept x := by
  constructor
  · intro heq x hx hhit
    have hany : all.any (fun c => ts.hits query c.text) = true :=
      List.any_eq_true.mpr ⟨x, hx, hhit⟩
    simp only [lexicalRow, hany, Bool.or_true, if_true] at heq
    split at heq
    · simp only [Option.some.injEq, LibrarySearchResult.mk.injEq] at heq
      obtain ⟨_, _, _, _, _, hstart, hstop, _, hrank⟩ := heq
      exact ⟨(pageStart_eq_iff hsub).mp hstart x hx hhit, (pageEnd_eq_iff hsub).mp hstop x hx hhit,
        (greatestRank_eq_iff hsub).mp hrank x hx hhit⟩
    · cases heq
  · intro hcov
    have hany : kept.any (fun c => ts.hits query c.text) =
        all.any (fun c => ts.hits query c.text) := by
      rw [Bool.eq_iff_iff, List.any_eq_true, List.any_eq_true]
      constructor
      · intro hex
        obtain ⟨x, hx, hhit⟩ := hex
        exact ⟨x, hsub hx, hhit⟩
      · intro hex
        obtain ⟨x, hx, hhit⟩ := hex
        obtain ⟨y, hy, hyhit, _⟩ := (hcov x hx hhit).start
        exact ⟨y, hy, hyhit⟩
    have hstart := (pageStart_eq_iff hsub).mpr fun x hx hhit => (hcov x hx hhit).start
    have hstop := (pageEnd_eq_iff hsub).mpr fun x hx hhit => (hcov x hx hhit).stop
    have hrank := (greatestRank_eq_iff hsub).mpr fun x hx hhit => (hcov x hx hhit).rank
    simp only [lexicalRow]
    rw [hany, hstart, hstop, hrank]

/-- Every row of the lexical search is what the document's retrievable chunks alone
give: the same kinds of match, pages and rank, and no row where they give none. -/
def ServesRetrievable (ts : TextSearch ρ) (query : String) (db : Db) (token : Option HexText)
    (actorId : UserId) : Prop :=
  ∀ path ∈ visiblePaths db token actorId, ∀ document ∈ searchedDocuments db token actorId path,
    lexicalRow ts query path document (documentChunks db document) =
      lexicalRow ts query path document (retrievableChunks db token document)

instance (ts : TextSearch ρ) (query : String) (db : Db) (token : Option HexText)
    (actorId : UserId) : Decidable (ServesRetrievable ts query db token actorId) :=
  inferInstanceAs (Decidable (∀ path ∈ visiblePaths db token actorId,
    ∀ document ∈ searchedDocuments db token actorId path,
      lexicalRow ts query path document (documentChunks db document) =
        lexicalRow ts query path document (retrievableChunks db token document)))

/-- The lexical search shows what the vector search can find iff no chunk that matches
and cannot be retrieved sticks out of the retrievable ones. -/
theorem servesRetrievable_iff (ts : TextSearch ρ) (query : String) (db : Db)
    (token : Option HexText) (actorId : UserId) :
    ServesRetrievable ts query db token actorId ↔
      ∀ path ∈ visiblePaths db token actorId,
        ∀ document ∈ searchedDocuments db token actorId path,
        ∀ x ∈ db.content.chunks, x.documentId = document.id → retrievable db token x = false →
          ts.hits query x.text = true →
          Covered ts query path document (retrievableChunks db token document) x := by
  refine forall₄_congr fun path _ document _ => ?_
  have hsub : retrievableChunks db token document ⊆ documentChunks db document :=
    List.filter_subset_self _
  rw [eq_comm, lexicalRow_eq_iff hsub]
  constructor
  · intro hcov x hx hof _ hhit
    exact hcov x (List.mem_filter.mpr ⟨hx, decide_eq_true hof⟩) hhit
  · intro hcov x hx hhit
    obtain ⟨hmem, hof⟩ := List.mem_filter.mp hx
    cases hret : retrievable db token x with
    | true => exact covered_self (List.mem_filter.mpr ⟨hx, hret⟩) hhit
    | false => exact hcov x hmem (of_decide_eq_true hof) hret hhit

end Agree

/-! ## A text that was replaced -/

/-- The words of a text, as the `simple` configuration folds them. -/
def words (text : String) : List (List Char) :=
  ((text.toList.map Char.toLower).splitOnP (· = ' ')).filter (· ≠ [])

/-- Text search over words parted by blanks, ranked in tenths. -/
def wordSearch : TextSearch Nat where
  hits query text := words query ≠ [] ∧ ∀ w ∈ words query, w ∈ words text
  rank query text :=
    if words query ≠ [] ∧ ∀ w ∈ words query, w ∈ words text then
      (words text).countP (· ∈ words query)
    else 0
  rank_nonneg _ _ := Nat.zero_le _
  rank_eq_zero _ _ h := if_neg (of_decide_eq_false h)

/-- An installation whose embedding generation has the qualified dimension. -/
def qualifiedDb : Db :=
  { backedUpDb with
    reprocessing.embeddingGenerations := [⟨1, none, "embedding-v1", 1024, .active, none, none⟩] }

/-- The sample document with this text on its one page. -/
def pageWorld (text : String) : World :=
  { sampleWorld with
    reader := some [⟨text, .direct⟩]
    sha256Text := fun t => .digest (t.toList.foldl (fun n c => 256 * n + c.toNat) 0)
    uuid5 := fun identity => match identity.textSha256 with
      | .digest n => n + identity.ordinal
      | .other _ => 0
    embed := fun texts _ => .ok (texts.map fun _ => 1024) }

/-- The settings of the parser the reingestion targets. -/
def adaptiveSettings : ProcessorSettings :=
  { sampleSettings with
    parserVersion := "pypdf+paddleocr-vl-v1.6-adaptive-v2"
    chunkingVersion := "fragment-paragraph-sentence-v2" }

/-- What the worker makes of that page. -/
def pagePayload (text : String) (settings : ProcessorSettings) : ProcessedIngestion where
  pageCount := 1
  chunks := [{
    id := text.toList.foldl (fun n c => 256 * n + c.toNat) 0
    ordinal := 0, pageStart := 1, pageEnd := 1, sectionName := none, text := text
    tokenCount := 1
    textSha256 := .digest (text.toList.foldl (fun n c => 256 * n + c.toNat) 0)
    sourceSha256 := .digest 7, parseMethod := .direct
    parserVersion := settings.parserVersion, chunkingVersion := settings.chunkingVersion
    embeddingVersion := settings.embeddingVersion, schemaVersion := settings.schemaVersion
    highlightAnchor := "", dimension := 1024 }]

/-- The lease of the reingestion's job. -/
def reingestClaim : JobClaim :=
  { sampleClaim 1 with
    jobId := 45
    leaseToken := 102
    parserVersion := adaptiveSettings.parserVersion
    chunkingVersion := adaptiveSettings.chunkingVersion }

/-- The document is ingested as "old" and reingested as "new". -/
def replacedCalls : List IngestCall :=
  [.library (.uploadPreflight (some (.digest 1)) 20 (sampleUpload 7 none "a.pdf")),
    .library (.commitUpload (some (.digest 1)) 20 ⟨30, 31, 32, 33, 34⟩
      (sampleUpload 7 none "a.pdf")),
    .job (.claim "a" 60 101 []),
    .job (.commit ⟨31, 101, 1, 1, (pagePayload "old" sampleSettings).chunks⟩)] ++ reingestCalls ++
    [.job (.commit ⟨45, 102, 1, 1, (pagePayload "new" adaptiveSettings).chunks⟩)]

/-- The state after them. -/
def replacedDb : Db := run ingestStep qualifiedDb replacedCalls

/-- A search for the replaced text still reports the document, its page and a rank,
while the only chunk the vector search can return is the new one. -/
theorem superseded_text_reported :
    Ingest.Fresh qualifiedDb ∧ (∀ call ∈ replacedCalls, FromWorker call) ∧
    lexicalMatches wordSearch "old" replacedDb (some (.digest 1)) 1 =
      [⟨30, 32, "a.pdf", "a.pdf", "/a.pdf", some 1, some 1, [.content], 1⟩] ∧
    (replacedDb.content.chunks.filter (retrievable replacedDb (some (.digest 1)))).map (·.text) =
      ["new"] ∧
    ¬ ServesRetrievable wordSearch "old" replacedDb (some (.digest 1)) 1 := by
  refine ⟨⟨⟨installed_sampleDb.users, rfl, rfl, rfl, rfl, rfl, rfl, rfl⟩, rfl⟩, ?_,
    by decide +kernel, by decide +kernel, by decide +kernel⟩
  intro call hcall
  simp only [replacedCalls, reingestCalls, List.cons_append, List.nil_append, List.mem_cons,
    List.not_mem_nil, or_false] at hcall
  rcases hcall with rfl | rfl | rfl | rfl | rfl | rfl | rfl | rfl | rfl
  · trivial
  · trivial
  · trivial
  · exact ⟨pageWorld "old", sampleSettings, sampleClaim 1, Reports.start,
      pagePayload "old" sampleSettings, _, rfl, rfl, rfl⟩
  · trivial
  · trivial
  · trivial
  · trivial
  · exact ⟨pageWorld "new", adaptiveSettings, reingestClaim, Reports.start,
      pagePayload "new" adaptiveSettings, _, rfl, rfl, rfl⟩

end LocalRag.Search
