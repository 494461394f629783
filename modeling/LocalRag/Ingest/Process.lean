import LocalRag.Core.Gen
import LocalRag.Ingest.Jobs

/-!
# One ingestion attempt — what the worker reports while it works

`PdfParser.parse` of `services/parsing/pdf.py`, `DocumentChunker.chunk` of
`services/chunking.py` and `IngestionProcessor.process` of
`services/ingestion.py`, as the sequence of progress calls they make and the
payload they end with.

Everything outside this process answers through `World`: the materializer, what
pypdf and the page routing say about each page, the OCR service, the packing of
a page into chunk texts, the embedder, and the progress callback itself, which
raises when the database answered `stale`. A body that raises has made the calls
it made so far, which is what `Core.Gen` keeps.

`process_wellReported` is the fact the database's filter relies on: whatever the
world answers, the calls are valid and never go back (`ProgressCall.le`). It is
proved by one rule per statement with `UpTo c`: everything reported so far is at
most `c`.

Mirroring notes. The routing scores are floating point and enter as the mode
they choose; vectors enter as their dimension. The extracted text is measured
after each page in the source and once per batch here: the sum only grows and
both raise the same error.
-/

namespace LocalRag.Ingest

open LocalRag.Core

/-- One call of the progress callback. -/
structure ProgressCall where
  stage : DocumentState
  completed : Nat
  total : Nat
deriving Repr, DecidableEq

/-- The exceptions an attempt ends with. -/
inductive ProcessError where
  | pdfParsing (message : String)
  | workLimit (code message : String)
  | ocr (message : String)
  | embedding (message : String)
  | objectStore (message : String)
  | runtime (message : String)
  | staleClaim
deriving Repr, DecidableEq

/-- `PageRoutingMode`. -/
inductive PageRoutingMode where
  | direct
  | ocr
  | hybrid
deriving Repr, DecidableEq

/-- `OcrMode`. -/
inductive OcrMode where
  | fullPage
  | visualSupplement
deriving Repr, DecidableEq

/-- A page as pypdf and the routing see it. -/
structure PageInput where
  text : String
  mode : PageRoutingMode
deriving Repr, DecidableEq

/-- A page the OCR service returned. -/
structure OcrPage where
  pageNumber : Nat
  text : String
  blocks : List String
deriving Repr, DecidableEq

/-- `ParsedOcrBatch`: the pages under their keys, and the staged bytes. -/
structure OcrBatch where
  pages : List (Nat × OcrPage)
  stagedBytes : Int
deriving Repr, DecidableEq

/-- `ParsedPage`. -/
structure ParsedPage where
  pageNumber : Nat
  text : String
  parseMethod : ParseMethod
  mode : PageRoutingMode
  fragments : List (ParseMethod × String)
deriving Repr, DecidableEq

/-- A packed text of a page, before it gets its ordinal. -/
structure ChunkPiece where
  pageNumber : Nat
  text : String
  sectionName : Option String
  tokenCount : Nat
  parseMethod : ParseMethod
  highlightAnchor : String
deriving Repr, DecidableEq

/-- What `chunk_uuid` joins into the name it hashes. -/
structure ChunkIdentity where
  documentId : DocumentId
  ordinal : Nat
  pageNumber : Nat
  textSha256 : HexText
  schemaVersion : String
deriving Repr, DecidableEq

/-- Everything an attempt is answered by. -/
structure World where
  materialize : Except ProcessError Unit
  /-- The pages of `PdfReader`, or an unreadable file. -/
  reader : Option (List PageInput)
  /-- The OCR service, for a mode, a batch and an attempt. -/
  parsePages : OcrMode → List Nat → Nat → Except ProcessError OcrBatch
  /-- The normalized block occurs in the normalized direct text. -/
  repeatsDirect : String → String → Bool
  /-- The packed texts of a page. -/
  pack : ParsedPage → List ChunkPiece
  sha256Text : String → HexText
  uuid5 : ChunkIdentity → ChunkId
  /-- The embedder, for a batch of texts and an attempt: the dimensions. -/
  embed : List String → Nat → Except ProcessError (List Nat)
  /-- The callback's answer to the last of these calls. -/
  answer : List ProgressCall → Except ProcessError Unit

/-- The configuration of a processor, within the bounds its constructors and the
worker's settings check. -/
structure ProcessorSettings where
  ocrBatchSize : Nat
  maximumPdfPages : Nat
  maximumOcrPages : Nat
  maximumExtractedTextCharacters : Nat
  maximumStagedOcrResultBytes : Int
  maximumDocumentChunks : Nat
  embeddingBatchSize : Nat
  externalBatchMaxAttempts : Nat
  parserVersion : String
  chunkingVersion : String
  embeddingVersion : String
  schemaVersion : String
  ocrBatchSize_pos : 1 ≤ ocrBatchSize
  embeddingBatchSize_pos : 1 ≤ embeddingBatchSize
  maximumOcrPages_le : maximumOcrPages ≤ 100000
  maximumDocumentChunks_le : maximumDocumentChunks ≤ 100000

/-- The calls made so far and the processor's `parsing_batches_reported`. -/
structure Reports where
  calls : List ProgressCall
  parsingBatchesReported : Bool
deriving Repr, DecidableEq

/-- Nothing reported yet. -/
def Reports.start : Reports := ⟨[], false⟩

/-- A statement of the attempt. -/
abbrev Work := Gen Reports ProcessError

/-- An outside call that reports nothing. -/
def await {α : Type} (r : Except ProcessError α) : Work α := fun s => (r, s)

/-- `await progress(stage, completed, total)`. -/
def progress (w : World) (stage : DocumentState) (completed total : Nat) : Work Unit := fun s =>
  let calls := s.calls ++ [⟨stage, completed, total⟩]
  (w.answer calls, { s with calls := calls })

/-- The parser's callback, which also sets the flag. -/
def parsingProgress (w : World) (completed total : Nat) : Work Unit := fun s =>
  progress w .parsing completed total { s with parsingBatchesReported := true }

/-- `if not parsing_batches_reported: …`. -/
def unlessReported (m : Work Unit) : Work Unit := fun s =>
  if s.parsingBatchesReported then (.ok (), s) else m s

/-- `[values[i : i + size] for i in range(0, len(values), size)]`. -/
def batches {α : Type} (size : Nat) (values : List α) : List (List α) :=
  (List.range ((values.length + (size - 1)) / size)).map fun i =>
    (values.drop (i * size)).take size

/-- `for attempt in range(1, n + 1)`: retry one kind of error, then give up. -/
def retrying {α : Type} (retried : ProcessError → Bool) (giveUp : ProcessError)
    (call : Nat → Except ProcessError α) : Nat → Nat → Except ProcessError α
  | 0, _ => .error giveUp
  | n + 1, attempt =>
    match call attempt with
    | .ok a => .ok a
    | .error e => if retried e then retrying retried giveUp call n (attempt + 1) else .error e

/-! ## Parsing -/

/-- The checks on what the OCR service returned for a batch. -/
def checkedBatch (pages : List Nat) (batch : OcrBatch) : Except ProcessError OcrBatch :=
  if batch.pages.map (·.1) ≠ pages ∨ batch.pages.any fun p => p.2.pageNumber ≠ p.1 then
    .error (.ocr "OCR batch did not return every expected page exactly once")
  else if batch.stagedBytes < 0 then
    .error (.ocr "OCR batch returned an invalid staged byte count")
  else .ok batch

/-- `PdfParser._parse_ocr_batch`. -/
def parseOcrBatch (w : World) (settings : ProcessorSettings) (mode : OcrMode) (pages : List Nat) :
    Except ProcessError OcrBatch :=
  retrying (fun e => e matches .ocr _) (.ocr "OCR batch failed after bounded retries")
    (fun attempt =>
      match w.parsePages mode pages attempt with
      | .error e => .error e
      | .ok batch => checkedBatch pages batch)
    settings.externalBatchMaxAttempts 1

/-- The accumulators of the batch loop. -/
structure OcrProgress where
  results : List (Nat × OcrPage)
  completedPages : Nat
  stagedBytes : Int
  cumulativeText : Nat
deriving Repr, DecidableEq

/-- The batch loop of `PdfParser.parse`. -/
def ocrLoop (w : World) (settings : ProcessorSettings) (selectedOcrPages : Nat) :
    List (OcrMode × List Nat) → OcrProgress → Work OcrProgress
  | [], st => pure st
  | (mode, batch) :: rest, st => do
    let parsed ← await (parseOcrBatch w settings mode batch)
    let staged := st.stagedBytes + parsed.stagedBytes
    if settings.maximumStagedOcrResultBytes < staged then
      throw (.workLimit "ocr_result_bytes_limit_exceeded"
        "OCR results exceed the configured staging limit")
    else
      let cumulative := st.cumulativeText + (parsed.pages.map fun p => p.2.text.length).sum
      if settings.maximumExtractedTextCharacters < cumulative then
        throw (.workLimit "extracted_text_limit_exceeded"
          "PDF text exceeds the configured processing limit")
      else do
        parsingProgress w (st.completedPages + batch.length) selectedOcrPages
        ocrLoop w settings selectedOcrPages rest
          ⟨st.results ++ parsed.pages, st.completedPages + batch.length, staged, cumulative⟩

/-- The numbers of the pages routed to a mode. -/
def pagesOfMode (mode : PageRoutingMode) (pages : List PageInput) : List Nat :=
  (pages.zipIdx 1).filterMap fun p => if p.1.mode = mode then some p.2 else none

/-- `_hybrid_page`. -/
def hybridPage (w : World) (number : Nat) (text : String) (ocrPage : OcrPage) : ParsedPage :=
  let unique := ocrPage.blocks.filter fun block => ¬ w.repeatsDirect block text
  { pageNumber := number
    text := text
    parseMethod := .direct
    mode := .hybrid
    fragments := (.direct, text) ::
      (if unique = [] then [] else [(.ocr, "\n\n".intercalate unique)]) }

/-- The page of the result. -/
def parsedPage (w : World) (results : List (Nat × OcrPage)) (number : Nat) (page : PageInput) :
    Except ProcessError ParsedPage :=
  match page.mode, results.lookup number with
  | .direct, _ => .ok ⟨number, page.text, .direct, .direct, []⟩
  | .ocr, some source => .ok ⟨number, source.text, .ocr, .ocr, []⟩
  | .hybrid, some source => .ok (hybridPage w number page.text source)
  | _, none => .error (.runtime "KeyError")

/-- `PdfParser.parse`. -/
def parse (w : World) (settings : ProcessorSettings) : Work (List ParsedPage) :=
  match w.reader with
  | none => throw (.pdfParsing "unable to read PDF")
  | some pages =>
    let fullOcrPages := pagesOfMode .ocr pages
    let hybridPages := pagesOfMode .hybrid pages
    let selectedOcrPages := fullOcrPages.length + hybridPages.length
    let extracted := (pages.map fun p => p.text.length).sum
    if settings.maximumPdfPages < pages.length then
      throw (.workLimit "pdf_page_limit_exceeded"
        s!"PDF exceeds the {settings.maximumPdfPages}-page processing limit")
    else if settings.maximumExtractedTextCharacters < extracted then
      throw (.workLimit "extracted_text_limit_exceeded"
        "PDF extracted text exceeds the configured processing limit")
    else if settings.maximumOcrPages < selectedOcrPages then
      throw (.workLimit "ocr_page_limit_exceeded"
        s!"PDF requires OCR for more than the configured {settings.maximumOcrPages}-page limit")
    else do
      let st ← ocrLoop w settings selectedOcrPages
        ((batches settings.ocrBatchSize fullOcrPages).map (OcrMode.fullPage, ·) ++
          (batches settings.ocrBatchSize hybridPages).map (OcrMode.visualSupplement, ·))
        ⟨[], 0, 0, extracted⟩
      await ((pages.zipIdx 1).mapM fun p => parsedPage w st.results p.2 p.1)

/-! ## Chunking and embedding -/

/-- `DocumentChunker.chunk`: the ordinal counts across the pages. -/
def chunk (w : World) (settings : ProcessorSettings) (pages : List ParsedPage)
    (documentId : DocumentId) (sourceSha256 : HexText) (dimension : Nat → Nat) :
    List IngestedChunk :=
  (pages.flatMap w.pack).mapIdx fun ordinal piece =>
    { id := w.uuid5 ⟨documentId, ordinal, piece.pageNumber, w.sha256Text piece.text,
        settings.schemaVersion⟩
      ordinal := ordinal
      pageStart := piece.pageNumber
      pageEnd := piece.pageNumber
      sectionName := piece.sectionName
      text := piece.text
      tokenCount := piece.tokenCount
      textSha256 := w.sha256Text piece.text
      sourceSha256 := sourceSha256
      parseMethod := piece.parseMethod
      parserVersion := settings.parserVersion
      chunkingVersion := settings.chunkingVersion
      embeddingVersion := settings.embeddingVersion
      schemaVersion := settings.schemaVersion
      highlightAnchor := piece.highlightAnchor
      dimension := dimension ordinal }

/-- `IngestionProcessor._embed_batch`. -/
def embedBatch (w : World) (settings : ProcessorSettings) (texts : List String) :
    Except ProcessError (List Nat) :=
  retrying (fun e => e matches .embedding _)
    (.embedding "embedding batch failed after bounded retries") (w.embed texts)
    settings.externalBatchMaxAttempts 1

/-- The embedding loop of `process`. -/
def embedLoop (w : World) (settings : ProcessorSettings) (count : Nat) :
    List (List String) → List Nat → Work (List Nat)
  | [], vectors => pure vectors
  | batch :: rest, vectors => do
    let embedded ← await (embedBatch w settings batch)
    if embedded.length ≠ batch.length then
      throw (.embedding "embedding batch returned an unexpected result count")
    else do
      progress w .embedding (vectors ++ embedded).length count
      embedLoop w settings count rest (vectors ++ embedded)

/-- `ProcessedIngestion`. -/
structure ProcessedIngestion where
  pageCount : Nat
  chunks : List IngestedChunk
deriving Repr, DecidableEq

/-- The part of `process` after the document is chunked into `texts`. -/
def embedAll (w : World) (settings : ProcessorSettings) (texts : List String) : Work (List Nat) :=
  if texts = [] then throw (.runtime "document produced no searchable text chunks")
  else if settings.maximumDocumentChunks < texts.length then
    throw (.workLimit "chunk_limit_exceeded"
      s!"Document produces more than the configured {settings.maximumDocumentChunks}-chunk limit")
  else do
    progress w .chunking 1 1
    progress w .embedding 0 texts.length
    let vectors ← embedLoop w settings texts.length (batches settings.embeddingBatchSize texts) []
    if texts.length ≠ vectors.length then
      throw (.runtime "embedding count does not match chunk count")
    else do
      progress w .indexing 0 texts.length
      pure vectors

/-- `IngestionProcessor.process`. -/
def process (w : World) (settings : ProcessorSettings) (claim : JobClaim) :
    Work ProcessedIngestion := do
  progress w .parsing 0 1
  await w.materialize
  let pages ← parse w settings
  unlessReported (progress w .parsing 1 1)
  progress w .chunking 0 1
  let vectors ← embedAll w settings ((pages.flatMap w.pack).map (·.text))
  pure ⟨pages.length, chunk w settings pages claim.documentId claim.sha256 fun i => vectors.getD i 0⟩

/-! ## The calls never go back -/

/-- The function's own check of its arguments passes. -/
def ProgressCall.valid (c : ProgressCall) : Bool :=
  c.stage ∈ [.parsing, .chunking, .embedding, .indexing] ∧ 1 ≤ c.total ∧ c.total ≤ 1000000 ∧
    c.completed ≤ c.total

/-- `b` does not go back behind `a`: a later stage, or the same one with no fewer
units done and no fewer in all. -/
def ProgressCall.le (a b : ProgressCall) : Prop :=
  stageRank a.stage < stageRank b.stage ∨
    (stageRank a.stage = stageRank b.stage ∧ a.completed ≤ b.completed ∧ a.total ≤ b.total)

theorem ProgressCall.le_refl (a : ProgressCall) : a.le a :=
  Or.inr ⟨rfl, Nat.le_refl _, Nat.le_refl _⟩

/-- A call of a later stage, whatever its units. -/
theorem ProgressCall.le_of_stage {s t : DocumentState} (h : stageRank s < stageRank t)
    (a b a' b' : Nat) : ProgressCall.le ⟨s, a, b⟩ ⟨t, a', b'⟩ := Or.inl h

variable {b : ProgressCall}

variable {c : ProgressCall}

theorem ProgressCall.le_trans {a : ProgressCall} (hab : a.le b) (hbc : b.le c) : a.le c := by
  unfold ProgressCall.le at *
  omega

/-- The calls are valid and in order. -/
structure WellReported (s : Reports) : Prop where
  valid : ∀ c ∈ s.calls, c.valid = true
  ordered : s.calls.Pairwise ProgressCall.le

/-- So far the calls are well reported, and none is past `c`. -/
structure UpTo (c : ProgressCall) (s : Reports) : Prop where
  well : WellReported s
  le : ∀ b ∈ s.calls, b.le c

variable {s : Reports}

theorem UpTo.mono (h : UpTo b s) (hbc : b.le c) : UpTo c s :=
  ⟨h.well, fun a ha => ProgressCall.le_trans (h.le a ha) hbc⟩

theorem upTo_start (c : ProgressCall) : UpTo c Reports.start :=
  ⟨⟨by simp [Reports.start], by simp [Reports.start]⟩, by simp [Reports.start]⟩

/-- The rule for a call: it is past nothing reported so far. -/
theorem UpTo.report (h : UpTo b s) (hbc : b.le c) (hc : c.valid = true) (flag : Bool) :
    UpTo c ⟨s.calls ++ [c], flag⟩ := by
  have hle : ∀ a ∈ s.calls, a.le c := fun a ha => ProgressCall.le_trans (h.le a ha) hbc
  refine ⟨⟨?_, ?_⟩, ?_⟩
  · intro a ha
    rcases List.mem_append.mp ha with ha | ha
    · exact h.well.valid a ha
    · rw [List.mem_singleton.mp ha]
      exact hc
  · refine List.pairwise_append.mpr ⟨h.well.ordered, List.pairwise_singleton _ _, ?_⟩
    intro a ha x hx
    rw [List.mem_singleton.mp hx]
    exact hle a ha
  · intro a ha
    rcases List.mem_append.mp ha with ha | ha
    · exact hle a ha
    · rw [List.mem_singleton.mp ha]
      exact ProgressCall.le_refl c

variable {w : World} {total : Nat}

theorem progress_upTo {stage : DocumentState} {completed : Nat}
    (hbc : b.le ⟨stage, completed, total⟩)
    (hc : ProgressCall.valid ⟨stage, completed, total⟩ = true) :
    Spec (UpTo b) (progress w stage completed total)
      (fun _ => UpTo ⟨stage, completed, total⟩) (fun _ => WellReported) := by
  refine ⟨fun s hs => ?_⟩
  have hup := hs.report hbc hc s.parsingBatchesReported
  unfold progress
  dsimp only
  cases w.answer (s.calls ++ [⟨stage, completed, total⟩]) with
  | ok u => exact hup
  | error e => exact hup.well

theorem parsingProgress_upTo {completed : Nat} (hbc : b.le ⟨.parsing, completed, total⟩)
    (hc : ProgressCall.valid ⟨.parsing, completed, total⟩ = true) :
    Spec (UpTo b) (parsingProgress w completed total)
      (fun _ s => UpTo ⟨.parsing, completed, total⟩ s ∧ s.parsingBatchesReported = true)
      (fun _ => WellReported) := by
  refine ⟨fun s hs => ?_⟩
  have hup := hs.report hbc hc true
  unfold parsingProgress progress
  dsimp only
  cases w.answer (s.calls ++ [⟨.parsing, completed, total⟩]) with
  | ok u => exact ⟨hup, rfl⟩
  | error e => exact hup.well

variable {α : Type}

/-- An outside call leaves the reports as they are. -/
theorem await_spec {r : Except ProcessError α} {P : Reports → Prop}
    (hP : ∀ s, P s → WellReported s) :
    Spec P (await r) (fun a s => P s ∧ r = .ok a) (fun _ => WellReported) := by
  refine ⟨fun s hs => ?_⟩
  cases r with
  | ok a => exact ⟨hs, rfl⟩
  | error e => exact hP s hs

/-- Parsing has come to `c`; as long as the parser has reported no batch, only the
first call was made. -/
structure ParsingAt (c : ProgressCall) (s : Reports) : Prop where
  upTo : UpTo c s
  first : s.parsingBatchesReported = false → UpTo ⟨.parsing, 0, 1⟩ s

/-- The batches put together are the list. -/
theorem flatten_batches {size : Nat} (hsize : 1 ≤ size) (values : List α) :
    (batches size values).flatten = values := by
  have htake : ∀ k, ((List.range k).map fun i => (values.drop (i * size)).take size).flatten =
      values.take (k * size) := by
    intro k
    induction k with
    | zero => simp
    | succ k ih =>
      rw [List.range_succ, List.map_append, List.flatten_append, ih, Nat.succ_mul, List.take_add]
      simp
  rw [batches, htake]
  refine List.take_of_length_le ?_
  -- rounding up leaves no rest
  have hdiv := Nat.div_add_mod (values.length + (size - 1)) size
  have hmod := Nat.mod_lt (values.length + (size - 1)) hsize
  rw [Nat.mul_comm]
  omega

theorem length_batches {size : Nat} (hsize : 1 ≤ size) (values : List α) :
    ((batches size values).map List.length).sum = values.length := by
  rw [← List.length_flatten, flatten_batches hsize]

/-- The batch loop reports the pages done so far, out of all that were selected. -/
theorem ocrLoop_parsingAt (w : World) (settings : ProcessorSettings) (hlo : 1 ≤ total)
    (hhi : total ≤ 1000000) (todo : List (OcrMode × List Nat)) (st : OcrProgress)
    (hsum : st.completedPages + (todo.map fun p => p.2.length).sum = total) :
    Spec (ParsingAt ⟨.parsing, st.completedPages, total⟩) (ocrLoop w settings total todo st)
      (fun _ => ParsingAt ⟨.parsing, total, total⟩) (fun _ => WellReported) := by
  induction todo generalizing st with
  | nil =>
    have hdone : st.completedPages = total := by simpa using hsum
    rw [hdone]
    exact Spec.pure fun _ hs => hs
  | cons head rest ih =>
    obtain ⟨mode, batch⟩ := head
    rw [List.map_cons, List.sum_cons] at hsum
    dsimp only at hsum
    unfold ocrLoop
    refine Spec.bind (await_spec fun _ hs => hs.upTo.well) fun parsed => ?_
    refine Spec.assume fun _ => ?_
    dsimp only
    split
    · exact Spec.throw fun _ hs => hs.upTo.well
    split
    · exact Spec.throw fun _ hs => hs.upTo.well
    have hle : ProgressCall.le ⟨.parsing, st.completedPages, total⟩
        ⟨.parsing, st.completedPages + batch.length, total⟩ :=
      Or.inr ⟨rfl, Nat.le_add_right _ _, Nat.le_refl _⟩
    have hvalid : ProgressCall.valid ⟨.parsing, st.completedPages + batch.length, total⟩ = true := by
      simp only [ProgressCall.valid, List.mem_cons, decide_eq_true_eq, true_or, true_and]
      omega
    refine Spec.bind (Spec.conseq (parsingProgress_upTo hle hvalid) (fun _ hs => hs.upTo)
      (fun _ _ hs => hs) fun _ _ hs => hs) fun _ => ?_
    refine Spec.conseq (ih ⟨st.results ++ parsed.pages, st.completedPages + batch.length, _, _⟩
      (by dsimp only; omega)) ?_ (fun _ _ hs => hs) fun _ _ hs => hs
    intro s hs
    exact ⟨hs.1, fun hf => absurd hs.2 (by simp [hf])⟩

theorem parse_parsingAt (w : World) (settings : ProcessorSettings) :
    Spec (ParsingAt ⟨.parsing, 0, 1⟩) (parse w settings)
      (fun _ => ParsingAt ⟨.chunking, 0, 1⟩) (fun _ => WellReported) := by
  have hlater : ∀ {done total : Nat} {s : Reports}, ParsingAt ⟨.parsing, done, total⟩ s →
      ParsingAt ⟨.chunking, 0, 1⟩ s :=
    fun hs => ⟨hs.upTo.mono (ProgressCall.le_of_stage (by decide) _ _ _ _), hs.first⟩
  unfold parse
  split
  · exact Spec.throw fun _ hs => hs.upTo.well
  next pages _ =>
    dsimp only
    split
    · exact Spec.throw fun _ hs => hs.upTo.well
    split
    · exact Spec.throw fun _ hs => hs.upTo.well
    split
    · exact Spec.throw fun _ hs => hs.upTo.well
    next hocr =>
      set total := (pagesOfMode .ocr pages).length + (pagesOfMode .hybrid pages).length with htotal
      have hend : ∀ (results : List (Nat × OcrPage)) {done all : Nat},
          Spec (ParsingAt ⟨.parsing, done, all⟩)
            (await ((pages.zipIdx 1).mapM fun p => parsedPage w results p.2 p.1))
            (fun _ => ParsingAt ⟨.chunking, 0, 1⟩) (fun _ => WellReported) :=
        fun results _ _ => Spec.conseq (await_spec fun _ hs => hs.upTo.well) (fun _ hs => hs)
          (fun _ _ hs => hlater hs.1) fun _ _ hs => hs
      have hsum := length_batches settings.ocrBatchSize_pos (pagesOfMode .ocr pages)
      have hsum' := length_batches settings.ocrBatchSize_pos (pagesOfMode .hybrid pages)
      have hbound := settings.maximumOcrPages_le
      by_cases hnone : total = 0
      · -- no page needs OCR: there is no batch and nothing is reported
        have hfull : pagesOfMode .ocr pages = [] := List.length_eq_zero_iff.mp (by omega)
        have hhybrid : pagesOfMode .hybrid pages = [] := List.length_eq_zero_iff.mp (by omega)
        have hempty : batches settings.ocrBatchSize ([] : List Nat) = [] := by
          have hpos := settings.ocrBatchSize_pos
          have hz : (settings.ocrBatchSize - 1) / settings.ocrBatchSize = 0 :=
            Nat.div_eq_of_lt (by omega)
          simp [batches, hz]
        rw [hfull, hhybrid, hempty]
        refine Spec.bind (M := fun _ => ParsingAt ⟨.parsing, 0, 1⟩) (Spec.pure fun _ hs => hs)
          fun st => hend st.results
      · refine Spec.bind (M := fun _ => ParsingAt ⟨.parsing, total, total⟩) ?_
          fun st => hend st.results
        refine Spec.conseq (ocrLoop_parsingAt w settings (by omega) (by omega) _ _ ?_) ?_
          (fun _ _ hs => hs) fun _ _ hs => hs
        · rw [List.map_append, List.sum_append, List.map_map, List.map_map]
          show 0 + (((batches settings.ocrBatchSize (pagesOfMode .ocr pages)).map List.length).sum +
            ((batches settings.ocrBatchSize (pagesOfMode .hybrid pages)).map List.length).sum) = total
          omega
        · intro s hs
          exact ⟨hs.upTo.mono (Or.inr ⟨rfl, Nat.le_refl _, by dsimp only; omega⟩), hs.first⟩

/-- The embedding loop reports the vectors so far, out of one per text. -/
theorem embedLoop_upTo (w : World) (settings : ProcessorSettings) {count : Nat}
    (hlo : 1 ≤ count) (hhi : count ≤ 1000000) (todo : List (List String)) (vectors : List Nat)
    (hsum : vectors.length + (todo.map List.length).sum = count) :
    Spec (UpTo ⟨.embedding, vectors.length, count⟩) (embedLoop w settings count todo vectors)
      (fun _ => UpTo ⟨.embedding, count, count⟩) (fun _ => WellReported) := by
  induction todo generalizing vectors with
  | nil =>
    have hdone : vectors.length = count := by simpa using hsum
    rw [hdone]
    exact Spec.pure fun _ hs => hs
  | cons batch rest ih =>
    rw [List.map_cons, List.sum_cons] at hsum
    unfold embedLoop
    refine Spec.bind (await_spec fun _ hs => hs.well) fun embedded => ?_
    refine Spec.assume fun _ => ?_
    split
    · exact Spec.throw fun _ hs => hs.well
    next hlen =>
      have hlen : embedded.length = batch.length := by simpa using hlen
      have hle : ProgressCall.le ⟨.embedding, vectors.length, count⟩
          ⟨.embedding, (vectors ++ embedded).length, count⟩ :=
        Or.inr ⟨rfl, by simp, Nat.le_refl _⟩
      have hvalid :
          ProgressCall.valid ⟨.embedding, (vectors ++ embedded).length, count⟩ = true := by
        simp only [ProgressCall.valid, List.mem_cons, decide_eq_true_eq, List.length_append]
        refine ⟨by simp, ?_⟩
        omega
      refine Spec.bind (progress_upTo hle hvalid) fun _ => ?_
      exact ih (vectors ++ embedded) (by rw [List.length_append]; omega)

theorem embedAll_upTo (w : World) (settings : ProcessorSettings) (texts : List String) :
    Spec (UpTo ⟨.chunking, 0, 1⟩) (embedAll w settings texts)
      (fun _ => WellReported) (fun _ => WellReported) := by
  unfold embedAll
  split
  · exact Spec.throw fun _ hs => hs.well
  split
  · exact Spec.throw fun _ hs => hs.well
  next hne hmax =>
    have hbound := settings.maximumDocumentChunks_le
    have hpos : 1 ≤ texts.length := List.length_pos_iff.mpr hne
    have hvalid : ∀ stage ∈ [DocumentState.embedding, .indexing],
        ProgressCall.valid ⟨stage, 0, texts.length⟩ = true := by
      intro stage hstage
      have hmem : stage ∈ [DocumentState.parsing, .chunking, .embedding, .indexing] := by
        simp only [List.mem_cons] at hstage ⊢
        tauto
      simp only [ProgressCall.valid, decide_eq_true_eq]
      exact ⟨hmem, hpos, by omega, Nat.zero_le _⟩
    refine Spec.bind (progress_upTo (Or.inr ⟨rfl, Nat.zero_le _, Nat.le_refl _⟩) (by decide))
      fun _ => ?_
    refine Spec.bind (progress_upTo (ProgressCall.le_of_stage (by decide) _ _ _ _)
      (hvalid _ (by simp))) fun _ => ?_
    refine Spec.bind (M := fun _ => UpTo ⟨.embedding, texts.length, texts.length⟩)
      (embedLoop_upTo w settings hpos (by omega) _ [] ?_) fun vectors => ?_
    · rw [length_batches settings.embeddingBatchSize_pos]
      simp
    split
    · exact Spec.throw fun _ hs => hs.well
    · refine Spec.bind (progress_upTo (ProgressCall.le_of_stage (by decide) _ _ _ _)
      (hvalid _ (by simp))) fun _ => ?_
      exact Spec.pure fun _ hs => hs.well

/-- Whatever the world answers, an attempt's progress calls pass the database's
argument check and never go back. -/
theorem process_wellReported (w : World) (settings : ProcessorSettings) (claim : JobClaim) :
    WellReported (process w settings claim Reports.start).2 := by
  have hspec : Spec (fun s => s = Reports.start) (process w settings claim)
      (fun _ => WellReported) (fun _ => WellReported) := by
    unfold process
    refine Spec.bind (M := fun _ s => UpTo ⟨.parsing, 0, 1⟩ s) ?_ fun _ => ?_
    · refine Spec.conseq (progress_upTo (ProgressCall.le_refl _) (by decide)) ?_
        (fun _ _ hs => hs) fun _ _ hs => hs
      rintro s rfl
      exact upTo_start _
    refine Spec.bind (await_spec fun _ hs => hs.well) fun _ => ?_
    refine Spec.assume fun _ => ?_
    refine Spec.bind (M := fun _ => ParsingAt ⟨.chunking, 0, 1⟩)
      (Spec.conseq (parse_parsingAt w settings) (fun _ hs => ⟨hs, fun _ => hs⟩)
        (fun _ _ hs => hs) fun _ _ hs => hs) fun pages => ?_
    refine Spec.bind (M := fun _ => UpTo ⟨.chunking, 0, 1⟩) ?_ fun _ => ?_
    · -- the second parsing call is made only after the first one alone
      refine ⟨fun s hs => ?_⟩
      unfold unlessReported
      split
      · exact hs.upTo
      next hflag =>
        have hfirst := hs.first (by simpa using hflag)
        have hle : ProgressCall.le ⟨.parsing, 0, 1⟩ ⟨.parsing, 1, 1⟩ :=
          Or.inr ⟨rfl, by decide, Nat.le_refl _⟩
        have hcall := (progress_upTo (w := w) hle (by decide)).exits s hfirst
        exact hcall.mono (fun _ _ hs => hs.mono (ProgressCall.le_of_stage (by decide) _ _ _ _)) fun _ _ hs => hs
    refine Spec.bind (progress_upTo (ProgressCall.le_refl _) (by decide))
      fun _ => ?_
    refine Spec.bind (embedAll_upTo w settings _) fun vectors => ?_
    exact Spec.pure fun _ hs => hs
  have hexit := hspec.exits Reports.start rfl
  match process w settings claim Reports.start, hexit with
  | (.ok _, _), hexit => exact hexit
  | (.error _, _), hexit => exact hexit

/-! ## The payload -/

/-- The payload is a chunking of the claim's document. -/
theorem process_chunks {settings : ProcessorSettings} {claim : JobClaim}
    {result : ProcessedIngestion} {s' : Reports}
    (h : process w settings claim s = (.ok result, s')) :
    ∃ pages dimension,
      result.chunks = chunk w settings pages claim.documentId claim.sha256 dimension := by
  have hspec : Spec (fun _ => True) (process w settings claim)
      (fun result _ => ∃ pages dimension,
        result.chunks = chunk w settings pages claim.documentId claim.sha256 dimension)
      (fun _ _ => True) := by
    unfold process
    refine Spec.bind (Spec.always _) fun _ => Spec.bind (Spec.always _) fun _ =>
      Spec.bind (Spec.always _) fun pages => Spec.bind (Spec.always _) fun _ =>
      Spec.bind (Spec.always _) fun _ => Spec.bind (Spec.always _) fun vectors => ?_
    exact Spec.pure fun _ _ => ⟨_, _, rfl⟩
  have hexit := hspec.exits s trivial
  rw [h] at hexit
  exact hexit

/-- The payload numbers its chunks from zero. -/
theorem process_ordinals {settings : ProcessorSettings} {claim : JobClaim}
    {result : ProcessedIngestion} {s' : Reports}
    (h : process w settings claim s = (.ok result, s')) :
    result.chunks.map (·.ordinal) = List.range result.chunks.length := by
  obtain ⟨pages, dimension, hchunks⟩ := process_chunks h
  rw [hchunks]
  refine List.ext_getElem (by simp) fun i hi _ => ?_
  simp [chunk]

end LocalRag.Ingest
