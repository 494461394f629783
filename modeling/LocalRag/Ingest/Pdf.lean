import LocalRag.Highlight.Normalize
import LocalRag.Ingest.Process
import LocalRag.Runtime.Ocr

/-!
# The pages of a PDF — two loops and a merge

`PdfParser.parse`, `_parse_ocr_batch` and `_hybrid_page` of `services/parsing/pdf.py`, with the
pages they return as a whole. `Ingest.Process` has the same function as one part of an attempt and
keeps of a page what the chunker reads.

The pages that are read directly and those that go through OCR come from different loops. What
ties them together are page numbers: the numbers of a document are `1` to its length
(`numbered`), the batches put together are the numbers routed to OCR, and the merge visits every
number once. `results_recognised` is the invariant of the batch loop: a result stands under its
own number.

Mirroring notes.
* A page is its extracted text, or nothing where pypdf raises. Its assessment is a parameter:
  the mode it chooses is arbitrary, and its other fields are passed on.
* The OCR service answers by mode, batch and attempt. Writing the input files, the service and the
  callback may raise anything; only an `OcrError` is tried again.
* `set(batch) != expected` follows from the comparison of the lists beside it.
-/

namespace LocalRag.Ingest.Pdf

open LocalRag.Core Highlight
open Ocr (ParsedBlock)

variable {φ δ : Type}

/-- `PageRoutingAssessment`: the mode, and what it was chosen from. -/
structure PageRoutingAssessment (δ : Type) where
  mode : PageRoutingMode
  signals : δ
deriving DecidableEq

structure ParsedFragment (φ : Type) where
  parseMethod : ParseMethod
  text : String
  blocks : List (ParsedBlock φ)
deriving DecidableEq

structure ParsedPage (φ δ : Type) where
  pageNumber : Nat
  text : String
  parseMethod : ParseMethod
  blocks : List (ParsedBlock φ)
  routingMode : PageRoutingMode
  fragments : List (ParsedFragment φ)
  assessment : PageRoutingAssessment δ
deriving DecidableEq

/-- `ParsedOcrBatch`: the pages under their keys. -/
structure OcrBatch (φ : Type) where
  pages : List (Nat × Ocr.ParsedPage φ)
  stagedBytes : Int

inductive PdfError where
  | pdfParsing (message : String)
  | workLimit (code message : String)
  | ocr (message : String)
  | key (pageNumber : Nat)
  /-- Any other exception, a cancellation among them. -/
  | other (message : String)
deriving Repr, DecidableEq

/-- The settings, as the constructor checks them. -/
structure PdfParser where
  ocrBatchSize : Nat
  maximumPdfPages : Nat
  maximumOcrPages : Nat
  maximumExtractedTextCharacters : Nat
  maximumStagedOcrResultBytes : Nat
  externalBatchMaxAttempts : Nat
  ocrBatchSize_pos : 1 ≤ ocrBatchSize

/-- The text of a page, and whether pypdf returned it. -/
structure Extracted where
  text : String
  succeeded : Bool
deriving Repr, DecidableEq

/-- What a run depends on beside the settings. -/
structure Surroundings (φ δ : Type) where
  /-- The pages of `PdfReader(path)`, or nothing where it cannot be read. -/
  reader : Option (List (Option String))
  assess : Nat → Extracted → PageRoutingAssessment δ
  /-- The input directory of a batch. -/
  write : Ocr.OcrMode → List Nat → Except PdfError Unit
  parsePages : Ocr.OcrMode → List Nat → Nat → Except PdfError (OcrBatch φ)
  /-- The callback, if there is one, asked for the last of these calls. -/
  progress : Option (List (Nat × Nat) → Except PdfError Unit)
  nfkc : List Char → List Char
  casefold : List Char → List Char

variable (su : Surroundings φ δ) (parser : PdfParser)

/-- `d[number]`. -/
def getItem {β : Type} (d : List (Nat × β)) (number : Nat) : Except PdfError β :=
  match d.lookup number with
  | some value => .ok value
  | none => .error (.key number)

theorem getItem_ok {β : Type} {d : List (Nat × β)} {number : Nat} {value : β}
    (h : getItem d number = .ok value) : d.lookup number = some value := by
  unfold getItem at h
  split at h
  next found hfound => rw [hfound, Except.ok.inj h]
  next => cases h

/-! ## Direct text -/

/-- One page of `reader.pages`. -/
def extract (page : Option String) : Extracted :=
  match page with
  | some text => ⟨strip text, true⟩
  | none => ⟨strip "", false⟩

/-- The loop over the pages, with the characters so far. -/
def extractPages : List (Option String) → Nat → Except PdfError (List Extracted × Nat)
  | [], cumulativeText => .ok ([], cumulativeText)
  | page :: rest, cumulativeText =>
    let extracted := extract page
    let cumulativeText := cumulativeText + extracted.text.length
    if cumulativeText > parser.maximumExtractedTextCharacters then
      .error (.workLimit "extracted_text_limit_exceeded"
        "PDF extracted text exceeds the configured processing limit")
    else do
      let (others, cumulativeText) ← extractPages rest cumulativeText
      return (extracted :: others, cumulativeText)

/-- A page with its number and its assessment. -/
structure Assessed (δ : Type) where
  pageNumber : Nat
  text : String
  assessment : PageRoutingAssessment δ
deriving DecidableEq

/-- `range(1, page_count + 1)`, with the two dictionaries read at each number. -/
def assessments (extracted : List Extracted) : List (Assessed δ) :=
  (extracted.zipIdx 1).map fun item => ⟨item.2, item.1.text, su.assess item.2 item.1⟩

/-- The numbers of the pages of a mode. -/
def pagesOf (mode : PageRoutingMode) (assessed : List (Assessed δ)) : List Nat :=
  (assessed.filter fun page => page.assessment.mode = mode).map (·.pageNumber)

/-! ## OCR -/

/-- The checks of an attempt. -/
def checkBatch (pages : List Nat) (batch : OcrBatch φ) : Except PdfError (OcrBatch φ) :=
  if batch.pages.map (·.1) ≠ pages ∨
      pages.any fun number => (batch.pages.lookup number).map (·.pageNumber) ≠ some number then
    .error (.ocr "OCR batch did not return every expected page exactly once")
  else if batch.stagedBytes < 0 then
    .error (.ocr "OCR batch returned an invalid staged byte count")
  else .ok batch

/-- The attempts that are left. -/
def attempts (mode : Ocr.OcrMode) (pages : List Nat) :
    Nat → Nat → Except PdfError (OcrBatch φ)
  | 0, _ => .error (.ocr "OCR batch failed after bounded retries")
  | left + 1, attempt =>
    match (su.parsePages mode pages attempt).bind (checkBatch pages) with
    | .ok batch => .ok batch
    | .error (.ocr _) => attempts mode pages left (attempt + 1)
    | .error e => .error e

/-- `_parse_ocr_batch`. -/
def parseOcrBatch (mode : Ocr.OcrMode) (pages : List Nat) : Except PdfError (OcrBatch φ) :=
  attempts su mode pages parser.externalBatchMaxAttempts 1

abbrev Results (φ : Type) := List (Nat × Ocr.ParsedPage φ)

/-- `for page_number in batch`: the results, and the characters so far. -/
def takePages (parsed : OcrBatch φ) :
    List Nat → Results φ → Nat → Except PdfError (Results φ × Nat)
  | [], results, cumulativeText => .ok (results, cumulativeText)
  | number :: rest, results, cumulativeText => do
    let page ← getItem parsed.pages number
    if cumulativeText + page.text.length > parser.maximumExtractedTextCharacters then
      throw (.workLimit "extracted_text_limit_exceeded"
        "PDF text exceeds the configured processing limit")
    else
      takePages parsed rest (setItem results number page) (cumulativeText + page.text.length)

/-- The accumulators of the batch loop. -/
structure OcrState (φ : Type) where
  results : Results φ
  completedPages : Nat
  stagedBytes : Int
  cumulativeText : Nat

/-- A statement of `parse`; the state are the calls of the callback. -/
abbrev Parse := Gen (List (Nat × Nat)) PdfError

/-- `if progress is not None: await progress(completed, total)`. -/
def report (completed total : Nat) : Parse Unit := fun calls =>
  match su.progress with
  | none => (.ok (), calls)
  | some answer => (answer (calls ++ [(completed, total)]), calls ++ [(completed, total)])

/-- The loop over the batches of both modes. -/
def ocrLoop (selectedOcrPages : Nat) :
    List (Ocr.OcrMode × List Nat) → OcrState φ → Parse (OcrState φ)
  | [], st => pure st
  | (mode, batch) :: rest, st => do
    Gen.lift (su.write mode batch)
    let parsed ← Gen.lift (parseOcrBatch su parser mode batch)
    let stagedBytes := st.stagedBytes + parsed.stagedBytes
    if stagedBytes > parser.maximumStagedOcrResultBytes then
      throw (.workLimit "ocr_result_bytes_limit_exceeded"
        "OCR results exceed the configured staging limit")
    else do
      let (results, cumulativeText) ←
        Gen.lift (takePages parser parsed batch st.results st.cumulativeText)
      report su (st.completedPages + batch.length) selectedOcrPages
      ocrLoop selectedOcrPages rest
        ⟨results, st.completedPages + batch.length, stagedBytes, cumulativeText⟩

/-! ## The merge -/

/-- `_direct_page`. -/
def directPage (page : Assessed δ) : ParsedPage φ δ :=
  ⟨page.pageNumber, page.text, .direct, [], .direct, [], page.assessment⟩

/-- `normalize_highlight_text(text).casefold()`. -/
def normalized (text : String) : List Char :=
  su.casefold (normalizeHighlightText su.nfkc text.toList)

/-- The block is dropped: it says something, and the direct text says it too. -/
def repeatsDirect (directText : String) (block : ParsedBlock φ) : Bool :=
  normalized su block.text ≠ [] ∧ normalized su block.text <:+: normalized su directText

/-- `_hybrid_page`. -/
def hybridPage (pageNumber : Nat) (directText : String) (ocrPage : Ocr.ParsedPage φ)
    (assessment : PageRoutingAssessment δ) : ParsedPage φ δ :=
  let uniqueBlocks := ocrPage.blocks.filter fun block => !repeatsDirect su directText block
  let direct : ParsedFragment φ := ⟨.direct, directText, []⟩
  let fragments :=
    if uniqueBlocks.isEmpty then [direct]
    else [direct, ⟨.ocr, "\n\n".intercalate (uniqueBlocks.map (·.text)), uniqueBlocks⟩]
  ⟨pageNumber, directText, .direct, [], .hybrid, fragments, assessment⟩

/-- The page of a number. -/
def mergePage (results : Results φ) (page : Assessed δ) : Except PdfError (ParsedPage φ δ) :=
  match page.assessment.mode with
  | .direct => .ok (directPage page)
  | .ocr => do
    let source ← getItem results page.pageNumber
    return ⟨page.pageNumber, source.text, .ocr, source.blocks, .ocr, [], page.assessment⟩
  | .hybrid => do
    let source ← getItem results page.pageNumber
    return hybridPage su page.pageNumber page.text source page.assessment

/-- `for page_number in range(1, page_count + 1)`. -/
def mergePages (results : Results φ) :
    List (Assessed δ) → List (Nat × ParsedPage φ δ) → Except PdfError (List (Nat × ParsedPage φ δ))
  | [], pages => .ok pages
  | page :: rest, pages => do
    let merged ← mergePage su results page
    mergePages results rest (setItem pages page.pageNumber merged)

/-- The last check, and the pages in the order of their numbers. -/
def inOrder (pageCount : Nat) (pages : List (Nat × ParsedPage φ δ)) :
    Except PdfError (List (ParsedPage φ δ)) :=
  if ¬ ((∀ key ∈ pages.map Prod.fst, key ∈ List.range' 1 pageCount) ∧
      ∀ number ∈ List.range' 1 pageCount, number ∈ pages.map Prod.fst) then
    .error (.pdfParsing "parser did not return every source page exactly once")
  else ((pages.map Prod.fst).insertionSort (· ≤ ·)).mapM (getItem pages)

/-- `parse`. -/
def parse : Parse (List (ParsedPage φ δ)) :=
  match su.reader with
  | none => throw (.pdfParsing "unable to read PDF")
  | some sources =>
    if sources.length > parser.maximumPdfPages then
      throw (.workLimit "pdf_page_limit_exceeded"
        ("PDF exceeds the " ++ toString parser.maximumPdfPages ++ "-page processing limit"))
    else do
      let (extracted, cumulativeText) ← Gen.lift (extractPages parser sources 0)
      let assessed := assessments su extracted
      let fullOcrPages := pagesOf .ocr assessed
      let hybridPages := pagesOf .hybrid assessed
      let selectedOcrPages := fullOcrPages.length + hybridPages.length
      if selectedOcrPages > parser.maximumOcrPages then
        throw (.workLimit "ocr_page_limit_exceeded"
          ("PDF requires OCR for more than the configured " ++ toString parser.maximumOcrPages ++
            "-page limit"))
      else if selectedOcrPages = 0 then pure (assessed.map directPage)
      else do
        let st ← ocrLoop su parser selectedOcrPages
          ((batches parser.ocrBatchSize fullOcrPages).map (Ocr.OcrMode.fullPage, ·) ++
            (batches parser.ocrBatchSize hybridPages).map (Ocr.OcrMode.visualSupplement, ·))
          ⟨[], 0, 0, cumulativeText⟩
        let pages ← Gen.lift (mergePages su st.results assessed [])
        Gen.lift (inOrder sources.length pages)

/-! ## Numbers -/

variable {su parser} {sources : List (Option String)} {extracted : List Extracted}

theorem extractPages_ok {cumulativeText after : Nat}
    (h : extractPages parser sources cumulativeText = .ok (extracted, after)) :
    extracted = sources.map extract := by
  induction sources generalizing extracted cumulativeText after with
  | nil =>
    obtain ⟨rfl, -⟩ := Prod.mk.inj (Except.ok.inj h)
    rfl
  | cons page rest ih =>
    rw [extractPages] at h
    dsimp only at h
    split at h
    next => cases h
    next =>
      obtain ⟨⟨others, last⟩, hrest, hpages⟩ := bind_eq_ok.mp h
      obtain ⟨rfl, -⟩ := Prod.mk.inj (Except.ok.inj hpages)
      rw [ih hrest]
      rfl

/-- The pages are numbered from one. -/
theorem numbered (extracted : List Extracted) :
    (assessments su extracted).map (·.pageNumber) = List.range' 1 extracted.length := by
  unfold assessments
  rw [List.map_map]
  exact List.zipIdx_map_snd 1 extracted

/-! ## The batch loop -/

theorem checkBatch_ok {pages : List Nat} {batch checked : OcrBatch φ}
    (h : checkBatch pages batch = .ok checked) :
    ∀ number ∈ pages, (checked.pages.lookup number).map (·.pageNumber) = some number := by
  unfold checkBatch at h
  split at h
  next => cases h
  next hpages =>
    split at h
    next => cases h
    next =>
      obtain rfl := Except.ok.inj h
      intro number hnumber
      by_contra hne
      refine hpages (Or.inr (List.any_eq_true.mpr ⟨number, hnumber, decide_eq_true hne⟩))

theorem attempts_ok {mode : Ocr.OcrMode} {pages : List Nat} {left attempt : Nat}
    {batch : OcrBatch φ} (h : attempts su mode pages left attempt = .ok batch) :
    ∀ number ∈ pages, (batch.pages.lookup number).map (·.pageNumber) = some number := by
  induction left generalizing attempt with
  | zero => cases h
  | succ left ih =>
    rw [attempts] at h
    split at h
    next batch' hbatch =>
      obtain rfl := Except.ok.inj h
      obtain ⟨answered, -, hchecked⟩ := bind_eq_ok.mp hbatch
      exact checkBatch_ok hchecked
    next => exact ih h
    next => cases h

/-- Every result stands under its own number. -/
def Recognised (results : Results φ) : Prop :=
  ∀ item ∈ results, item.2.pageNumber = item.1

variable {results : Results φ}

theorem Recognised.setItem (h : Recognised results) {page : Ocr.ParsedPage φ} {number : Nat}
    (hpage : page.pageNumber = number) : Recognised (setItem results number page) := by
  intro item hitem
  unfold Core.setItem at hitem
  split at hitem
  next =>
    obtain ⟨old, hold, rfl⟩ := List.mem_map.mp hitem
    split
    next => exact hpage
    next => exact h old hold
  next =>
    obtain hitem | hitem := List.mem_append.mp hitem
    · exact h item hitem
    · obtain rfl := List.mem_singleton.mp hitem
      exact hpage

theorem takePages_recognised {parsed : OcrBatch φ} {batch : List Nat} {after : Results φ}
    {cumulativeText last : Nat}
    (hbatch : ∀ number ∈ batch, (parsed.pages.lookup number).map (·.pageNumber) = some number)
    (h : takePages parser parsed batch results cumulativeText = .ok (after, last))
    (hresults : Recognised results) : Recognised after := by
  induction batch generalizing results cumulativeText with
  | nil =>
    obtain ⟨rfl, -⟩ := Prod.mk.inj (Except.ok.inj h)
    exact hresults
  | cons number rest ih =>
    rw [List.forall_mem_cons] at hbatch
    obtain ⟨page, hpage, htaken⟩ := bind_eq_ok.mp h
    split at htaken
    next => cases htaken
    next =>
      have hnumber := hbatch.1
      rw [getItem_ok hpage] at hnumber
      exact ih hbatch.2 htaken (hresults.setItem (Option.some.inj hnumber))

/-- The calls count up to `completed`, out of `total`, and the last one says so. -/
structure Reported (su : Surroundings φ δ) (completed total : Nat) (calls : List (Nat × Nat)) :
    Prop where
  sorted : calls.Pairwise fun a b => a.1 ≤ b.1
  below : ∀ call ∈ calls, call.1 ≤ completed ∧ call.2 = total
  last : su.progress = none ∨ completed = 0 ∨ calls.getLast? = some (completed, total)

theorem Reported.below_add {completed total : Nat} {calls : List (Nat × Nat)}
    (h : Reported su completed total calls) (more : Nat) :
    ∀ call ∈ calls, call.1 ≤ completed + more ∧ call.2 = total := fun call hcall =>
  ⟨(h.below call hcall).1.trans (Nat.le_add_right _ _), (h.below call hcall).2⟩

theorem report_reported {completed total more : Nat} :
    Spec (Reported su completed total) (report su (completed + more) total)
      (fun _ => Reported su (completed + more) total) (fun _ _ => True) := by
  refine ⟨fun calls h => ?_⟩
  have hbelow := h.below_add more
  unfold report
  cases hprogress : su.progress with
  | none => exact ⟨h.sorted, hbelow, Or.inl hprogress⟩
  | some answer =>
    have hnext : Reported su (completed + more) total (calls ++ [(completed + more, total)]) := by
      refine ⟨?_, ?_, Or.inr (Or.inr List.getLast?_concat)⟩
      · refine List.pairwise_append.mpr ⟨h.sorted, List.pairwise_singleton _ _, fun a ha b hb => ?_⟩
        obtain rfl := List.mem_singleton.mp hb
        exact (hbelow a ha).1
      · intro call hcall
        obtain hcall | hcall := List.mem_append.mp hcall
        · exact hbelow call hcall
        · obtain rfl := List.mem_singleton.mp hcall
          exact ⟨le_rfl, rfl⟩
    dsimp only
    cases answer (calls ++ [(completed + more, total)]) with
    | ok u => exact hnext
    | error e => trivial

/-- The loop reports the pages it has done until all that were selected are, and keeps every
result under its own number. -/
theorem ocrLoop_reported {total : Nat} (todo : List (Ocr.OcrMode × List Nat)) (st : OcrState φ)
    (hsum : st.completedPages + (todo.map fun batch => batch.2.length).sum = total)
    (hresults : Recognised st.results) :
    Spec (Reported su st.completedPages total) (ocrLoop su parser total todo st)
      (fun st' calls => Reported su total total calls ∧ Recognised st'.results)
      (fun _ _ => True) := by
  induction todo generalizing st with
  | nil =>
    have hdone : st.completedPages = total := by simpa using hsum
    rw [hdone]
    exact Spec.pure fun calls h => ⟨h, hresults⟩
  | cons head rest ih =>
    obtain ⟨mode, batch⟩ := head
    rw [List.map_cons, List.sum_cons] at hsum
    dsimp only at hsum
    unfold ocrLoop
    refine Spec.bind (Spec.lift (fun _ _ calls h => h) fun _ _ _ _ => trivial) fun _ => ?_
    refine Spec.bind (M := fun parsed calls => Reported su st.completedPages total calls ∧
      parseOcrBatch su parser mode batch = .ok parsed)
      (Spec.lift (fun parsed hparsed calls h => ⟨h, hparsed⟩) fun _ _ _ _ => trivial)
      fun parsed => Spec.assume fun hparsed => ?_
    dsimp only
    split
    · exact Spec.throw fun _ _ => trivial
    refine Spec.bind (M := fun taken calls => Reported su st.completedPages total calls ∧
      takePages parser parsed batch st.results st.cumulativeText = .ok taken)
      (Spec.lift (fun taken htaken calls h => ⟨h, htaken⟩) fun _ _ _ _ => trivial)
      fun taken => Spec.assume fun htaken => ?_
    obtain ⟨results, cumulativeText⟩ := taken
    have hnext := takePages_recognised (attempts_ok hparsed) htaken hresults
    refine Spec.bind report_reported fun _ => ?_
    exact ih ⟨results, st.completedPages + batch.length, _, cumulativeText⟩
      (by dsimp only; omega) hnext

/-! ## The merge -/

/-- What a page of the result is: under its number, in its mode, with its own text or with that of
the result that names it. -/
def MergedFrom (page : Assessed δ) (merged : ParsedPage φ δ) : Prop :=
  merged.pageNumber = page.pageNumber ∧ merged.routingMode = page.assessment.mode ∧
    (page.assessment.mode ≠ .ocr → merged.text = page.text) ∧
    (page.assessment.mode = .ocr → ∃ source : Ocr.ParsedPage φ,
      source.pageNumber = page.pageNumber ∧ merged.text = source.text ∧
        merged.blocks = source.blocks)

theorem directPage_merged {page : Assessed δ} (h : page.assessment.mode = .direct) :
    MergedFrom page (directPage page : ParsedPage φ δ) := by
  refine ⟨rfl, h.symm, fun _ => rfl, fun hocr => ?_⟩
  rw [h] at hocr
  cases hocr

theorem mergePage_merged {page : Assessed δ} {merged : ParsedPage φ δ}
    (hresults : Recognised results) (h : mergePage su results page = .ok merged) :
    MergedFrom page merged := by
  unfold mergePage at h
  split at h
  next hmode =>
    obtain rfl := Except.ok.inj h
    exact directPage_merged hmode
  next hmode =>
    obtain ⟨source, hsource, hpage⟩ := bind_eq_ok.mp h
    obtain rfl := Except.ok.inj hpage
    refine ⟨rfl, hmode.symm, fun hne => absurd hmode hne, fun _ => ⟨source, ?_, rfl, rfl⟩⟩
    exact hresults _ (mem_of_lookup (getItem_ok hsource))
  next hmode =>
    obtain ⟨source, hsource, hpage⟩ := bind_eq_ok.mp h
    obtain rfl := Except.ok.inj hpage
    refine ⟨rfl, hmode.symm, fun _ => rfl, fun hocr => ?_⟩
    rw [hmode] at hocr
    cases hocr

/-- The merge appends a page for every number, as long as no number comes twice. -/
theorem mergePages_ok {rest : List (Assessed δ)} {pages out : List (Nat × ParsedPage φ δ)}
    (hresults : Recognised results) (hnodup : (pages.map (·.1) ++ rest.map (·.pageNumber)).Nodup)
    (h : mergePages su results rest pages = .ok out) :
    ∃ merged : List (ParsedPage φ δ), List.Forall₂ MergedFrom rest merged ∧
      out = pages ++ merged.map fun page => (page.pageNumber, page) := by
  induction rest generalizing pages with
  | nil =>
    obtain rfl := Except.ok.inj h
    exact ⟨[], .nil, (List.append_nil pages).symm⟩
  | cons page rest ih =>
    obtain ⟨merged, hmerged, hrest⟩ := bind_eq_ok.mp h
    have hpage := mergePage_merged hresults hmerged
    -- the number is new, so it is appended
    have hnew : (pages.lookup page.pageNumber).isSome = false := by
      rw [Bool.eq_false_iff, Ne, lookup_isSome]
      intro hmem
      rw [List.nodup_append] at hnodup
      exact hnodup.2.2 _ hmem _ List.mem_cons_self rfl
    have hset : setItem pages page.pageNumber merged = pages ++ [(page.pageNumber, merged)] := by
      unfold setItem
      rw [hnew]
      rfl
    rw [hset] at hrest
    have hnodup' : ((pages ++ [(page.pageNumber, merged)]).map (·.1) ++
        rest.map (·.pageNumber)).Nodup := by
      rw [List.map_append, List.append_assoc]
      exact hnodup
    obtain ⟨others, hothers, rfl⟩ := ih hnodup' hrest
    refine ⟨merged :: others, .cons hpage hothers, ?_⟩
    rw [List.append_assoc, List.map_cons, hpage.1]
    rfl

theorem numbers_of_forall₂ {pages : List (Assessed δ)} {merged : List (ParsedPage φ δ)}
    (h : List.Forall₂ MergedFrom pages merged) :
    merged.map (·.pageNumber) = pages.map (·.pageNumber) := by
  induction h with
  | nil => rfl
  | cons hpage _ ih => rw [List.map_cons, List.map_cons, hpage.1, ih]

/-- Pages that are numbered in order are returned as they are. -/
theorem inOrder_ok {pageCount : Nat} {merged out : List (ParsedPage φ δ)}
    (hnumbers : merged.map (·.pageNumber) = List.range' 1 pageCount)
    (h : inOrder pageCount (merged.map fun page => (page.pageNumber, page)) = .ok out) :
    out = merged := by
  unfold inOrder at h
  split at h
  next => cases h
  next =>
    have hkeys : (merged.map fun page => (page.pageNumber, page)).map Prod.fst =
        List.range' 1 pageCount := by
      rw [List.map_map]
      exact hnumbers
    have hsorted : (List.range' 1 pageCount).insertionSort (· ≤ ·) = List.range' 1 pageCount :=
      List.Pairwise.insertionSort_eq List.pairwise_le_range'
    rw [hkeys, hsorted, ← hnumbers, mapM_eq_ok, List.forall₂_map_left_iff] at h
    have hnodup : (merged.map (·.pageNumber)).Nodup := by
      rw [hnumbers]
      exact List.nodup_range'
    -- under its number there is no page but itself
    have hfound : ∀ page ∈ merged, ∀ found, getItem
        (merged.map fun page => (page.pageNumber, page)) page.pageNumber = .ok found →
        page = found := by
      intro page hpage found hfound
      obtain ⟨same, hsame, heq⟩ := List.mem_map.mp (mem_of_lookup (getItem_ok hfound))
      obtain ⟨hnumber, rfl⟩ := Prod.mk.inj heq
      exact (List.inj_on_of_nodup_map hnodup hsame hpage hnumber).symm
    have heq := ((List.forall₂_and_left _ _).mpr ⟨hfound, h⟩).imp fun page found hboth =>
      hboth.1 found hboth.2
    rw [List.forall₂_eq_eq_eq] at heq
    exact heq.symm

/-! ## What is returned -/

/-- The numbers that are routed to OCR, in whole or in part. -/
def selected (su : Surroundings φ δ) (sources : List (Option String)) : Nat :=
  (pagesOf .ocr (assessments su (sources.map extract))).length +
    (pagesOf .hybrid (assessments su (sources.map extract))).length

/-- The batches of both modes hold every selected page once. -/
theorem sum_batches (su : Surroundings φ δ) (parser : PdfParser) (sources : List (Option String)) :
    (((batches parser.ocrBatchSize
        (pagesOf .ocr (assessments su (sources.map extract)))).map (Ocr.OcrMode.fullPage, ·) ++
      (batches parser.ocrBatchSize
        (pagesOf .hybrid (assessments su (sources.map extract)))).map
          (Ocr.OcrMode.visualSupplement, ·)).map fun batch => batch.2.length).sum =
      selected su sources := by
  rw [List.map_append, List.sum_append, List.map_map, List.map_map]
  exact congrArg₂ (· + ·) (length_batches parser.ocrBatchSize_pos _)
    (length_batches parser.ocrBatchSize_pos _)

/-- Nothing is selected: every page is read directly. -/
theorem direct_of_selected (h : selected su sources = 0) :
    ∀ page ∈ assessments su (sources.map extract), page.assessment.mode = .direct := by
  intro page hpage
  have hnone : ∀ mode, pagesOf mode (assessments su (sources.map extract)) = [] →
      page.assessment.mode ≠ mode := by
    rintro mode hempty rfl
    have hmem : page.pageNumber ∈ pagesOf page.assessment.mode
        (assessments su (sources.map extract)) :=
      List.mem_map_of_mem (List.mem_filter.mpr ⟨hpage, decide_eq_true rfl⟩)
    rw [hempty] at hmem
    exact absurd hmem List.not_mem_nil
  unfold selected at h
  have hocr := hnone .ocr (List.length_eq_zero_iff.mp (by omega))
  have hhybrid := hnone .hybrid (List.length_eq_zero_iff.mp (by omega))
  cases hmode : page.assessment.mode with
  | direct => rfl
  | ocr => exact absurd hmode hocr
  | hybrid => exact absurd hmode hhybrid

theorem reported_start (total : Nat) : Reported su 0 total [] :=
  ⟨.nil, fun _ hcall => absurd hcall List.not_mem_nil, Or.inr (Or.inl rfl)⟩

/-- The pages of a run that returns, and its calls. -/
theorem parse_merged (hreader : su.reader = some sources) :
    Spec (fun calls => calls = []) (parse su parser)
      (fun pages calls =>
        List.Forall₂ MergedFrom (assessments su (sources.map extract)) pages ∧
        Reported su (selected su sources) (selected su sources) calls)
      (fun _ _ => True) := by
  unfold parse
  rw [hreader]
  dsimp only
  split
  · exact Spec.throw fun _ _ => trivial
  refine Spec.bind (M := fun extracted calls => calls = [] ∧
    extractPages parser sources 0 = .ok extracted)
    (Spec.lift (fun _ hextracted calls h => ⟨h, hextracted⟩) fun _ _ _ _ => trivial)
    fun extracted => Spec.assume fun hextracted => ?_
  obtain ⟨extracted, cumulativeText⟩ := extracted
  obtain rfl := extractPages_ok hextracted
  dsimp only
  split
  · exact Spec.throw fun _ _ => trivial
  split
  next hnone =>
    -- no page needs OCR, and nothing is reported
    have hzero : selected su sources = 0 := hnone
    refine Spec.pure fun calls h => ⟨?_, ?_⟩
    · rw [List.forall₂_map_right_iff, List.forall₂_same]
      exact fun page hpage => directPage_merged (direct_of_selected hzero page hpage)
    · rw [h, hzero]
      exact reported_start 0
  next =>
    refine Spec.bind (M := fun (st : OcrState φ) calls =>
      Reported su (selected su sources) (selected su sources) calls ∧ Recognised st.results)
      (Spec.conseq (ocrLoop_reported _ ⟨[], 0, 0, cumulativeText⟩ ?_ ?_) ?_
        (fun _ _ h => h) fun _ _ h => h) fun st => Spec.assume fun hresults => ?_
    · rw [Nat.zero_add]
      exact sum_batches su parser sources
    · exact fun item hitem => absurd hitem List.not_mem_nil
    · rintro calls rfl
      exact reported_start _
    have hnumbers := @numbered _ _ su (sources.map extract)
    refine Spec.bind (M := fun pages calls =>
      Reported su (selected su sources) (selected su sources) calls ∧
      mergePages su st.results (assessments su (sources.map extract)) [] = .ok pages)
      (Spec.lift (fun pages hpages calls h => ⟨h, hpages⟩) fun _ _ _ _ => trivial)
      fun pages => Spec.assume fun hpages => ?_
    have hnodup : (([] : List (Nat × ParsedPage φ δ)).map (·.1) ++
        (assessments su (sources.map extract)).map (·.pageNumber)).Nodup := by
      rw [hnumbers]
      exact List.nodup_range'
    obtain ⟨merged, hmerged, rfl⟩ := mergePages_ok hresults hnodup hpages
    refine Spec.lift (fun out hout calls h => ?_) fun _ _ _ _ => trivial
    have hin := numbers_of_forall₂ hmerged
    rw [hnumbers, List.length_map] at hin
    obtain rfl := inOrder_ok hin hout
    exact ⟨hmerged, h⟩

/-- The OCR blocks of a page that is read both ways. -/
def keptBlocks (page : ParsedPage φ δ) : List (ParsedBlock φ) := page.fragments.flatMap (·.blocks)

/-- The direct text is kept whole, in front, and no block is dropped whose text it does not
contain. -/
theorem hybridPage_keeps (pageNumber : Nat) (directText : String) (ocrPage : Ocr.ParsedPage φ)
    (assessment : PageRoutingAssessment δ) :
    let page := hybridPage su pageNumber directText ocrPage assessment
    page.text = directText ∧ page.fragments.head? = some ⟨.direct, directText, []⟩ ∧
      (keptBlocks page).Sublist ocrPage.blocks ∧
      ∃ dropped, (dropped ++ keptBlocks page).Perm ocrPage.blocks ∧ ∀ block ∈ dropped,
        normalized su block.text ≠ [] ∧ normalized su block.text <:+: normalized su directText := by
  have hkept : keptBlocks (hybridPage su pageNumber directText ocrPage assessment) =
      ocrPage.blocks.filter fun block => !repeatsDirect su directText block := by
    unfold keptBlocks hybridPage
    dsimp only
    split
    next hempty => rw [List.isEmpty_iff.mp hempty]; rfl
    next => simp
  refine ⟨rfl, ?_, ?_, ocrPage.blocks.filter (repeatsDirect su directText), ?_, ?_⟩
  · unfold hybridPage
    dsimp only
    split <;> rfl
  · rw [hkept]
    exact List.filter_sublist
  · rw [hkept]
    exact List.filter_append_perm (repeatsDirect su directText) ocrPage.blocks
  · exact fun block hblock => of_decide_eq_true (List.mem_filter.mp hblock).2

/-- Every page of the document comes back once, in order and with its own text; the progress only
grows, out of one total, and ends there; and a page that is read both ways loses nothing. -/
theorem parse_pages (su : Surroundings φ δ) (parser : PdfParser) :
    (∀ pages calls, parse su parser [] = (.ok pages, calls) → ∃ sources,
      su.reader = some sources ∧ pages.map (·.pageNumber) = List.range' 1 sources.length ∧
      List.Forall₂ MergedFrom (assessments su (sources.map extract)) pages ∧
      (calls.Pairwise fun a b => a.1 ≤ b.1) ∧ (∀ call ∈ calls, call.2 = selected su sources) ∧
      (su.progress.isSome = true → selected su sources ≠ 0 →
        calls.getLast? = some (selected su sources, selected su sources))) ∧
    ∀ pageNumber directText ocrPage assessment,
      let page : ParsedPage φ δ := hybridPage su pageNumber directText ocrPage assessment
      page.text = directText ∧ page.fragments.head? = some ⟨.direct, directText, []⟩ ∧
        (keptBlocks page).Sublist ocrPage.blocks ∧
        ∃ dropped, (dropped ++ keptBlocks page).Perm ocrPage.blocks ∧ ∀ block ∈ dropped,
          normalized su block.text ≠ [] ∧
            normalized su block.text <:+: normalized su directText := by
  refine ⟨fun pages calls h => ?_, hybridPage_keeps⟩
  cases hreader : su.reader with
  | none =>
    unfold parse at h
    rw [hreader] at h
    cases h
  | some sources =>
    have hexit := (@parse_merged _ _ su parser sources hreader).exits [] rfl
    rw [h] at hexit
    obtain ⟨hmerged, hcalls⟩ := hexit
    have hnumbers := numbers_of_forall₂ hmerged
    rw [numbered, List.length_map] at hnumbers
    refine ⟨sources, rfl, hnumbers, hmerged, hcalls.sorted,
      fun call hcall => (hcalls.below call hcall).2, fun hprogress hselected => ?_⟩
    obtain hnone | hzero | hlast := hcalls.last
    · rw [hnone] at hprogress
      cases hprogress
    · exact absurd hzero hselected
    · exact hlast

/-- A page of each mode: the first has text, the second none, the third text and an image whose text
repeats it. -/
def threePages : Surroundings Nat Unit where
  reader := some [some "Plain text.", none, some "A caption"]
  assess n _ := ⟨if n = 1 then .direct else if n = 2 then .ocr else .hybrid, ()⟩
  write _ _ := .ok ()
  parsePages _ pages _ := .ok ⟨pages.map fun n =>
    (n, ⟨n, "scanned", .ocr, [⟨0, 0, "A caption", (0, 0, 1, 1), none⟩]⟩), 1⟩
  progress := some fun _ => .ok ()
  nfkc := id
  casefold := id

theorem eight_pos : 1 ≤ 8 := by decide

theorem parse_pages_three : ∃ pages,
    parse threePages ⟨8, 500, 128, 1000, 1000, 2, eight_pos⟩ [] = (.ok pages, [(1, 2), (2, 2)]) ∧
      pages.map (·.pageNumber) = [1, 2, 3] := by
  have hcalls : (parse threePages ⟨8, 500, 128, 1000, 1000, 2, eight_pos⟩ []).2 =
      [(1, 2), (2, 2)] := by decide +kernel
  have hok : (parse threePages ⟨8, 500, 128, 1000, 1000, 2, eight_pos⟩ []).1.isOk = true := by
    decide +kernel
  cases hresult : parse threePages ⟨8, 500, 128, 1000, 1000, 2, eight_pos⟩ [] with
  | mk result calls =>
    rw [hresult] at hcalls hok
    obtain rfl : calls = _ := hcalls
    cases result with
    | error e => cases hok
    | ok pages =>
      obtain ⟨sources, hreader, hnumbers, -⟩ := (parse_pages _ _).1 pages _ hresult
      obtain rfl := Option.some.inj hreader
      exact ⟨pages, rfl, hnumbers⟩

end LocalRag.Ingest.Pdf
