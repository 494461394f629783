import LocalRag.Runtime.Protocol
import LocalRag.Schema
import Mathlib.Data.Finset.Sort

/-!
# Pages through the OCR service — one PDF there, one file a page in between

Mirrors, from the outside in, `OcrServiceClient.parse_pages` (`app/runtime/ocr_client.py`), the two
endpoints and `OcrServiceRuntime.execute` (`ocr_service.py`), `IsolatedOcrAdapter.process`
(`ocr_adapter.py`) and `load_ocr_results` (`app/services/parsing/ocr_subprocess.py`). A page
number becomes a place in a list, then a file name, then a number read from a file name, then
a key, and a place again.

Mirroring notes.
* A PDF is the list of its pages, a directory the list of its entries. `Host` is what the run depends
  on beside them: the process that is started for a batch, `normalize_ocr_json` on the content
  of a file (floating point; the page number only goes into what it returns), and everything that can
  fail between the parts: connections, a drained runtime, cancellations, sizes.
* HTTP and JSON transfer values, so the envelopes are records and the `isinstance` checks hold.
  The routing mode of a page follows from its parse method; metrics and staged bytes are left out.
* `gather` raises the failure that came first, here that of the first batch; the endpoint answers
  each with a status, and the client takes all of them for one.
* On Windows `glob` sees no case, and lists names that the pattern refuses afterwards.
-/

namespace LocalRag.Ocr

open LocalRag.Core
open LocalRag.Runtime (requestIdMatches)

/-! ## Names -/

/-- `f"{n:06d}"`. -/
def padded (n : Nat) : List Char := List.leftpad 6 '0' (Nat.toDigits 10 n)

/-- `f"page-{n:06d}.pdf"`. -/
def pageFile (n : Nat) : String := String.ofList ("page-".toList ++ padded n ++ ".pdf".toList)

/-- What the engine calls the result of such a file. -/
def resultFile (n : Nat) : String :=
  String.ofList ("page-".toList ++ padded n ++ "_0_res.json".toList)

/-- The value of a decimal digit of any script. -/
def digitValue (c : Char) : Nat :=
  match decimalZeros.find? fun z => z ≤ c.toNat ∧ c.toNat < z + 10 with
  | some z => c.toNat - z
  | none => 0

/-- `int` of decimal digits. -/
def intOf (digits : List Char) : Nat := digits.foldl (fun n c => 10 * n + digitValue c) 0

/-- `glob("page-*_res.json")`. -/
def isPageResult (name : String) : Bool :=
  "page-".toList <+: name.toList ∧ "_res.json".toList <:+ name.toList.drop 5

/-- `PAGE_STEM_PATTERN.fullmatch`, with the number. -/
def pageOfName (name : String) : Option Nat :=
  let digits := (name.toList.drop 5).take 6
  if "page-".toList <+: name.toList ∧ digits.length = 6 ∧ digits.all isDecimal ∧
      name.toList.drop 11 = "_0_res.json".toList then some (intOf digits)
  else none

/-! ## What is passed on -/

inductive OcrMode where
  | fullPage
  | visualSupplement
deriving DecidableEq

def OcrMode.value : OcrMode → String
  | .fullPage => "full_page"
  | .visualSupplement => "visual_supplement"

/-- `OcrMode(value)`. -/
def OcrMode.of (value : String) : Option OcrMode :=
  if value = "full_page" then some .fullPage
  else if value = "visual_supplement" then some .visualSupplement
  else none

/-- `ParseMethod.value`. -/
def methodValue : ParseMethod → String
  | .direct => "direct"
  | .ocr => "ocr"

/-- `ParseMethod(value)`. -/
def methodOf (value : String) : Option ParseMethod :=
  if value = "direct" then some .direct else if value = "ocr" then some .ocr else none

/-- A block; its region is four numbers. -/
structure ParsedBlock (φ : Type) where
  blockId : Int
  order : Int
  text : String
  region : φ × φ × φ × φ
  label : Option String
deriving DecidableEq

structure ParsedPage (φ : Type) where
  pageNumber : Nat
  text : String
  parseMethod : ParseMethod
  blocks : List (ParsedBlock φ)
deriving DecidableEq

/-- What `normalize_ocr_json` makes of the content of a file. -/
structure PageResult (φ : Type) where
  text : String
  blocks : List (ParsedBlock φ)
deriving DecidableEq

/-- The page it returns. -/
def PageResult.page {φ : Type} (result : PageResult φ) (pageNumber : Nat) : ParsedPage φ :=
  ⟨pageNumber, result.text, .ocr, result.blocks⟩

/-- A page in `result.json`. -/
structure ResultItem (φ : Type) where
  pageNumber : Nat
  text : String
  parseMethod : String
  blocks : List (ParsedBlock φ)

structure ResultJson (φ : Type) where
  mode : String
  pages : List (ResultItem φ)

inductive ServiceError where
  | ocr (message : String)
  | value (message : String)
  | runtime (message : String)
  | workspace (message : String)
  | unavailable (message : String)
  | key (pageNumber : Nat)
  | cancelled
  /-- `HTTPException`. -/
  | http (status : Nat) (detail : String)

/-- Where the cancellation is looked at. -/
inductive Checkpoint where
  | acquired
  | beforeTasks
  | afterTasks
  | processed

/-- The three requests of a job. -/
inductive Exchange where
  | upload
  | run
  | result

variable {ρ κ φ : Type}

structure Host (ρ κ φ : Type) where
  /-- The process for a batch: from its input directory to its output directory, or what it failed
  with. -/
  engine : Nat → List (String × List ρ) → Except String (List (String × κ))
  normalize : OcrMode → κ → Except String (PageResult φ)
  processCount : Nat
  processCount_pos : 1 ≤ processCount
  processCount_le : processCount ≤ 16
  /-- The bytes of a written PDF, and of a result file. -/
  pdfBytes : List ρ → Nat
  jsonBytes : ResultJson φ → Nat
  draining : Bool
  /-- The request ids and the workspaces there are already. -/
  active : List String
  workspaces : List String
  cancelled : Checkpoint → Bool
  /-- An answer comes back. -/
  answered : Exchange → Bool

/-! ## `load_ocr_results` -/

def normalizeOcrJson (host : Host ρ κ φ) (content : κ) (pageNumber : Nat) (mode : OcrMode) :
    Except ServiceError (ParsedPage φ) :=
  match host.normalize mode content with
  | .error message => .error (.ocr message)
  | .ok result => .ok (result.page pageNumber)

/-- The loop over the result files. -/
def collect (host : Host ρ κ φ) (expected : List Nat) (mode : OcrMode) :
    List (String × κ) → List (Nat × ParsedPage φ) → Except ServiceError (List (Nat × ParsedPage φ))
  | [], results => .ok results
  | (name, content) :: rest, results =>
    match pageOfName name with
    | none => .error (.ocr s!"unexpected OCR result filename: {name}")
    | some pageNumber =>
      if pageNumber ∉ expected then .error (.ocr s!"unexpected OCR page result: {name}")
      else if pageNumber ∈ results.map (·.1) then
        .error (.ocr s!"duplicate OCR page result: {pageNumber}")
      else do
        let page ← normalizeOcrJson host content pageNumber mode
        collect host expected mode rest (results ++ [(pageNumber, page)])

/-- The entries that `glob` lists, sorted. -/
def pageResults (output : List (String × κ)) : List (String × κ) :=
  (output.filter fun entry => isPageResult entry.1).insertionSort fun a b => a.1 ≤ b.1

def loadOcrResults (host : Host ρ κ φ) (output : List (String × κ)) (expected : List Nat)
    (mode : OcrMode) : Except ServiceError (List (Nat × ParsedPage φ)) := do
  let results ← collect host expected mode (pageResults output) []
  let missing := expected.filter fun n => n ∉ results.map (·.1)
  if missing ≠ [] then .error (.ocr s!"OCR did not produce pages: {missing}")
  else .ok results

/-- `OcrSubprocessAdapter.parse_pages`. -/
def parseBatch (host : Host ρ κ φ) (index : Nat) (input : List (String × List ρ))
    (expected : List Nat) (mode : OcrMode) : Except ServiceError (List (Nat × ParsedPage φ)) :=
  match host.engine index input with
  | .error message => .error (.ocr message)
  | .ok output => loadOcrResults host output expected mode

/-! ## `IsolatedOcrAdapter.process` -/

/-- A page of the set, once. -/
def checkPage (seen : List Nat) (pageNumber : Nat) : Except ServiceError Unit :=
  if pageNumber < 1 ∨ (padded pageNumber).length ≠ 6 ∨ pageNumber ∈ seen then
    .error (.value "invalid OCR page set")
  else .ok ()

def checkPages : List Nat → List Nat → Except ServiceError Unit
  | _, [] => .ok ()
  | seen, pageNumber :: rest => do
    checkPage seen pageNumber
    checkPages (pageNumber :: seen) rest

/-- `pages[index::count]`. -/
def every (count index : Nat) (pages : List Nat) : List Nat :=
  (pages.zipIdx.filter fun p => p.2 % count = index).map (·.1)

def processBatches (count : Nat) (pages : List Nat) : List (List Nat) :=
  (List.range count).map fun index => every count index pages

/-- The input directory of a batch. -/
def batchInput (sourcePages : List (Nat × ρ)) (batch : List Nat) :
    Except ServiceError (List (String × List ρ)) :=
  batch.mapM fun pageNumber =>
    match sourcePages.lookup pageNumber with
    | none => .error (.key pageNumber)
    | some page => .ok (pageFile pageNumber, [page])

def resultItem (page : ParsedPage φ) : ResultItem φ :=
  ⟨page.pageNumber, page.text, methodValue page.parseMethod, page.blocks⟩

/-- `parsed_pages[number]`: of two entries the later one. -/
def parsedPage (parsed : List (Nat × ParsedPage φ)) (pageNumber : Nat) :
    Except ServiceError (ParsedPage φ) :=
  match parsed.reverse.lookup pageNumber with
  | none => .error (.key pageNumber)
  | some page => .ok page

/-- The pages it returns, and `result.json`. -/
def process (host : Host ρ κ φ) (input : List ρ) (pages : List Nat) (mode : OcrMode) :
    Except ServiceError (List Nat × ResultJson φ) := do
  checkPages [] pages
  if pages = [] then .error (.value "invalid OCR page set")
  else if input.length ≠ pages.length then
    .error (.runtime "OCR input page count does not match requested pages")
  else do
    let sourcePages := pages.zip input
    let batches := processBatches (min host.processCount pages.length) pages
    let work ← batches.mapM fun batch => do
      let directory ← batchInput sourcePages batch
      .ok (directory, batch)
    if host.cancelled .beforeTasks then .error .cancelled
    else do
      let results ← work.zipIdx.mapM fun task => parseBatch host task.2 task.1.1 task.1.2 mode
      let parsed := results.flatten
      if host.cancelled .afterTasks then .error .cancelled
      else do
        let items ← pages.mapM (parsedPage parsed)
        .ok (pages, ⟨mode.value, items.map resultItem⟩)

/-! ## The service -/

structure OcrRequest where
  requestId : String
  jobId : String
  pages : List Nat
  mode : String

/-- The fields' bounds and `validate_pages`. -/
def OcrRequest.valid (r : OcrRequest) : Bool :=
  requestIdMatches r.requestId.toList ∧ requestIdMatches r.jobId.toList ∧
    1 ≤ r.pages.length ∧ r.pages.length ≤ 32 ∧ (OcrMode.of r.mode).isSome ∧
    (r.pages.all fun n => 1 ≤ n ∧ n ≤ 100000) ∧ r.pages.Nodup

structure OcrResponse where
  requestId : String
  completedPages : List Nat
  mode : String

/-- `execute`, for a job whose workspace holds this PDF. -/
def execute (host : Host ρ κ φ) (input : List ρ) (request : OcrRequest) (mode : OcrMode) :
    Except ServiceError (List Nat × ResultJson φ) :=
  if host.draining then .error (.unavailable "OCR service is draining")
  else if request.requestId ∈ host.active then .error (.value "request_id is already active")
  else if host.cancelled .acquired then .error .cancelled
  else do
    let completed ← process host input request.pages mode
    if host.cancelled .processed then .error .cancelled
    else if completed.1 ≠ request.pages then
      .error (.runtime "OCR adapter returned an unexpected page set")
    else .ok completed

/-- `POST /ocr`; what it answers, and the file it leaves. -/
def postOcr (host : Host ρ κ φ) (input : List ρ) (request : OcrRequest) :
    Except ServiceError (OcrResponse × ResultJson φ) :=
  match request.valid, OcrMode.of request.mode with
  | true, some mode =>
    match execute host input request mode with
    | .ok (completed, json) => .ok (⟨request.requestId, completed, request.mode⟩, json)
    | .error (.value message) | .error (.workspace message) => .error (.http 409 message)
    | .error (.unavailable message) => .error (.http 503 message)
    | .error _ => .error (.http 500 "")
  | _, _ => .error (.http 422 "")

/-- `PUT /jobs/{job_id}/input`. -/
def putInput (host : Host ρ κ φ) (jobId : String) (content : List ρ) : Except ServiceError Unit :=
  if 100 * 1024 * 1024 < host.pdfBytes content then .error (.http 413 "PDF is too large")
  else if jobId ∈ host.workspaces then .error (.http 409 "OCR workspace already exists")
  else .ok ()

/-- `GET /jobs/{job_id}/result`. -/
def getResult (host : Host ρ κ φ) (json : ResultJson φ) : Except ServiceError (ResultJson φ) :=
  if 8 * 1024 * 1024 < host.jsonBytes json then .error (.http 500 "OCR result is invalid")
  else .ok json

/-! ## `OcrServiceClient.parse_pages` -/

inductive ClientError where
  | ocr (message : String)
  /-- `FileNotFoundError`. -/
  | missingFile (name : String)
deriving DecidableEq

/-- The PDF of the job: the page of each file. -/
def transferPdf (source : String → Option (List ρ)) (pages : List Nat) :
    Except ClientError (List ρ) :=
  pages.mapM fun pageNumber =>
    match source (pageFile pageNumber) with
    | none => .error (.missingFile (pageFile pageNumber))
    | some [page] => .ok page
    | some _ => .error (.ocr s!"OCR source page is invalid: {pageFile pageNumber}")

/-- The loop over the items of the result. -/
def readItems : List (ResultItem φ) → List (Nat × ParsedPage φ) →
    Except ServiceError (List (Nat × ParsedPage φ))
  | [], parsed => .ok parsed
  | item :: rest, parsed =>
    if item.pageNumber ∈ parsed.map (·.1) then
      .error (.value "OCR result contains a duplicate page")
    else
      match methodOf item.parseMethod with
      | none => .error (.value "not a valid ParseMethod")
      | some method =>
        readItems rest
          (parsed ++ [(item.pageNumber, ⟨item.pageNumber, item.text, method, item.blocks⟩)])

/-- A request that is not answered is an error of its own. -/
def exchange {α : Type} (host : Host ρ κ φ) (kind : Exchange) (answer : Except ServiceError α) :
    Except ServiceError α :=
  if host.answered kind then answer else .error (.http 0 "no answer")

/-- The body of the `try`. -/
def runJob (host : Host ρ κ φ) (jobId : String) (content : List ρ) (expectedPages : Finset Nat)
    (pages : List Nat) (mode : OcrMode) : Except ServiceError (List (Nat × ParsedPage φ)) := do
  let request : OcrRequest := ⟨jobId ++ "-run", jobId, pages, mode.value⟩
  exchange host .upload (putInput host jobId content)
  let (accepted, json) ← exchange host .run (postOcr host content request)
  if accepted.requestId ≠ request.requestId ∨ accepted.completedPages ≠ pages ∨
      accepted.mode ≠ mode.value then
    .error (.value "OCR completion response mismatch")
  else do
    let payload ← exchange host .result (getResult host json)
    if payload.mode ≠ mode.value then .error (.value "OCR result envelope is invalid")
    else if payload.pages.length ≠ pages.length then
      .error (.value "OCR result page count mismatch")
    else do
      let parsed ← readItems payload.pages []
      if payload.pages.map (·.pageNumber) ≠ pages ∨
          (parsed.map (·.1)).toFinset ≠ expectedPages then
        .error (.value "OCR result page mapping mismatch")
      else .ok parsed

/-- `parse_pages`; `jobId` is the one it has drawn. -/
def parsePages (host : Host ρ κ φ) (jobId : String) (source : String → Option (List ρ))
    (expectedPages : Finset Nat) (mode : OcrMode) :
    Except ClientError (List (Nat × ParsedPage φ)) := do
  let pages := expectedPages.sort (· ≤ ·)
  let content ← transferPdf source pages
  match runJob host jobId content expectedPages pages mode with
  | .ok parsed => .ok parsed
  | .error _ => .error (.ocr "isolated OCR service request failed")

end LocalRag.Ocr
