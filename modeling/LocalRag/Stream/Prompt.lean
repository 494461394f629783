import LocalRag.Chunking.Tokens
import LocalRag.Stream.Generation

/-!
# Prompts — what the two services send to the generator

Mirrors `_select_history`, `_source_block`, `_render_prompt` and `_budget_prompt` of
`app/services/chats.py`, `RagService.prepare_sources` of `app/services/rag.py` with its
template `prompts/rag_answer.txt`, and the bounds of `GenerateRequest.prompt`
(`app/runtime/protocol.py`), the request the prompt travels in.

Prompts are budgeted in tokens; how tokens are counted is a parameter of the code here
and the chunker's `count_tokens` in the results (`textTokens`).
-/

namespace LocalRag.Stream

open LocalRag.Core

/-- `"\n\n".join(blocks)`. -/
def joinBlocks : List String → String
  | [] => ""
  | [block] => block
  | block :: next :: rest => block ++ "\n\n" ++ joinBlocks (next :: rest)

/-! ## History -/

def maxHistoryTokens : Nat := 1536
def maxCombinedTokens : Nat := 6144

structure HistoryPair where
  question : String
  answer : String
deriving Repr, DecidableEq

def historyBlock (pair : HistoryPair) : String :=
  "User: " ++ pair.question ++ "\nAssistant: " ++ pair.answer

/-- The loop of `_select_history`, over the pairs from the last one on: a pair that does not fit
is passed over. -/
def selectLoop (countTokens : String → Nat) (budget : Nat) :
    List HistoryPair → List String → List String
  | [], selected => selected
  | pair :: rest, selected =>
    if countTokens (joinBlocks (historyBlock pair :: selected)) ≤ budget then
      selectLoop countTokens budget rest (selected ++ [historyBlock pair])
    else selectLoop countTokens budget rest selected

/-- `_select_history`. -/
def selectHistory (countTokens : String → Nat) (history : List HistoryPair) (budget : Nat) :
    String :=
  joinBlocks (selectLoop countTokens budget history.reverse []).reverse

/-! ## Sources -/

/-- The page, or the range of pages. -/
def pageText (pageStart pageEnd : Nat) : String :=
  if pageStart = pageEnd then toString pageStart
  else toString pageStart ++ "-" ++ toString pageEnd

/-- `section or "Not specified"`. -/
def sectionText (sectionName : Option String) : String :=
  if sectionName.getD "" = "" then "Not specified" else sectionName.getD ""

/-- The labelled block of a source, the same text in both services. -/
def blockText (label filename displayName logicalPath page sectionName text : String) : String :=
  "[" ++ label ++ "]\nFilename: " ++ filename ++ "\nCurrent display name: " ++ displayName ++
    "\nLogical path: " ++ logicalPath ++ "\nPage: " ++ page ++ "\nSection: " ++ sectionName ++
    "\nContent:\n" ++ text

/-- `ChatSourceSnapshot` with the fields its payload does not show. -/
structure SourceSnapshot extends ChatSourceSnapshot where
  sourceSha256 : String
  textSha256 : String
  text : String
  tokenCount : Nat
deriving Repr, DecidableEq

/-- `_source_block`. -/
def sourceBlock (source : SourceSnapshot) : String :=
  blockText source.label source.originalFilename source.displayName source.logicalPath
    (pageText source.pageStart source.pageEnd) (sectionText source.sectionName) source.text

/-! ## `_budget_prompt` -/

/-- `_render_prompt`. -/
def renderPrompt (question history sources : String) : String :=
  "Answer the current question using only the labeled source blocks.\n" ++
    "Conversation history is reference context only and is not factual evidence.\n" ++
    "Every factual claim must cite [S1], [S2], etc.\n" ++
    "If sources are insufficient, reply exactly: INSUFFICIENT_CONTEXT\n\n" ++
    "Conversation history:\n" ++
    (if history = "" then "No completed conversation history." else history) ++
    "\n\nCurrent question:\n" ++ question ++ "\n\nSources:" ++ "\n" ++ sources

section Budget

variable (countTokens : String → Nat) (question : String) (history : List HistoryPair)

/-- What the shell leaves of the context, at most 6144 tokens. -/
def combinedBudget : Nat :=
  min maxCombinedTokens (modelContextTokens - outputTokens - promptFormattingReserveTokens -
    countTokens (renderPrompt question "" ""))

def historyText : String :=
  selectHistory countTokens history (min maxHistoryTokens (combinedBudget countTokens question))

def historyTokens : Nat :=
  if historyText countTokens question history = "" then 0
  else countTokens (historyText countTokens question history)

def sourceBudget : Int :=
  (combinedBudget countTokens question : Int) - historyTokens countTokens question history

/-- The source as the prompt labels it. -/
def relabel (rank : Nat) (source : SourceSnapshot) : SourceSnapshot :=
  { source with rank := rank, label := rankLabel rank }

def sourceBlocks (sources : List SourceSnapshot) : String := joinBlocks (sources.map sourceBlock)

/-- The prompt for these labelled sources. -/
def promptFor (sources : List SourceSnapshot) : String :=
  renderPrompt question (historyText countTokens question history) (sourceBlocks sources)

/-- The two tests of the loop: the blocks fit what is left for sources, and the prompt fits the
context. -/
def tokensFit (sources : List SourceSnapshot) : Bool :=
  (countTokens (sourceBlocks sources) : Int) ≤ sourceBudget countTokens question history ∧
    fitsContext (countTokens (promptFor countTokens question history sources))

/-- The loop of `_budget_prompt`: the sources are taken as long as they fit. -/
def selectSources : List SourceSnapshot → List SourceSnapshot → List SourceSnapshot
  | [], selected => selected
  | source :: rest, selected =>
    if tokensFit countTokens question history
        (selected ++ [relabel (selected.length + 1) source]) then
      selectSources rest (selected ++ [relabel (selected.length + 1) source])
    else selected

/-- The checks after the loop. -/
def checkBudget (selected : List SourceSnapshot) :
    Except Raised (List SourceSnapshot × Option String) :=
  if selected = [] then .ok ([], none)
  else if ¬ fitsContext (countTokens (promptFor countTokens question history selected)) then
    .error (runtimeError "chat prompt exceeds the model context budget")
  else if maxHistoryTokens < historyTokens countTokens question history then
    .error (runtimeError "chat history exceeds its token budget")
  else if maxCombinedTokens < historyTokens countTokens question history +
      countTokens (sourceBlocks selected) then
    .error (runtimeError "chat context exceeds its combined token budget")
  else .ok (selected, some (promptFor countTokens question history selected))

/-- `_budget_prompt`. -/
def budgetPrompt (sources : List SourceSnapshot) :
    Except Raised (List SourceSnapshot × Option String) :=
  checkBudget countTokens question history
    (selectSources countTokens question history sources [])

end Budget

/-! ## `RagService.prepare_sources` -/

/-- What is read of a reranked chunk. -/
structure RankedChunk where
  id : ChunkId
  documentId : DocumentId
  filename : String
  pageStart : Nat
  pageEnd : Nat
  sectionName : Option String
  text : String
deriving Repr, DecidableEq

/-- What is read of a `LibraryLocation`. -/
structure LibraryLocation where
  displayName : String
  logicalPath : String
deriving Repr, DecidableEq

structure PreparedSource where
  label : String
  chunkId : ChunkId
  filename : String
  documentId : DocumentId
  displayName : String
  logicalPath : String
  pageStart : Nat
  pageEnd : Nat
  sectionName : Option String
  text : String
deriving Repr, DecidableEq

/-- `_materialize_sources`, from the rank `index` on. -/
def materializeSources (locations : DocumentId → Option LibraryLocation) :
    Nat → List RankedChunk → Except Raised (List PreparedSource)
  | _, [] => .ok []
  | index, chunk :: rest =>
    match locations chunk.documentId with
    | none => .error (.exception ⟨"LibraryCorruption", by decide⟩
        s!"document {chunk.documentId} has no canonical library node")
    | some location =>
      (materializeSources locations (index + 1) rest).map
        (⟨rankLabel index, chunk.id, chunk.filename, chunk.documentId, location.displayName,
          location.logicalPath, chunk.pageStart, chunk.pageEnd, chunk.sectionName, chunk.text⟩ :: ·)

/-- `_format_source`. -/
def formatSource (source : PreparedSource) : String :=
  blockText source.label source.filename source.displayName source.logicalPath
    (pageText source.pageStart source.pageEnd) (sectionText source.sectionName) source.text

/-- `prompts/rag_answer.txt`, filled in. -/
def ragAnswer (question sources : String) : String :=
  "Answer the question using only the labeled source blocks below.\n" ++
    "Every factual claim must cite one or more source labels exactly as [S1], [S2], etc.\n" ++
    "Never cite a label that is not provided.\n" ++
    "If the sources do not answer the question, reply exactly: INSUFFICIENT_CONTEXT\n\n" ++
    "Question:\n" ++ question ++ "\n\nSources:\n" ++ sources ++ "\n"

/-- The prompt of these sources, with `_ensure_prompt_budget`. -/
def prepareBlocks (countTokens : String → Nat) (question : String)
    (sources : List PreparedSource) : Except Raised (Option String × List PreparedSource) :=
  if sources = [] then .ok (none, [])
  else if ¬ fitsContext (countTokens
      (ragAnswer question (joinBlocks (sources.map formatSource)))) then
    .error (runtimeError "query prompt exceeds the configured model context budget")
  else .ok (some (ragAnswer question (joinBlocks (sources.map formatSource))), sources)

/-- `RagService.prepare_sources`. -/
def prepareSources (countTokens : String → Nat) (locations : DocumentId → Option LibraryLocation)
    (question : String) (ranked : List RankedChunk) :
    Except Raised (Option String × List PreparedSource) :=
  if ranked = [] then .ok (none, [])
  else
    match materializeSources locations 1 ranked with
    | .error e => .error e
    | .ok sources => prepareBlocks countTokens question sources

/-! ## `GenerateRequest` -/

/-- `prompt: str = Field(min_length=1, max_length=32_768)`. -/
def promptAccepted (prompt : String) : Bool := 1 ≤ prompt.length ∧ prompt.length ≤ 32768

end LocalRag.Stream
