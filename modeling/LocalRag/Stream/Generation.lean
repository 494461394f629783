import LocalRag.Stream.Events

/-!
# Generation — chunks, prompts and citations

The pure parts of an answer: the chunks a generator yields
(`app/services/ollama_generation.py`), the prompts of a continuation and of a
citation repair with their token budget, and what counts as a cited or an
insufficient answer (`_validated_source_ranks` of `app/services/chats.py`,
`is_explicit_insufficient_context` of `app/services/answer_protocol.py`).

Mirroring notes.
* `__post_init__` rejects a chunk with an empty or overlong text, so a chunk text
  is a `ChunkText`.
* `count_tokens` is a parameter: nothing here depends on how tokens are counted.
* The two regular expressions have no choice in what they match: the run between
  `[S` and `]` excludes `]`, so each matches at a position or does not.
-/

namespace LocalRag.Stream

open LocalRag.Core

/-! ## Chunks -/

structure GenerationUsage where
  promptEvalCount : Nat
  evalCount : Nat
  totalDurationNs : Nat
  loadDurationNs : Nat
  promptEvalDurationNs : Nat
  evalDurationNs : Nat
  estimatedPromptTokens : Nat
deriving Repr, DecidableEq

/-- A text of 1 to 32768 characters. -/
abbrev ChunkText := { s : String // 1 ≤ s.length ∧ s.length ≤ 32768 }

inductive DoneReason where
  | stop
  | length
deriving Repr, DecidableEq

inductive GenerationChunk where
  | thinking (text : ChunkText)
  | answer (text : ChunkText)
  | done (doneReason : DoneReason) (usage : Option GenerationUsage)
deriving Repr, DecidableEq

/-! ## What an await may raise -/

/-- An exception: the ones the handlers name, and any other with its class and
`str(exc)`. -/
inductive Raised where
  | cancelled
  | generatorExit
  | accessRevoked
  | http (statusCode : Nat) (detail : String)
  | exception (className : { s : String // s ≠ "" }) (message : String)
deriving Repr, DecidableEq

/-- Caught by `except Exception`. -/
def Raised.isException : Raised → Bool
  | .cancelled | .generatorExit => false
  | .accessRevoked | .http _ _ | .exception _ _ => true

/-- `raise RuntimeError(message)`. -/
def runtimeError (message : String) : Raised := .exception ⟨"RuntimeError", by decide⟩ message

/-- `exc.__class__.__name__`. -/
def Raised.className : Raised → String
  | .cancelled => "CancelledError"
  | .generatorExit => "GeneratorExit"
  | .accessRevoked => "ChatAccessRevoked"
  | .http _ _ => "HTTPException"
  | .exception className _ => className.1

/-- `str(exc)`. -/
def Raised.text : Raised → String
  | .cancelled | .generatorExit => ""
  | .accessRevoked => "source access was revoked"
  | .http statusCode detail => toString statusCode ++ ": " ++ detail
  | .exception _ message => message

/-- `(text.strip() or fallback)[:500]`. -/
def boundedText (text fallback : String) : String :=
  String.ofList ((if strip text = "" then fallback else strip text).toList.take 500)

/-- `_bounded_error`. -/
def boundedError (r : Raised) : String := boundedText r.text r.className

/-! ## Budgets -/

def modelContextTokens : Nat := 16384
def outputTokens : Nat := 3072
def promptFormattingReserveTokens : Nat := 256

/-- The prompt, the output and the reserve fit the context of the model. -/
def fitsContext (tokens : Nat) : Bool :=
  tokens + outputTokens + promptFormattingReserveTokens ≤ modelContextTokens

/-- `_validate_generation_usage`. -/
def validateGenerationUsage : Option GenerationUsage → Except Raised Unit
  | none => .ok ()
  | some usage =>
    if ¬ fitsContext usage.promptEvalCount then
      .error (runtimeError "generation prompt exceeded the configured model context budget")
    else .ok ()

/-- `_continuation_prompt`. -/
def continuationPrompt (countTokens : String → Nat) (basePrompt partialAnswer : String) :
    Except Raised String :=
  let prompt := basePrompt ++ "\n\n" ++
    "The answer below stopped only because the generation limit was reached. " ++
    "Continue exactly where it stopped. Return only the missing continuation. " ++
    "Do not repeat, restart, summarize, or revise existing text. Preserve its " ++
    "Markdown structure and finish every citation and table row.\n\n" ++
    "<partial_answer>\n" ++ partialAnswer ++ "\n</partial_answer>"
  if ¬ fitsContext (countTokens prompt) then
    .error (runtimeError "continuation prompt exceeds the model context budget")
  else .ok prompt

/-- `_citation_repair_prompt`. -/
def citationRepairPrompt (countTokens : String → Nat) (basePrompt draftAnswer : String) :
    Except Raised String :=
  let prompt := basePrompt ++ "\n\n" ++
    "The draft answer below contains useful content but failed citation " ++
    "validation. Rewrite it without adding facts. Preserve its meaning and " ++
    "Markdown structure, including exactly the requested table columns. " ++
    "Remove any unsupported claim. Add a valid source citation such as [S1] " ++
    "to every factual table row and factual sentence. Use only source labels " ++
    "that appear in the labeled source blocks above. Return only the repaired " ++
    "answer, with no commentary about the repair.\n\n" ++
    "<draft_answer>\n" ++ draftAnswer ++ "\n</draft_answer>"
  if ¬ fitsContext (countTokens prompt) then
    .error (runtimeError "citation repair prompt exceeds the model context budget")
  else .ok prompt

/-! ## The monitored generation -/

/-- One turn of the loop of `_monitored_generation`: a second passed and the
monitor ran, or a chunk arrived, after the monitor if it was due. `none` is a
monitor that returned or was not due. -/
inductive Poll where
  | timeout (monitor : Option Raised)
  | chunk (chunk : GenerationChunk) (monitor : Option Raised)
deriving Repr, DecidableEq

/-- One generation call: its polls, and how the generator ended after them;
`none` is `StopAsyncIteration`. -/
structure Generation where
  polls : List Poll
  ending : Option Raised
deriving Repr, DecidableEq

/-- `_monitored_generation`: the chunks it yields, and what it raises after them. -/
def monitoredGeneration : List Poll → Option Raised → List GenerationChunk × Option Raised
  | [], ending => ([], ending)
  | .timeout none :: rest, ending => monitoredGeneration rest ending
  | .timeout (some r) :: _, _ => ([], some r)
  | .chunk c none :: rest, ending =>
    (c :: (monitoredGeneration rest ending).1, (monitoredGeneration rest ending).2)
  | .chunk _ (some r) :: _, _ => ([], some r)

def Generation.chunks (g : Generation) : List GenerationChunk :=
  (monitoredGeneration g.polls g.ending).1

def Generation.raised (g : Generation) : Option Raised :=
  (monitoredGeneration g.polls g.ending).2

/-! ## Citations -/

/-- `is_explicit_insufficient_context`. -/
def isExplicitInsufficientContext (answer : String) : Bool :=
  (((splitlines (strip answer).toList).map fun line => strip (String.ofList line)).filter
    fun line => line ≠ "").getLast? = some "INSUFFICIENT_CONTEXT"

/-- `re.findall`, for an expression that matches at a position in at most one
way: `skip` counts the characters of the last match still ahead. -/
def findAll (matchAt : List Char → Option (List Char)) : Nat → List Char → List (List Char)
  | _, [] => []
  | skip + 1, _ :: rest => findAll matchAt skip rest
  | 0, c :: rest =>
    match matchAt (c :: rest) with
    | some found => found :: findAll matchAt (found.length - 1) rest
    | none => findAll matchAt 0 rest

/-- `[S` followed by a run of characters in the class and `]`. -/
def bracketed (inClass : Char → Bool) : List Char → Option (List Char)
  | '[' :: 'S' :: rest =>
    if (rest.drop (rest.takeWhile inClass).length).head? = some ']' then
      some ('[' :: 'S' :: rest.takeWhile inClass ++ [']'])
    else none
  | _ => none

/-- `_SOURCE_LIKE.findall(answer)`. -/
def sourceLike (answer : String) : List String :=
  (findAll (bracketed fun c => c ≠ ']' ∧ c ≠ '\r' ∧ c ≠ '\n') 0 answer.toList).map String.ofList

/-- `[f"S{number}" for number in _SOURCE_LABEL.findall(answer)]`. -/
def sourceLabels (answer : String) : List String :=
  (findAll (fun s => (bracketed isDecimal s).filter fun found => 3 < found.length) 0
    answer.toList).map fun found => String.ofList ((found.drop 1).dropLast)

/-- `supplied[label]`: a dictionary keeps the last source with a label. -/
def supplied (sources : List ChatSourceSnapshot) (label : String) : Option ChatSourceSnapshot :=
  sources.reverse.find? fun s => s.label = label

/-- `_validated_source_ranks`. -/
def validatedSourceRanks (answer : String) (sources : List ChatSourceSnapshot) :
    Option (List ChatSourceSnapshot) :=
  if answer = "" ∨ isExplicitInsufficientContext answer then none
  else if (sourceLike answer).any fun token =>
      token ∉ sources.map fun s => "[" ++ s.label ++ "]" then none
  else if sourceLabels answer = [] ∨
      (sourceLabels answer).any fun label => label ∉ sources.map (·.label) then none
  else some ((sourceLabels answer).eraseDups.filterMap (supplied sources))

end LocalRag.Stream
