import LocalRag.Core.Gen
import LocalRag.Stream.Generation

/-!
# One chat response — the route and the service behind it

`ChatService.stream` (`app/services/chats.py`) and the `stream` of
`_prepared_response` (`app/routes/chats.py`) that wraps it, statement by
statement, as bodies that yield frames and may raise (`Core.Gen`). What the
outside world answers is fixed beforehand: `Preparation` for the awaits of the
route, `Callbacks` for the generator and the callbacks, each call site with its
own answer, since a response reaches each of them at most once. A for-all over
both is a for-all over every behaviour.

Each of the two generators counts its own events. The service starts from the
number the route hands over (`forward`), and the route goes on counting from its
own when an exception comes back.

Mirroring notes.
* The parameters of the callbacks that decide no event (actor, session) are left
  out; `transitions` is the record of the transition calls and their answers.
* The prompt of a fresh turn is part of its snapshot, as `_budget_prompt` built
  it; a continuation's is computed here.
* A client that goes away closes the response at a `yield`: what was sent is a
  prefix of the frames here. A cancellation of an await is `Raised.cancelled`.
-/

namespace LocalRag.Stream

open LocalRag.Core

/-! ## Turns -/

/-- `BeginTurn`: the fields the response reads. -/
structure BeginTurn where
  chatId : ChatId
  turnId : TurnId
  token : Option LeaseToken
  alreadyComplete : Bool
  continuationAnswer : Option String
deriving Repr, DecidableEq

/-- The rows of `turn_sources` in rank order, as `_budget_prompt` relabels them. -/
structure SourcesOk (sources : List ChatSourceSnapshot) : Prop where
  ranks : ∀ i s, sources[i]? = some s → s.rank = i + 1 ∧ s.label = rankLabel (i + 1)
  count : sources.length ≤ 8
  named : ∀ s ∈ sources, s.originalFilename ≠ "" ∧ s.displayName ≠ "" ∧ s.logicalPath ≠ ""
  pages : ∀ s ∈ sources, 1 ≤ s.pageStart ∧ s.pageStart ≤ s.pageEnd

/-- The sources a response was prepared with, and the prompt that shows them. -/
structure Snapshot where
  sources : List ChatSourceSnapshot
  basePrompt : String
  sources_ok : SourcesOk sources

/-- `PreparedChatTurn`. -/
structure PreparedChatTurn where
  chatId : ChatId
  turnId : TurnId
  token : Option LeaseToken
  prompt : Option String
  sources : List ChatSourceSnapshot
  alreadyComplete : Bool
  accessRevoked : Bool
  continuationAnswer : Option String
  citationBasePrompt : Option String
deriving Repr, DecidableEq

/-! ## The response so far -/

/-- Who asked for a transition: the answer's own end, the service recording an
error, or the route. -/
inductive Recorder where
  | draft
  | service
  | route
deriving Repr, DecidableEq

/-- A transition call and what it answered. -/
structure Recorded where
  recorder : Recorder
  status : TurnStatus
  raised : Option Raised
deriving Repr, DecidableEq

/-- A generator's counter, the frames it yielded, and the transitions it made. -/
structure Response where
  sequence : Nat
  frames : List Frame
  transitions : List Recorded
deriving Repr, DecidableEq

/-- A body of one of the two generators. -/
abbrev Body := Gen Response Raised

/-- The row `event` numbers and yields. -/
def numbered (chatId : ChatId) (turnId : TurnId) (e : Event) (r : Response) : Response :=
  { r with
    sequence := r.sequence + 1
    frames := r.frames ++ [⟨chatId, turnId, r.sequence, e⟩] }

/-- `yield event(name, payload)`. -/
def event (chatId : ChatId) (turnId : TurnId) (e : Event) : Body Unit :=
  Gen.update (numbered chatId turnId e)

/-- `await`: return, or raise what the awaited call raised. -/
def await : Option Raised → Body Unit
  | none => pure ()
  | some r => throw r

/-- A call that computes a value or raises. -/
def attempt {α : Type} : Except Raised α → Body α
  | .ok a => pure a
  | .error r => throw r

/-- The response with one more transition call on record. -/
def recorded (recorder : Recorder) (status : TurnStatus) (answer : Option Raised)
    (r : Response) : Response :=
  { r with transitions := r.transitions ++ [⟨recorder, status, answer⟩] }

/-- `await transition(begin, status, message)`. -/
def transition (recorder : Recorder) (status : TurnStatus) (answer : Option Raised) :
    Body Unit := do
  Gen.update (recorded recorder status answer)
  await answer

/-! ## The outside world -/

/-- The source rows whose document or chunk was removed since the snapshot. -/
structure Detached where
  documents : List Nat
  chunks : List Nat
deriving Repr, DecidableEq

/-- What the generator and the callbacks answer. -/
structure Callbacks where
  countTokens : String → Nat
  monitor : Option Raised
  generation : Nat → Generation
  repair : Generation
  finalize : Except Raised Detached
  draft : Option Raised
  service : Option Raised
  route : Option Raised

/-- What the awaits of the route answer before the service starts. -/
structure Preparation where
  embed : Option Raised
  retrieve : Option Raised
  rerank : Option Raised
  snapshot : Except Raised Snapshot
  available : Option Raised

/-- `_snapshot_from_row`, for the row of a cited source. -/
def snapshotFromRow (detached : Detached) (s : ChatSourceSnapshot) : ChatSourceSnapshot :=
  { s with
    documentId := if s.rank ∈ detached.documents then none else s.documentId
    chunkId := if s.rank ∈ detached.chunks then none else s.chunkId }

/-! ## `ChatService.stream` -/

/-- The local variables of the answer loop. -/
structure Answering where
  parts : List String
  visibleReasoning : Nat
  reasoningTruncated : Bool
  answerStarted : Bool
deriving Repr, DecidableEq

section Service

variable (cb : Callbacks) (prepared : PreparedChatTurn)

/-- `yield event(…)` of the service. -/
def serviceEvent (e : Event) : Body Unit := event prepared.chatId prepared.turnId e

/-- The first characters of a text. -/
def firstChars (n : Nat) (text : String) : String := String.ofList (text.toList.take n)

/-- A thinking chunk: show what is left of the visible reasoning. -/
def showReasoning (text : String) (st : Answering) : Body Answering := do
  let remaining := maxReasoningCodePoints - st.visibleReasoning
  let visibleText := firstChars remaining text
  Gen.when (visibleText ≠ "") (serviceEvent prepared (.reasoningDelta visibleText))
  return { st with
    visibleReasoning := st.visibleReasoning + visibleText.length
    reasoningTruncated := st.reasoningTruncated || remaining < text.length }

/-- `if not answer_started:` end the reasoning. -/
def startAnswer (st : Answering) : Body Answering := do
  if st.answerStarted then return st
  serviceEvent prepared (.reasoningEnd st.reasoningTruncated)
  serviceEvent prepared (.status .streamingAnswer)
  return { st with answerStarted := true }

/-- `async for chunk in self._monitored_generation(…)`: the stop reason, if a
terminal chunk arrived. -/
def readChunks (thinks : Bool) (raised : Option Raised) :
    List GenerationChunk → Answering → Body (Option DoneReason × Answering)
  | [], st => do
    await raised
    return (none, st)
  | .done doneReason usage :: _, st => do
    attempt (validateGenerationUsage usage)
    return (some doneReason, st)
  | .thinking text :: rest, st => do
    Gen.when (st.answerStarted ∨ ¬ thinks)
      (throw (runtimeError "generation returned thinking after answer text"))
    let st ← showReasoning prepared text.1 st
    readChunks thinks raised rest st
  | .answer text :: rest, st => do
    let st ← startAnswer prepared st
    serviceEvent prepared (.token text.1)
    readChunks thinks raised rest { st with parts := st.parts ++ [text.1] }

/-- `while True:` over the generation calls, with the number of automatic
continuations left. The answer's parts, or nothing after the second limit. -/
def answerLoop (basePrompt : String) :
    (continuations : Nat) → (call : Nat) → (thinks : Bool) → Answering →
      Body (Option (List String))
  | continuations, call, thinks, st => do
    let (stopReason, st) ←
      readChunks prepared thinks (cb.generation call).raised (cb.generation call).chunks st
    match stopReason with
    | none => throw (runtimeError "generation ended without a terminal stop reason")
    | some .stop => return some st.parts
    | some .length =>
      let st ← startAnswer prepared st
      match continuations with
      | continuations + 1 =>
        serviceEvent prepared (.status .continuingAnswer)
        let _ ← attempt (continuationPrompt cb.countTokens basePrompt (String.join st.parts))
        answerLoop basePrompt continuations (call + 1) false st
      | 0 =>
        Gen.when (strip (String.join st.parts) = "")
          (throw (runtimeError "model exhausted the generation limit without an answer"))
        transition .draft .lengthLimited cb.draft
        serviceEvent prepared (.error "generation_limit"
          ("The response reached its generation limit twice. " ++
            "The partial answer is unverified; continue the response."))
        return none

/-- `async for chunk in …` of the citation repair: the stop reason and the
repaired parts. -/
def readRepair (raised : Option Raised) :
    List GenerationChunk → List String → Body (Option DoneReason × List String)
  | [], parts => do
    await raised
    return (none, parts)
  | .done doneReason usage :: _, parts => do
    attempt (validateGenerationUsage usage)
    return (some doneReason, parts)
  | .thinking _ :: _, _ => throw (runtimeError "citation repair returned an invalid chunk type")
  | .answer text :: rest, parts => do
    serviceEvent prepared (.token text.1)
    readRepair raised rest (parts ++ [text.1])

/-- The end of the citation repair, with the sources of the repaired answer if it
is cited. -/
def concludeRepair (repairedAnswer : String) :
    Option (List ChatSourceSnapshot) → Body (Option (String × List ChatSourceSnapshot))
  | none => do
    transition .draft .citationFailed cb.draft
    serviceEvent prepared (.error "citation_validation_failed"
      ("The answer could not be citation-verified. " ++ "The draft was preserved for retry."))
    return none
  | some cited => do
    serviceEvent prepared (.status .validatingCitations)
    return some (repairedAnswer, cited)

/-- The citation repair: the repaired answer with its sources, or nothing if it
failed too. -/
def repairCitations (answer : String) :
    Body (Option (String × List ChatSourceSnapshot)) := do
  serviceEvent prepared (.status .repairingCitations)
  serviceEvent prepared .answerReset
  -- `prepared.citation_base_prompt or prepared.prompt`: an empty prompt is false
  let basePrompt := (prepared.citationBasePrompt.filter (· ≠ "")).getD (prepared.prompt.getD "")
  let _ ← attempt (citationRepairPrompt cb.countTokens basePrompt answer)
  let (stopReason, parts) ← readRepair prepared cb.repair.raised cb.repair.chunks []
  let repairedAnswer := strip (String.join parts)
  concludeRepair cb prepared repairedAnswer
    (if stopReason = some .stop then validatedSourceRanks repairedAnswer prepared.sources else none)

def insufficientContextAnswer : String :=
  "I don't have sufficient context in the selected documents to answer that question."

/-- `finalize`, then the final event's payload. -/
def finalizeAnswer (answer : String) (cited : Option (List ChatSourceSnapshot)) :
    Body FinalEvent := do
  let insufficient := isExplicitInsufficientContext answer
  Gen.when (¬ insufficient ∧ cited = none)
    (throw (runtimeError "citation validation returned no sources"))
  let citations := if insufficient then [] else cited.getD []
  let detached ← attempt cb.finalize
  return {
    answer := if insufficient then insufficientContextAnswer else answer
    insufficientContext := insufficient
    citations := citations.map fun s => (snapshotFromRow detached s).payload }

/-- The end of the `try` block, from the collected answer. -/
def validateAnswer (parts : List String) : Body (Option FinalEvent) := do
  let answer := strip (String.join parts)
  let cited := validatedSourceRanks answer prepared.sources
  serviceEvent prepared (.status .validatingCitations)
  if cited = none ∧ answer ≠ "" ∧ ¬ isExplicitInsufficientContext answer then
    match ← repairCitations cb prepared answer with
    | none => return none
    | some (repaired, repairedCited) => some <$> finalizeAnswer cb repaired (some repairedCited)
  else some <$> finalizeAnswer cb answer cited

/-- The events of a continued answer, before the generation goes on. -/
def resumeAnswer : Option String → Body Answering
  | none => return ⟨[], 0, false, false⟩
  | some partialAnswer => do
    serviceEvent prepared (.reasoningEnd false)
    serviceEvent prepared (.status .streamingAnswer)
    serviceEvent prepared (.token partialAnswer)
    serviceEvent prepared (.status .continuingAnswer)
    return ⟨[partialAnswer], 0, false, true⟩

/-- The `try` block: the final event, or nothing if an error was sent. -/
def answerTurn (prompt : String) : Body (Option FinalEvent) := do
  await cb.monitor
  serviceEvent prepared (.sources (prepared.sources.map (·.payload)))
  serviceEvent prepared (.status .reasoning)
  serviceEvent prepared .reasoningStart
  let st ← resumeAnswer prepared prepared.continuationAnswer
  let fresh := prepared.continuationAnswer.isNone
  match ← answerLoop cb prepared prompt (if fresh then 1 else 0) 0 fresh st with
  | none => return none
  | some parts => validateAnswer cb prepared parts

/-- The `except` clauses. -/
def recordFailure (r : Raised) : Body (Option FinalEvent) := do
  match r with
  | .cancelled | .generatorExit =>
    transition .service .interrupted cb.service
    throw r
  | .accessRevoked =>
    transition .service .accessRevoked cb.service
    serviceEvent prepared (.error "access_revoked" "access to a source was revoked")
    return none
  | .http _ _ | .exception _ _ =>
    transition .service .failed cb.service
    serviceEvent prepared (.error "generation_failed" (boundedError r))
    return none

/-- `ChatService.stream`. -/
def serviceStream : Body Unit := do
  if prepared.accessRevoked then
    serviceEvent prepared (.error "access_revoked" "access to a source was revoked")
  else
    match (if prepared.alreadyComplete then none else prepared.prompt) with
    | none =>
      serviceEvent prepared (.sources (prepared.sources.map (·.payload)))
      serviceEvent prepared (.status .validatingCitations)
      serviceEvent prepared (.final ⟨insufficientContextAnswer, true, []⟩)
    | some prompt =>
      match ← tryCatch (answerTurn cb prepared prompt) (recordFailure cb prepared) with
      | none => return ()
      | some final => serviceEvent prepared (.final final)

end Service

/-! ## The route -/

/-- `async for frame in chats.stream(…, sequence_start=sequence): yield frame`. -/
def forward (inner : Body Unit) : Body Unit := fun r =>
  match inner { sequence := r.sequence, frames := [], transitions := [] } with
  | (result, s) =>
    (result, { r with
      frames := r.frames ++ s.frames
      transitions := r.transitions ++ s.transitions })

/-- `snapshot_sources`, from the rows it read. -/
def snapshotSources (cb : Callbacks) (begin : BeginTurn) (snapshot : Snapshot) :
    Except Raised PreparedChatTurn :=
  match begin.continuationAnswer with
  | some partialAnswer =>
    if snapshot.sources = [] then .error .accessRevoked
    else do
      let prompt ← continuationPrompt cb.countTokens snapshot.basePrompt partialAnswer
      return {
        chatId := begin.chatId
        turnId := begin.turnId
        token := begin.token
        prompt := some prompt
        sources := snapshot.sources
        alreadyComplete := false
        accessRevoked := false
        continuationAnswer := some partialAnswer
        citationBasePrompt := some snapshot.basePrompt }
  | none =>
    let prompt := if snapshot.sources = [] then none else some snapshot.basePrompt
    .ok {
      chatId := begin.chatId
      turnId := begin.turnId
      token := if snapshot.sources = [] then none else begin.token
      prompt := prompt
      sources := snapshot.sources
      alreadyComplete := snapshot.sources = []
      accessRevoked := false
      continuationAnswer := none
      citationBasePrompt := prompt }

section Route

variable (cb : Callbacks) (prep : Preparation) (begin : BeginTurn)

def routeEvent (e : Event) : Body Unit := event begin.chatId begin.turnId e

/-- `pending`. -/
def pendingTurn : PreparedChatTurn :=
  { chatId := begin.chatId
    turnId := begin.turnId
    token := begin.token
    prompt := none
    sources := []
    alreadyComplete := begin.alreadyComplete
    accessRevoked := false
    continuationAnswer := none
    citationBasePrompt := none }

/-- The `try` block of the route. -/
def prepareAndStream : Body Unit := do
  routeEvent begin (.status .retrieving)
  if begin.alreadyComplete then
    routeEvent begin (.status .reranking)
    routeEvent begin (.status .preparingAnswer)
    forward (serviceStream cb (pendingTurn begin))
  else
    await prep.embed
    await (if begin.continuationAnswer.isNone then prep.retrieve else none)
    routeEvent begin (.status .reranking)
    await prep.rerank
    routeEvent begin (.status .preparingAnswer)
    let snapshot ← attempt prep.snapshot
    let prepared ← attempt (snapshotSources cb begin snapshot)
    await prep.available
    forward (serviceStream cb prepared)

/-- `_mark_access_revoked_trusted`, then the error event. -/
def revokeTrusted : Body Unit := do
  transition .route .accessRevoked (if begin.token.isNone then none else cb.route)
  routeEvent begin (.error "access_revoked" "access to a source was revoked")

/-- `transition(begin, "failed", message)`, then the error event. -/
def failTurn (message : String) : Body Unit := do
  transition .route .failed cb.route
  routeEvent begin (.error "generation_failed" message)

/-- The `except` clauses of the route. -/
def recordRouteFailure (r : Raised) : Body Unit := do
  match r with
  | .cancelled | .generatorExit =>
    Gen.when (¬ begin.alreadyComplete ∧ begin.token.isSome)
      (transition .route .interrupted cb.route)
    throw r
  | .accessRevoked => revokeTrusted cb begin
  | .http statusCode detail =>
    if statusCode ∈ [401, 403, 404] then revokeTrusted cb begin
    else failTurn cb begin (boundedText detail "generation failed")
  | .exception _ _ => failTurn cb begin (boundedError r)

/-- The `stream` of `_prepared_response`. -/
def routeStream : Body Unit :=
  tryCatch (prepareAndStream cb prep begin) (recordRouteFailure cb begin)

/-- The whole response, from the first number. -/
def respond : Except Raised Unit × Response :=
  routeStream cb prep begin { sequence := 1, frames := [], transitions := [] }

end Route

end LocalRag.Stream
