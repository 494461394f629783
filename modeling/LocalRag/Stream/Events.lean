import LocalRag.Core.Text
import LocalRag.Schema

/-!
# The answer stream — its events and the client that reads them

`chat_stream_event` of `app/services/chats.py` numbers an event and ties it to a
chat and a turn; `consumeChatSse` of `web/features/chats/sse.ts` reads the
frames one by one, holds each to its schema (`contracts.ts`) and to the state
of the protocol, and ends with the final event or an error.

Mirroring notes.
* A `Frame` is a parsed SSE frame. The server writes one `event:` and one `data:`
  line per frame, and `json.dumps` leaves no raw line end in the data, so what
  the client cuts out of the body is what the server wrote.
* The identifiers are `uuid`s and print as such; the string checks of the schemas
  that can fail are kept (`streamSourceParses`, `parses`).
* `invalidStream` errors carry their message; the list of details repeats it.
-/

namespace LocalRag.Stream

open LocalRag.Core

/-! ## Sources -/

/-- `ChatSourceSnapshot`: the fields its `payload` shows. -/
structure ChatSourceSnapshot where
  rank : Nat
  label : String
  documentId : Option DocumentId
  chunkId : Option ChunkId
  documentIdSnapshot : DocumentId
  chunkIdSnapshot : ChunkId
  originalFilename : String
  displayName : String
  logicalPath : String
  pageStart : Nat
  pageEnd : Nat
  sectionName : Option String
deriving Repr, DecidableEq

/-- A source or citation as the client sees it. -/
structure StreamSource where
  label : String
  rank : Nat
  documentId : Option DocumentId
  chunkId : Option ChunkId
  documentIdSnapshot : DocumentId
  chunkIdSnapshot : ChunkId
  filename : String
  displayName : String
  logicalPath : String
  pageStart : Nat
  pageEnd : Nat
  sectionName : Option String
  sourceAvailable : Bool
deriving Repr, DecidableEq

/-- `ChatSourceSnapshot.payload`. -/
def ChatSourceSnapshot.payload (s : ChatSourceSnapshot) : StreamSource :=
  { label := s.label
    rank := s.rank
    documentId := s.documentId
    chunkId := s.chunkId
    documentIdSnapshot := s.documentIdSnapshot
    chunkIdSnapshot := s.chunkIdSnapshot
    filename := s.originalFilename
    displayName := s.displayName
    logicalPath := s.logicalPath
    pageStart := s.pageStart
    pageEnd := s.pageEnd
    sectionName := s.sectionName
    sourceAvailable := s.documentId.isSome }

/-- `f"S{rank}"`. -/
def rankLabel (rank : Nat) : String := "S" ++ toString rank

/-! ## Events -/

inductive StatusPhase where
  | retrieving | reranking | preparingAnswer | reasoning | streamingAnswer | continuingAnswer
  | validatingCitations | repairingCitations
deriving Repr, DecidableEq

/-- The phase as it is spelled on the wire. -/
def StatusPhase.text : StatusPhase → String
  | .retrieving => "retrieving"
  | .reranking => "reranking"
  | .preparingAnswer => "preparing_answer"
  | .reasoning => "reasoning"
  | .streamingAnswer => "streaming_answer"
  | .continuingAnswer => "continuing_answer"
  | .validatingCitations => "validating_citations"
  | .repairingCitations => "repairing_citations"

structure FinalEvent where
  answer : String
  insufficientContext : Bool
  citations : List StreamSource
deriving Repr, DecidableEq

/-- The event names with their payloads. -/
inductive Event where
  | status (phase : StatusPhase)
  | sources (sources : List StreamSource)
  | reasoningStart
  | reasoningDelta (text : String)
  | reasoningEnd (truncated : Bool)
  | answerReset
  | token (text : String)
  | final (event : FinalEvent)
  | error (code message : String)
deriving Repr, DecidableEq

/-- What `chat_stream_event` writes. -/
structure Frame where
  chatId : ChatId
  turnId : TurnId
  seq : Nat
  event : Event
deriving Repr, DecidableEq

/-! ## Schemas -/

/-- `streamSourceSchema`. -/
def streamSourceParses (s : StreamSource) : Bool :=
  s.label ∈ ["S1", "S2", "S3", "S4", "S5", "S6", "S7", "S8"] ∧ 1 ≤ s.rank ∧ s.rank ≤ 8 ∧
    s.filename ≠ "" ∧ s.displayName ≠ "" ∧ s.logicalPath ≠ "" ∧ 1 ≤ s.pageStart ∧ 1 ≤ s.pageEnd

/-- The event schemas of `contracts.ts`. -/
def parses : Event → Bool
  | .sources sources => sources.all streamSourceParses ∧ sources.length ≤ 8
  | .reasoningDelta text => text ≠ ""
  | .final e => e.answer ≠ "" ∧ e.citations.all streamSourceParses ∧ e.citations.length ≤ 8
  | .error code message => code ≠ "" ∧ message ≠ ""
  | .status _ | .reasoningStart | .reasoningEnd _ | .answerReset | .token _ => true

/-! ## The client -/

inductive ProtocolState where
  | expectRetrieving | expectReranking | expectPreparingAnswer | expectSources
  | expectReasoningStatus | expectReasoningStart | reasoningActive | expectAnswerStatus | answer
  | expectValidationStatus | validating | repairing | repairAnswer
deriving Repr, DecidableEq

/-- What `consumeChatSse` throws: its own complaint about the stream, or the
server's error. -/
inductive StreamError where
  | invalid (message : String)
  | api (code message : String)
deriving Repr, DecidableEq

/-- The local variables of `consumeChatSse`. -/
structure Client where
  turnId : Option TurnId
  sources : Option (List StreamSource)
  final : Option FinalEvent
  expectedSequence : Nat
  protocolState : ProtocolState
  reasoningCodePoints : Nat
deriving Repr, DecidableEq

def maxReasoningCodePoints : Nat := 20000

/-- `ExpectedChatStream`. -/
structure ExpectedChatStream where
  chatId : ChatId
  turnId : Option TurnId

def ExpectedChatStream.start (expected : ExpectedChatStream) : Client :=
  { turnId := expected.turnId
    sources := none
    final := none
    expectedSequence := 1
    protocolState := .expectRetrieving
    reasoningCodePoints := 0 }

/-- `assertEnvelope`. -/
def assertEnvelope (expected : ExpectedChatStream) (client : Client) (frame : Frame) :
    Except StreamError Client :=
  if frame.chatId ≠ expected.chatId then
    .error (.invalid "The answer stream returned a different chat identifier.")
  else if frame.turnId ≠ client.turnId.getD frame.turnId then
    .error (.invalid "The answer stream returned a different turn identifier.")
  else if frame.seq ≠ client.expectedSequence then
    .error (.invalid ("The answer stream returned sequence " ++ toString frame.seq ++
      "; expected " ++ toString client.expectedSequence ++ "."))
  else
    .ok { client with
      turnId := some frame.turnId
      expectedSequence := client.expectedSequence + 1 }

/-- `validateStreamSources`, from the index of the first source. -/
def validateStreamSources : Nat → List StreamSource → Except StreamError Unit
  | _, [] => .ok ()
  | index, source :: rest =>
    if source.rank ≠ index + 1 ∨ source.label ≠ rankLabel (index + 1) then
      .error (.invalid
        "The sources event returned duplicate, out-of-order, or non-contiguous sources.")
    else if source.sourceAvailable ≠ source.documentId.isSome then
      .error (.invalid "A streamed source returned inconsistent availability.")
    else validateStreamSources (index + 1) rest

/-- The `immutableCitationFields`. -/
def sameSnapshot (citation streamed : StreamSource) : Bool :=
  citation.label = streamed.label ∧ citation.rank = streamed.rank ∧
    citation.documentIdSnapshot = streamed.documentIdSnapshot ∧
    citation.chunkIdSnapshot = streamed.chunkIdSnapshot ∧
    citation.filename = streamed.filename ∧ citation.displayName = streamed.displayName ∧
    citation.logicalPath = streamed.logicalPath ∧ citation.pageStart = streamed.pageStart ∧
    citation.pageEnd = streamed.pageEnd ∧ citation.sectionName = streamed.sectionName

/-- The streamed source a citation names: the last one with its label, as the
`Map` keeps it, if it is also the last one with its rank. -/
def streamedSource (streamed : List StreamSource) (citation : StreamSource) :
    Option StreamSource :=
  (streamed.reverse.find? fun s => s.label = citation.label).filter fun s =>
    (streamed.reverse.find? fun s => s.rank = citation.rank) = some s

/-- `validateFinalCitations`, after the citations `cited` were seen. -/
def validateFinalCitations (streamed : List StreamSource) :
    List StreamSource → List StreamSource → Except StreamError Unit
  | _, [] => .ok ()
  | cited, citation :: rest =>
    if cited.any fun c => c.label = citation.label ∨ c.rank = citation.rank then
      .error (.invalid "The final event returned duplicate citations.")
    else
      match streamedSource streamed citation with
      | none => .error (.invalid "The final event cited a source that was not streamed.")
      | some source =>
        if ¬ sameSnapshot citation source ∨
            (citation.documentId ≠ source.documentId ∧ citation.documentId ≠ none) ∨
            (citation.chunkId ≠ source.chunkId ∧ citation.chunkId ≠ none) ∨
            citation.sourceAvailable ≠ citation.documentId.isSome then
          .error (.invalid "The final event citation did not match the streamed source snapshot.")
        else validateFinalCitations streamed (cited ++ [citation]) rest

/-- `expectedPhase`, for a status of the given phase. -/
def expectedPhase (state : ProtocolState) (phase : StatusPhase) : Option StatusPhase :=
  match state with
  | .expectRetrieving => some .retrieving
  | .expectReranking => some .reranking
  | .expectPreparingAnswer => some .preparingAnswer
  | .expectReasoningStatus => some .reasoning
  | .expectAnswerStatus => some .streamingAnswer
  | .answer =>
    if phase = .continuingAnswer then some .continuingAnswer else some .validatingCitations
  | .expectValidationStatus | .repairAnswer => some .validatingCitations
  | .validating => some .repairingCitations
  | _ => none

/-- The state an expected status leads to. -/
def afterStatus (state : ProtocolState) (phase : StatusPhase) : Option ProtocolState :=
  match state with
  | .expectRetrieving => some .expectReranking
  | .expectReranking => some .expectPreparingAnswer
  | .expectPreparingAnswer => some .expectSources
  | .expectReasoningStatus => some .expectReasoningStart
  | .expectAnswerStatus => some .answer
  | .answer => if phase = .continuingAnswer then some .answer else some .validating
  | .expectValidationStatus | .repairAnswer => some .validating
  | .validating => some .repairing
  | _ => none

/-- The branch for `status`. -/
def consumeStatus (expected : ExpectedChatStream) (client : Client) (frame : Frame)
    (phase : StatusPhase) : Except StreamError Client := do
  let client' ← assertEnvelope expected client frame
  if some phase ≠ expectedPhase client.protocolState phase then
    throw (.invalid ("The answer stream returned status " ++ phase.text ++ "; expected " ++
      ((expectedPhase client.protocolState phase).map StatusPhase.text).getD "null" ++ "."))
  match afterStatus client.protocolState phase with
  | some state => return { client' with protocolState := state }
  | none => throw (.invalid "The answer stream returned a status in an invalid phase.")

/-- The branch for `sources`. -/
def consumeSources (expected : ExpectedChatStream) (client : Client) (frame : Frame)
    (sources : List StreamSource) : Except StreamError Client := do
  if client.sources.isSome then
    throw (.invalid "The answer stream returned sources more than once.")
  if client.protocolState ≠ .expectSources then
    throw (.invalid "The answer stream returned sources out of order.")
  let client' ← assertEnvelope expected client frame
  validateStreamSources 0 sources
  return { client' with
    sources := some sources
    protocolState := if sources = [] then .expectValidationStatus else .expectReasoningStatus }

/-- The branch for `reasoning_delta`. -/
def consumeDelta (expected : ExpectedChatStream) (client : Client) (frame : Frame)
    (text : String) : Except StreamError Client := do
  if client.protocolState ≠ .reasoningActive then
    throw (.invalid "The answer stream returned reasoning outside its start/end envelope.")
  let client' ← assertEnvelope expected client frame
  let reasoningCodePoints := client.reasoningCodePoints + text.length
  if maxReasoningCodePoints < reasoningCodePoints then
    throw (.invalid "The answer stream exceeded the visible reasoning limit.")
  return { client' with reasoningCodePoints := reasoningCodePoints }

/-- The branches that check one state and move to the next: `reasoning_start`,
`reasoning_end` and `answer_reset`. -/
def consumeMarker (expected : ExpectedChatStream) (client : Client) (frame : Frame)
    (required next : ProtocolState) (message : String) : Except StreamError Client := do
  if client.protocolState ≠ required then throw (.invalid message)
  let client' ← assertEnvelope expected client frame
  return { client' with protocolState := next }

/-- The branch for `token`. -/
def consumeToken (expected : ExpectedChatStream) (client : Client) (frame : Frame) :
    Except StreamError Client := do
  if client.protocolState ≠ .answer ∧ client.protocolState ≠ .repairAnswer then
    throw (.invalid "The answer stream returned answer text out of order.")
  assertEnvelope expected client frame

/-- The branch for `final`, with the streamed sources. -/
def consumeFinal (expected : ExpectedChatStream) (client : Client) (frame : Frame)
    (streamed : List StreamSource) (event : FinalEvent) : Except StreamError Client := do
  if client.protocolState ≠ .validating then
    throw (.invalid "The answer stream returned its final result out of order.")
  let client' ← assertEnvelope expected client frame
  validateFinalCitations streamed [] event.citations
  return { client' with final := some event }

/-- The name of an event in the complaint about its schema. -/
def Event.schemaName : Event → String
  | .status _ => "status"
  | .sources _ => "sources"
  | .reasoningStart => "reasoning start"
  | .reasoningDelta _ => "reasoning delta"
  | .reasoningEnd _ => "reasoning end"
  | .answerReset => "answer reset"
  | .token _ => "token"
  | .final _ => "final"
  | .error _ _ => "error"

/-- `if (!sources) throw …`, then the schema, for the events that need the
sources. -/
def withSources (client : Client) (event : Event)
    (k : List StreamSource → Except StreamError Client) : Except StreamError Client :=
  match client.sources with
  | none => .error (.invalid "The answer stream returned content before its sources.")
  | some streamed =>
    if ¬ parses event then
      .error (.invalid ("The server returned an invalid " ++ event.schemaName ++ " event."))
    else k streamed

/-- `consume`: one frame. -/
def consume (expected : ExpectedChatStream) (client : Client) (frame : Frame) :
    Except StreamError Client :=
  if client.final.isSome then
    .error (.invalid "The answer stream continued after its final event.")
  else
    match frame.event with
    | .error code message =>
      if ¬ parses frame.event then
        .error (.invalid "The server returned an invalid error event.")
      else do
        let _ ← assertEnvelope expected client frame
        throw (.api code message)
    | .status phase => consumeStatus expected client frame phase
    | .sources sources =>
      if ¬ parses frame.event then
        .error (.invalid "The server returned an invalid sources event.")
      else consumeSources expected client frame sources
    | .reasoningStart => withSources client frame.event fun _ =>
      consumeMarker expected client frame .expectReasoningStart .reasoningActive
        "The answer stream started reasoning out of order."
    | .reasoningDelta text => withSources client frame.event fun _ =>
      consumeDelta expected client frame text
    | .reasoningEnd _ => withSources client frame.event fun _ =>
      consumeMarker expected client frame .reasoningActive .expectAnswerStatus
        "The answer stream ended reasoning out of order."
    | .answerReset => withSources client frame.event fun _ =>
      consumeMarker expected client frame .repairing .repairAnswer
        "The answer stream reset text out of order."
    | .token _ => withSources client frame.event fun _ => consumeToken expected client frame
    | .final event => withSources client frame.event fun streamed =>
      consumeFinal expected client frame streamed event

/-- The loop over the frames of the body. -/
def consumeAll (expected : ExpectedChatStream) (client : Client) (frames : List Frame) :
    Except StreamError Client :=
  frames.foldlM (consume expected) client

/-- `consumeChatSse`, on a body that was read to its end. -/
def consumeChatSse (expected : ExpectedChatStream) (frames : List Frame) :
    Except StreamError FinalEvent := do
  let client ← consumeAll expected expected.start frames
  match client.final with
  | some final => return final
  | none => throw (.invalid "The answer stream ended before a verified final result arrived.")

end LocalRag.Stream
