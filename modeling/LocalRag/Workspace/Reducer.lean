import LocalRag.Stream.Events

/-!
# The chat workspace — its state and the actions on it

Mirrors `chatWorkspaceReducer` (`features/chats/state.ts`) and the handlers that
`runStream` of `use-chat-workspace.ts` gives to `consumeChatSse`. The reducer
is total: an action that does not apply leaves the state as it is.

Conversations and their details pass through it unread, apart from the chat a
detail is of; their types are variables here. A handler dispatches only while its
stream is the current one, so the dispatches below are those of a current
stream.
-/

namespace LocalRag.Workspace

open LocalRag.Stream

inductive WorkspacePhase where
  | chooser | loading | ready | starting | streamingDraft | stopping | verified | failed
  | interrupted | lengthLimited | citationFailed | accessRevoked | recovering
deriving DecidableEq

inductive DraftActivityEntry where
  | progress (phase : StatusPhase)
  | thinking (text : String)
deriving DecidableEq

structure DraftTurn where
  question : String
  isRetry : Bool
  turnId : Option TurnId
  sources : List StreamSource
  activity : List DraftActivityEntry
  reasoningActive : Bool
  reasoningComplete : Bool
  reasoningTruncated : Bool
  text : String
  final : Option FinalEvent

/-- `ChatDetail`: the chat it is of, and the rest. -/
structure ChatDetail (δ : Type*) where
  chatId : ChatId
  rest : δ

structure ChatWorkspaceState (σ δ : Type*) where
  phase : WorkspacePhase
  chats : List σ
  chatsLoading : Bool
  chatsError : Option String
  detailRefreshing : Bool
  activeChatId : Option ChatId
  detail : Option (ChatDetail δ)
  draft : Option DraftTurn
  error : Option String
  routeNotice : Option String

inductive ChatWorkspaceAction (σ δ : Type*) where
  | route (chatId : Option ChatId) (invalid : Bool)
  | chatCreated (detail : ChatDetail δ)
  | chatsLoading
  | chatsLoaded (chats : List σ)
  | chatsFailed (message : String)
  | detailLoading (chatId : ChatId)
  | detailLoaded (detail : ChatDetail δ) (phase : Option WorkspacePhase)
  | detailReconciled (detail : ChatDetail δ)
  | detailFailed (message : String)
  | missingChat (message : String)
  | start (question : String) (retry : Bool)
  | status (phase : StatusPhase)
  | sources (turnId : TurnId) (sources : List StreamSource)
  | reasoningStart
  | reasoningDelta (text : String)
  | reasoningEnd (truncated : Bool)
  | answerReset
  | token (text : String)
  | streamFinal (final : FinalEvent)
  | stopping
  | stopTimeout (message : String)
  | recovering
  | streamFailed (message : String) (interrupted : Bool)
  | clearError

/-- The draft of a turn just started. -/
def startDraft (question : String) (retry : Bool) : DraftTurn where
  question := question
  isRetry := retry
  turnId := none
  sources := []
  activity := []
  reasoningActive := false
  reasoningComplete := false
  reasoningTruncated := false
  text := ""
  final := none

/-- The `map` of `reasoning-delta`: only the last entry, and only if it is the
thinking one. -/
def appendThinking (text : String) (activity : List DraftActivityEntry) :
    List DraftActivityEntry :=
  activity.mapIdx fun index entry =>
    match entry with
    | .thinking soFar =>
      if index = activity.length - 1 then .thinking (soFar ++ text) else .thinking soFar
    | .progress phase => .progress phase

variable {σ δ : Type*}

/-- `if (!state.draft) return state`, and else what the action makes of the draft. -/
def onDraft (state : ChatWorkspaceState σ δ)
    (k : DraftTurn → ChatWorkspaceState σ δ) : ChatWorkspaceState σ δ :=
  match state.draft with
  | none => state
  | some draft => k draft

/-- The notice about a link that names no conversation. -/
def invalidRouteNotice : String :=
  "That conversation link is invalid. Choose a conversation or start a new one."

/-- `chatWorkspaceReducer`. -/
def chatWorkspaceReducer (state : ChatWorkspaceState σ δ) :
    ChatWorkspaceAction σ δ → ChatWorkspaceState σ δ
  | .chatCreated detail =>
    { state with
      activeChatId := some detail.chatId, detail := some detail, draft := none, error := none,
      routeNotice := none, phase := .ready, detailRefreshing := false }
  | .route chatId invalid =>
    { state with
      activeChatId := chatId
      detail := if chatId = state.activeChatId then state.detail else none
      draft := none
      error := none
      routeNotice := if invalid then some invalidRouteNotice else none
      phase := if chatId.isSome then .loading else .chooser
      detailRefreshing := false }
  | .chatsLoading => { state with chatsLoading := true, chatsError := none }
  | .chatsLoaded chats =>
    { state with chats := chats, chatsLoading := false, chatsError := none }
  | .chatsFailed message => { state with chatsLoading := false, chatsError := some message }
  | .detailLoading chatId =>
    if some chatId = state.activeChatId ∧ state.detail.isSome then
      { state with detailRefreshing := true }
    else
      { state with
        activeChatId := some chatId
        detail := if some chatId = state.activeChatId then state.detail else none
        draft := none
        error := none
        phase := .loading
        detailRefreshing := false }
  | .detailLoaded detail phase =>
    { state with
      activeChatId := some detail.chatId, detail := some detail, draft := none, error := none,
      routeNotice := none, phase := phase.getD .ready, detailRefreshing := false }
  | .detailReconciled detail =>
    { state with
      activeChatId := some detail.chatId
      detail := some detail
      draft := state.draft.filter (·.final.isSome)
      error := none
      routeNotice := none
      phase := .verified
      detailRefreshing := false }
  | .detailFailed message =>
    { state with phase := .failed, error := some message, detailRefreshing := false }
  | .missingChat message =>
    { state with
      activeChatId := none, detail := none, draft := none, phase := .chooser, error := none,
      routeNotice := some message, detailRefreshing := false }
  | .start question retry =>
    { state with
      phase := .starting, error := none, draft := some (startDraft question retry),
      detailRefreshing := false }
  | .status phase => onDraft state fun draft =>
    { state with
      phase := if phase = .streamingAnswer then .streamingDraft else state.phase
      draft := some { draft with activity := draft.activity ++ [.progress phase] } }
  | .sources turnId sources => onDraft state fun draft =>
    { state with
      phase := .streamingDraft
      draft := some { draft with turnId := some turnId, sources := sources } }
  | .reasoningStart => onDraft state fun draft =>
    if draft.reasoningActive then state
    else
      { state with
        draft := some { draft with
          activity := draft.activity ++ [.thinking ""], reasoningActive := true } }
  | .reasoningDelta text => onDraft state fun draft =>
    if ¬ draft.reasoningActive then state
    else { state with draft := some { draft with activity := appendThinking text draft.activity } }
  | .reasoningEnd truncated => onDraft state fun draft =>
    if ¬ draft.reasoningActive then state
    else
      { state with
        draft := some { draft with
          reasoningActive := false, reasoningComplete := true,
          reasoningTruncated := truncated } }
  | .token text => onDraft state fun draft =>
    { state with phase := .streamingDraft, draft := some { draft with text := draft.text ++ text } }
  | .answerReset => onDraft state fun draft =>
    { state with phase := .streamingDraft, draft := some { draft with text := "" } }
  | .streamFinal final => onDraft state fun draft =>
    { state with phase := .recovering, draft := some { draft with final := some final } }
  | .stopping => { state with phase := .stopping, error := none }
  | .stopTimeout message => { state with phase := .stopping, error := some message }
  | .recovering => { state with phase := .recovering }
  | .streamFailed message interrupted =>
    { state with
      phase := if interrupted then .interrupted else .failed, error := some message }
  | .clearError => { state with error := none, routeNotice := none }

/-- What the handlers of `runStream` dispatch for a frame. An error reaches no
handler. -/
def handlerAction (frame : Frame) : Option (ChatWorkspaceAction σ δ) :=
  match frame.event with
  | .status phase => some (.status phase)
  | .sources sources => some (.sources frame.turnId sources)
  | .reasoningStart => some .reasoningStart
  | .reasoningDelta text => some (.reasoningDelta text)
  | .reasoningEnd truncated => some (.reasoningEnd truncated)
  | .answerReset => some .answerReset
  | .token text => some (.token text)
  | .final event => some (.streamFinal event)
  | .error _ _ => none

/-- A delta goes to the thinking entry if that is the last. -/
theorem appendThinking_last (text soFar : String) (activity : List DraftActivityEntry) :
    appendThinking text (activity ++ [.thinking soFar])
      = activity ++ [.thinking (soFar ++ text)] := by
  unfold appendThinking
  rw [List.mapIdx_eq_iff]
  intro i
  rcases Nat.lt_trichotomy i activity.length with hlt | rfl | hgt
  · -- an earlier entry is not the last one
    have hi : ¬ i = (activity ++ [DraftActivityEntry.thinking soFar]).length - 1 := by
      rw [List.length_append, List.length_singleton]
      omega
    rw [List.getElem?_append_left hlt, List.getElem?_append_left hlt, List.getElem?_eq_getElem hlt]
    cases hentry : activity[i] with
    | progress phase => simp
    | thinking t => simp only [Option.map_some, if_neg hi]
  · simp
  · have hlen : ∀ e : DraftActivityEntry, (activity ++ [e]).length ≤ i := by
      intro e
      rw [List.length_append, List.length_singleton]
      omega
    rw [List.getElem?_eq_none (hlen _), List.getElem?_eq_none (hlen _)]
    rfl

end LocalRag.Workspace
