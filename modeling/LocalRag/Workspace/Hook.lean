import LocalRag.Core.Run
import LocalRag.Workspace.Reducer

/-!
# The chat workspace hook — what it asks, and what it does with the answers

Mirrors `useChatWorkspace` (`features/chats/use-chat-workspace.ts`) over the reducer of
`Workspace.Reducer`. Each function of the hook is cut at its awaits: up to the first one it is
a callback, from there on a `ChatTask` that waits with the locals it has captured.

Mirroring notes.
* `dispatch` reduces at once. `stateRef` is behind, until the effect of a render copies the
  state (`refreshRef`); `activateCreatedChat` alone writes it itself.
* A controller is aborted before the next one takes its place, so the tasks that are not
  aborted are those of the current one: aborting it marks every task there is. A request
  that was aborted answers with an `AbortError`.
* `getChat` answers with the chat it was asked for.
* A task that waits for the conversation list, or for a timer, may go on at any time.
* `useRouter()` is stable, so after the first render the route effect runs when the route has
  changed. `actionError` and the calls of the router are left out, and so are the list's own
  abort on unmount and `patchDetail`, which nobody here calls.
* `question` is what `validateQuestion` made of the input, or its message.
-/

namespace LocalRag.Workspace

open LocalRag.Core LocalRag.Stream

structure TurnView where
  turnId : TurnId
  status : TurnStatus
  attempt : Nat
  question : String

/-- What a `ChatDetail` has beside its chat: the turns, and its scope. -/
structure Conversation (κ : Type) where
  turns : List TurnView
  scope : κ

/-- `terminalPhase`. -/
def terminalPhase {κ : Type} (detail : ChatDetail (Conversation κ)) : WorkspacePhase :=
  match detail.rest.turns.getLast? with
  | none => .ready
  | some latest =>
    match latest.status with
    | .complete => .verified
    | .interrupted => .interrupted
    | .lengthLimited => .lengthLimited
    | .citationFailed => .citationFailed
    | .failed => .failed
    | .accessRevoked => .accessRevoked
    | .generating => .recovering

/-- Where a call of the hook waits, and what it has captured. -/
inductive ChatTask (κ : Type) where
  /-- `refreshChats`. -/
  | chats (request : Nat)
  /-- `loadDetail`. -/
  | detail (chatId : ChatId) (phase : Option WorkspacePhase) (request : Nat) (aborted : Bool)
  /-- `runStream`, reading the stream. -/
  | stream (chatId : ChatId) (operation : Nat) (aborted : Bool)
  /-- `reconcile`, and the message of the failure it was called for. -/
  | reconcile (chatId : ChatId) (operation : Nat) (failure : Option String)
  /-- The `catch` of `reconcile`, with the error unless it is an abort. -/
  | reconcileFailed (chatId : ChatId) (operation : Nat) (error failure : Option String)
  /-- `runStream`, behind the `reconcile` of a failure. -/
  | streamFailed (chatId : ChatId) (operation : Nat) (message : String)
  /-- `stop`, asking for the chat; the delays that are left. -/
  | stopAsking (chatId : ChatId) (operation : Nat) (prior : Option TurnView) (retried : Bool)
      (delays : List Nat)
  /-- `stop`, waiting to ask again. -/
  | stopWaiting (chatId : ChatId) (operation : Nat) (prior : Option TurnView) (retried : Bool)
      (delays : List Nat)
  /-- `send`, creating a chat. -/
  | create (question : String)
  | rename (chatId : ChatId)
  | remove (chatId : ChatId)
  /-- `remove`, behind its `refreshChats`. -/
  | removed (chatId : ChatId) (active : Bool)
  | saveScope (detail : ChatDetail (Conversation κ))
  /-- `saveScope`, reading the chat after a conflict. -/
  | readScope (chatId : ChatId)

/-- What a task waits for. -/
inductive Reply (σ κ : Type) where
  | chats (chats : List σ)
  | conversation (conversation : Conversation κ)
  | scope (scope : κ)
  | created (chatId : ChatId) (scope : κ)
  /-- A request without an answer, a list refresh or a timer. -/
  | done
  | aborted
  | failed (status : Option Nat) (message : String)

structure ChatHook (σ κ : Type) where
  state : ChatWorkspaceState σ (Conversation κ)
  stateRef : ChatWorkspaceState σ (Conversation κ)
  chatsRequest : Nat
  detailRequest : Nat
  streamRequest : Nat
  detailRefreshing : Bool
  firstSendInFlight : Bool
  previousRoute : Option ChatId × Bool
  tasks : List (ChatTask κ)

variable {σ κ : Type}

def dispatch (s : ChatHook σ κ) (action : ChatWorkspaceAction σ (Conversation κ)) : ChatHook σ κ :=
  { s with state := chatWorkspaceReducer s.state action }

def await (s : ChatHook σ κ) (task : ChatTask κ) : ChatHook σ κ :=
  { s with tasks := s.tasks ++ [task] }

/-- `detailController.current?.abort()`. -/
def ChatTask.abortDetail : ChatTask κ → ChatTask κ
  | .detail chatId phase request _ => .detail chatId phase request true
  | task => task

/-- `streamController.current?.abort()`. -/
def ChatTask.abortStream : ChatTask κ → ChatTask κ
  | .stream chatId operation _ => .stream chatId operation true
  | task => task

def abortDetail (s : ChatHook σ κ) : ChatHook σ κ :=
  { s with tasks := s.tasks.map ChatTask.abortDetail }

def abortStream (s : ChatHook σ κ) : ChatHook σ κ :=
  { s with tasks := s.tasks.map ChatTask.abortStream }

/-! ## The callbacks, up to their first await -/

def refreshChats (s : ChatHook σ κ) : ChatHook σ κ :=
  await (dispatch { s with chatsRequest := s.chatsRequest + 1 } .chatsLoading)
    (.chats (s.chatsRequest + 1))

def loadDetail (s : ChatHook σ κ) (chatId : ChatId) (phase : Option WorkspacePhase) :
    ChatHook σ κ :=
  let preserving := s.stateRef.activeChatId = some chatId ∧ s.stateRef.detail.isSome
  let s' := abortDetail { s with detailRefreshing := s.detailRefreshing || decide preserving }
  await (dispatch { s' with detailRequest := s.detailRequest + 1 } (.detailLoading chatId))
    (.detail chatId phase (s.detailRequest + 1) false)

/-- The route effect. -/
def changeRoute (s : ChatHook σ κ) (initialChatId : Option ChatId) (invalid : Bool) :
    ChatHook σ κ :=
  if s.previousRoute = (initialChatId, invalid) then s
  else
    let s' := dispatch
      (abortDetail (abortStream { s with
        previousRoute := (initialChatId, invalid)
        streamRequest := s.streamRequest + 1
        detailRefreshing := false }))
      (.route initialChatId invalid)
    match initialChatId with
    | some chatId => loadDetail s' chatId none
    | none => s'

def openChat (s : ChatHook σ κ) (chatId : ChatId) : ChatHook σ κ :=
  if s.detailRefreshing then s
  else
    loadDetail
      (dispatch (abortDetail (abortStream { s with streamRequest := s.streamRequest + 1 }))
        (.detailLoading chatId))
      chatId none

def chooseHome (s : ChatHook σ κ) : ChatHook σ κ :=
  dispatch (abortDetail (abortStream { s with streamRequest := s.streamRequest + 1 }))
    (.route none false)

def activateCreatedChat (s : ChatHook σ κ) (chatId : ChatId) (scope : κ) : ChatHook σ κ :=
  let action := .chatCreated ⟨chatId, ⟨[], scope⟩⟩
  dispatch
    { s with
      stateRef := chatWorkspaceReducer s.stateRef action
      previousRoute := (some chatId, false) }
    action

def runStream (s : ChatHook σ κ) (chatId : ChatId) (question : String) (retry : Bool) :
    ChatHook σ κ :=
  let s' := abortStream (abortDetail { s with
    streamRequest := s.streamRequest + 1
    detailRequest := s.detailRequest + 1
    detailRefreshing := false })
  await (dispatch s' (.start question retry)) (.stream chatId (s.streamRequest + 1) false)

def reconcile (s : ChatHook σ κ) (chatId : ChatId) (operation : Nat) (failure : Option String) :
    ChatHook σ κ :=
  await (refreshChats (dispatch s .recovering)) (.reconcile chatId operation failure)

def send (s : ChatHook σ κ) (question : Except String String) : ChatHook σ κ :=
  if s.detailRefreshing then s
  else
    match question with
    | .error message => dispatch s (.streamFailed message false)
    | .ok question =>
      match s.stateRef.activeChatId with
      | some chatId => runStream s chatId question false
      | none =>
        if s.firstSendInFlight then s
        else await { s with firstSendInFlight := true } (.create question)

/-- The latest turn, if it can be tried again. -/
def retriable (detail : ChatDetail (Conversation κ)) : Option TurnView :=
  detail.rest.turns.getLast?.filter fun latest =>
    latest.status ∈ [.failed, .interrupted, .lengthLimited, .citationFailed]

def retry (s : ChatHook σ κ) : ChatHook σ κ :=
  if s.detailRefreshing then s
  else
    match s.stateRef.detail with
    | none => s
    | some detail =>
      match retriable detail with
      | none => s
      | some latest => runStream s detail.chatId latest.question true

/-- `STOP_DELAYS`, behind the first, which is 0. -/
def STOP_DELAYS : List Nat := [250, 500, 1000, 2000, 4000]

def stop (s : ChatHook σ κ) : ChatHook σ κ :=
  if s.detailRefreshing then s
  else
    match s.stateRef.activeChatId with
    | none => s
    | some chatId =>
      let prior := s.stateRef.detail.bind (·.rest.turns.getLast?)
      let retried := (s.stateRef.draft.map (·.isRetry)).getD false
      await
        (abortStream (dispatch { s with streamRequest := s.streamRequest + 1 } .stopping))
        (.stopAsking chatId (s.streamRequest + 1) prior retried STOP_DELAYS)

def rename (s : ChatHook σ κ) (chatId : ChatId) : ChatHook σ κ :=
  if s.detailRefreshing then s else await s (.rename chatId)

def remove (s : ChatHook σ κ) (chatId : ChatId) : ChatHook σ κ :=
  if s.detailRefreshing then s else await s (.remove chatId)

def saveScope (s : ChatHook σ κ) : ChatHook σ κ :=
  if s.detailRefreshing then s
  else
    match s.stateRef.detail with
    | none => s
    | some detail => await s (.saveScope detail)

/-! ## The answers -/

/-- `operation === streamRequest.current && stateRef.current.activeChatId === chatId`. -/
def isCurrent (s : ChatHook σ κ) (chatId : ChatId) (operation : Nat) : Bool :=
  operation = s.streamRequest ∧ s.stateRef.activeChatId = some chatId

def onChats (s : ChatHook σ κ) (request : Nat) : Reply σ κ → ChatHook σ κ
  | .chats chats => if request = s.chatsRequest then dispatch s (.chatsLoaded chats) else s
  | .failed _ message => if request = s.chatsRequest then dispatch s (.chatsFailed message) else s
  | _ => s

/-- The notice about a conversation that is gone. -/
def missingChatMessage : String :=
  "That conversation no longer exists. Choose another conversation or start a new one."

def onDetail (s : ChatHook σ κ) (chatId : ChatId) (phase : Option WorkspacePhase) (request : Nat) :
    Reply σ κ → ChatHook σ κ
  | .conversation conversation =>
    if request ≠ s.detailRequest ∨ s.stateRef.activeChatId ≠ some chatId then s
    else
      dispatch { s with detailRefreshing := false }
        (.detailLoaded ⟨chatId, conversation⟩ (some (phase.getD (terminalPhase ⟨chatId, conversation⟩))))
  | .failed status message =>
    if request ≠ s.detailRequest then s
    else if status = some 404 then
      dispatch { s with detailRefreshing := false } (.missingChat missingChatMessage)
    else dispatch { s with detailRefreshing := false } (.detailFailed message)
  | _ => s

/-- A handler of `runStream`. -/
def onFrame (s : ChatHook σ κ) (chatId : ChatId) (operation : Nat) (frame : Frame) : ChatHook σ κ :=
  if isCurrent s chatId operation then
    match handlerAction frame with
    | none => s
    | some action =>
      match frame.event with
      | .sources _ => refreshChats (dispatch s action)
      | _ => dispatch s action
  else s

/-- The stream has ended, or failed. -/
def onStream (s : ChatHook σ κ) (chatId : ChatId) (operation : Nat) : Reply σ κ → ChatHook σ κ
  | .done => if isCurrent s chatId operation then reconcile s chatId operation none else s
  | .failed _ message =>
    if isCurrent s chatId operation then
      reconcile (dispatch s (.streamFailed message false)) chatId operation (some message)
    else s
  | _ => s

/-- `reconcile` waits for the conversation list, and `runStream` for it after a failure. -/
def afterReconcile (s : ChatHook σ κ) (chatId : ChatId) (operation : Nat) (failure : Option String) :
    ChatHook σ κ :=
  match failure with
  | none => s
  | some message => await s (.streamFailed chatId operation message)

def onReconcile (s : ChatHook σ κ) (chatId : ChatId) (operation : Nat) (failure : Option String) :
    Reply σ κ → ChatHook σ κ
  | .conversation conversation =>
    if isCurrent s chatId operation then
      let detail := ⟨chatId, conversation⟩
      let complete := (conversation.turns.getLast?.map (·.status)) = some .complete
      let phase : WorkspacePhase :=
        if failure = none ∧ complete then .verified else terminalPhase detail
      -- `state.draft?.final !== null` holds without a draft, too
      let kept : Bool := match s.stateRef.draft with
        | none => true
        | some draft => draft.final.isSome
      let s' :=
        if phase = .verified ∧ kept = true then dispatch s (.detailReconciled detail)
        else dispatch s (.detailLoaded detail (some phase))
      afterReconcile s' chatId operation failure
    else s
  | .failed _ message => await s (.reconcileFailed chatId operation (some message) failure)
  | .aborted => await s (.reconcileFailed chatId operation none failure)
  | _ => s

/-- `runStream`, behind the `reconcile` of a failure. -/
def onStreamFailed (s : ChatHook σ κ) (chatId : ChatId) (operation : Nat) (message : String) :
    ChatHook σ κ :=
  if isCurrent s chatId operation then dispatch s (.streamFailed message false) else s

def onReconcileFailed (s : ChatHook σ κ) (chatId : ChatId) (operation : Nat)
    (error failure : Option String) : ChatHook σ κ :=
  let s' :=
    match error with
    | some message =>
      if operation = s.streamRequest then dispatch s (.streamFailed message false) else s
    | none => s
  match failure with
  | some message => onStreamFailed s' chatId operation message
  | none => s'

/-- `observedStoppedTurn`. -/
def observedStopped (prior : Option TurnView) (retried : Bool) (latest : TurnView) : Bool :=
  if retried then
    prior.map (·.turnId) = some latest.turnId ∧ ((prior.map (·.attempt)).getD 0) < latest.attempt
  else prior.map (·.turnId) ≠ some latest.turnId

/-- The answer is there, and it has ended. -/
def stopSeen (prior : Option TurnView) (retried : Bool) (conversation : Conversation κ) : Bool :=
  conversation.turns.getLast?.any fun latest =>
    observedStopped prior retried latest && latest.status ≠ .generating

def stopTimeoutMessage : String :=
  "The server is still stopping this answer. Refresh the conversation before retrying."

def onStopAsking (s : ChatHook σ κ) (chatId : ChatId) (operation : Nat) (prior : Option TurnView)
    (retried : Bool) (delays : List Nat) : Reply σ κ → ChatHook σ κ
  | .conversation conversation =>
    if stopSeen prior retried conversation then
      refreshChats
        (if isCurrent s chatId operation then
          dispatch s (.detailLoaded ⟨chatId, conversation⟩ (some (terminalPhase ⟨chatId, conversation⟩)))
        else s)
    else
      match delays with
      | [] =>
        if operation = s.streamRequest then dispatch s (.stopTimeout stopTimeoutMessage) else s
      | _ :: rest => await s (.stopWaiting chatId operation prior retried rest)
  | .failed _ message =>
    if operation = s.streamRequest then dispatch s (.streamFailed message false) else s
  | _ => s

def onStopWaiting (s : ChatHook σ κ) (chatId : ChatId) (operation : Nat) (prior : Option TurnView)
    (retried : Bool) (delays : List Nat) : ChatHook σ κ :=
  if isCurrent s chatId operation then
    await s (.stopAsking chatId operation prior retried delays)
  else s

def onCreate (s : ChatHook σ κ) (question : String) : Reply σ κ → ChatHook σ κ
  | .created chatId scope =>
    { runStream (refreshChats (activateCreatedChat s chatId scope)) chatId question false with
      firstSendInFlight := false }
  | _ => { s with firstSendInFlight := false }

/-- What `rename` and `remove` do about a conflict. -/
def onConflict (s : ChatHook σ κ) : ChatHook σ κ :=
  match s.stateRef.activeChatId with
  | some activeChatId => loadDetail (refreshChats s) activeChatId none
  | none => refreshChats s

def onRename (s : ChatHook σ κ) (chatId : ChatId) : Reply σ κ → ChatHook σ κ
  | .done =>
    if s.stateRef.activeChatId = some chatId then loadDetail (refreshChats s) chatId none
    else refreshChats s
  | .failed status _ => if status = some 409 then onConflict s else s
  | _ => s

def onRemove (s : ChatHook σ κ) (chatId : ChatId) : Reply σ κ → ChatHook σ κ
  | .done =>
    await (refreshChats s) (.removed chatId (decide (s.stateRef.activeChatId = some chatId)))
  | .failed status _ => if status = some 409 then onConflict s else s
  | _ => s

def onRemoved (s : ChatHook σ κ) (active : Bool) : ChatHook σ κ :=
  if active then chooseHome s else s

def onSaveScope (s : ChatHook σ κ) (detail : ChatDetail (Conversation κ)) :
    Reply σ κ → ChatHook σ κ
  | .scope scope =>
    refreshChats
      (dispatch s (.detailLoaded ⟨detail.chatId, { detail.rest with scope := scope }⟩
        (some s.stateRef.phase)))
  | .failed status _ => if status = some 409 then await s (.readScope detail.chatId) else s
  | _ => s

def onReadScope (s : ChatHook σ κ) (chatId : ChatId) : Reply σ κ → ChatHook σ κ
  | .conversation conversation =>
    if s.stateRef.activeChatId = some chatId then
      dispatch s (.detailLoaded ⟨chatId, conversation⟩ (some (terminalPhase ⟨chatId, conversation⟩)))
    else s
  | _ => s

/-- An aborted request has no other answer. -/
def ChatTask.heard (reply : Reply σ κ) : ChatTask κ → Reply σ κ
  | .detail _ _ _ true | .stream _ _ true => .aborted
  | _ => reply

/-- A task goes on. -/
def resume (s : ChatHook σ κ) (task : ChatTask κ) (reply : Reply σ κ) : ChatHook σ κ :=
  match task with
  | .chats request => onChats s request reply
  | .detail chatId phase request _ => onDetail s chatId phase request reply
  | .stream chatId operation _ => onStream s chatId operation reply
  | .reconcile chatId operation failure => onReconcile s chatId operation failure reply
  | .reconcileFailed chatId operation error failure =>
    onReconcileFailed s chatId operation error failure
  | .streamFailed chatId operation message => onStreamFailed s chatId operation message
  | .stopAsking chatId operation prior retried delays =>
    onStopAsking s chatId operation prior retried delays reply
  | .stopWaiting chatId operation prior retried delays =>
    onStopWaiting s chatId operation prior retried delays
  | .create question => onCreate s question reply
  | .rename chatId => onRename s chatId reply
  | .remove chatId => onRemove s chatId reply
  | .removed _ active => onRemoved s active
  | .saveScope detail => onSaveScope s detail reply
  | .readScope chatId => onReadScope s chatId reply

/-! ## Steps -/

inductive ChatAct (σ κ : Type) where
  | changeRoute (initialChatId : Option ChatId) (invalid : Bool)
  | openChat (chatId : ChatId)
  | chooseHome
  | send (question : Except String String)
  | retry
  | stop
  | rename (chatId : ChatId)
  | remove (chatId : ChatId)
  | saveScope
  | refreshRef
  /-- The stream of the task at this place has a frame. -/
  | frame (index : Nat) (frame : Frame)
  /-- The task at this place goes on. -/
  | answer (index : Nat) (reply : Reply σ κ)

def onFrameAt (s : ChatHook σ κ) (index : Nat) (frame : Frame) : ChatHook σ κ :=
  match s.tasks[index]? with
  | some (.stream chatId operation false) => onFrame s chatId operation frame
  | _ => s

def onAnswerAt (s : ChatHook σ κ) (index : Nat) (reply : Reply σ κ) : ChatHook σ κ :=
  match s.tasks[index]? with
  | some task => resume { s with tasks := s.tasks.eraseIdx index } task (task.heard reply)
  | none => s

def chatStep (s : ChatHook σ κ) : ChatAct σ κ → ChatHook σ κ
  | .changeRoute initialChatId invalid => changeRoute s initialChatId invalid
  | .openChat chatId => openChat s chatId
  | .chooseHome => chooseHome s
  | .send question => send s question
  | .retry => retry s
  | .stop => stop s
  | .rename chatId => rename s chatId
  | .remove chatId => remove s chatId
  | .saveScope => saveScope s
  | .refreshRef => { s with stateRef := s.state }
  | .frame index frame => onFrameAt s index frame
  | .answer index reply => onAnswerAt s index reply

/-- `initialChatWorkspaceState`. -/
def initialChatWorkspaceState (chatId : Option ChatId) (invalid : Bool) :
    ChatWorkspaceState σ (Conversation κ) where
  phase := if chatId.isSome then .loading else .chooser
  chats := []
  chatsLoading := true
  chatsError := none
  detailRefreshing := false
  activeChatId := chatId
  detail := none
  draft := none
  error := none
  routeNotice := if invalid then some invalidRouteNotice else none

/-- After the effects of the first render. -/
def mountChat (initialChatId : Option ChatId) (invalid : Bool) : ChatHook σ κ :=
  let s := refreshChats
    { state := initialChatWorkspaceState initialChatId invalid
      stateRef := initialChatWorkspaceState initialChatId invalid
      chatsRequest := 0
      detailRequest := 0
      streamRequest := 0
      detailRefreshing := false
      firstSendInFlight := false
      previousRoute := (initialChatId, invalid)
      tasks := [] }
  match initialChatId with
  | some chatId => loadDetail s chatId none
  | none => s

end LocalRag.Workspace
