import LocalRag.Workspace.Hook

/-!
# The detail is a detail of the active chat

Whatever is dispatched, and in whatever order: every action that puts a detail in makes its
chat the active one, and every action that makes another chat active takes the detail out.
So this is a fact about the reducer alone, and the hook, which has no other way to its state
than `dispatch`, keeps it.
-/

namespace LocalRag.Workspace

open LocalRag.Core LocalRag.Stream

variable {σ κ : Type}

/-- `detail` is a detail of the active chat. -/
def Matched (state : ChatWorkspaceState σ (Conversation κ)) : Prop :=
  ∀ detail, state.detail = some detail → state.activeChatId = some detail.chatId

theorem onDraft_detail {state : ChatWorkspaceState σ (Conversation κ)}
    {k : DraftTurn → ChatWorkspaceState σ (Conversation κ)}
    (hk : ∀ draft, (k draft).detail = state.detail ∧ (k draft).activeChatId = state.activeChatId)
    (h : Matched state) : Matched (onDraft state k) := by
  unfold onDraft
  split
  next => exact h
  next draft _ =>
    intro detail hdetail
    rw [(hk draft).1] at hdetail
    rw [(hk draft).2]
    exact h detail hdetail

/-- Whatever is dispatched. -/
theorem reducer_matched {state : ChatWorkspaceState σ (Conversation κ)} (h : Matched state)
    (action : ChatWorkspaceAction σ (Conversation κ)) :
    Matched (chatWorkspaceReducer state action) := by
  cases action with
  | chatCreated created =>
    intro detail hdetail
    obtain rfl := Option.some.inj hdetail
    rfl
  | detailLoaded loaded phase =>
    intro detail hdetail
    obtain rfl := Option.some.inj hdetail
    rfl
  | detailReconciled loaded =>
    intro detail hdetail
    obtain rfl := Option.some.inj hdetail
    rfl
  | missingChat message =>
    intro detail hdetail
    cases hdetail
  | route chatId invalid =>
    intro detail hdetail
    change (if chatId = state.activeChatId then state.detail else none) = some detail at hdetail
    show chatId = some detail.chatId
    split at hdetail
    next heq =>
      rw [heq]
      exact h detail hdetail
    next => cases hdetail
  | detailLoading chatId =>
    intro detail hdetail
    unfold chatWorkspaceReducer at hdetail ⊢
    dsimp only at hdetail ⊢
    split at hdetail
    next hsame =>
      rw [if_pos hsame]
      exact h detail hdetail
    next hother =>
      rw [if_neg hother]
      change (if some chatId = state.activeChatId then state.detail else none) = some detail
        at hdetail
      show some chatId = some detail.chatId
      split at hdetail
      next heq =>
        rw [heq]
        exact h detail hdetail
      next => cases hdetail
  | status phase => exact onDraft_detail (fun _ => ⟨rfl, rfl⟩) h
  | sources turnId sources => exact onDraft_detail (fun _ => ⟨rfl, rfl⟩) h
  | token text => exact onDraft_detail (fun _ => ⟨rfl, rfl⟩) h
  | answerReset => exact onDraft_detail (fun _ => ⟨rfl, rfl⟩) h
  | streamFinal final => exact onDraft_detail (fun _ => ⟨rfl, rfl⟩) h
  | reasoningStart => exact onDraft_detail (fun _ => by split <;> exact ⟨rfl, rfl⟩) h
  | reasoningDelta text =>
    exact onDraft_detail (fun _ => by split <;> exact ⟨rfl, rfl⟩) h
  | reasoningEnd truncated =>
    exact onDraft_detail (fun _ => by split <;> exact ⟨rfl, rfl⟩) h
  | _ => exact h

variable {s : ChatHook σ κ}

theorem dispatch_matched (h : Matched s.state) (action : ChatWorkspaceAction σ (Conversation κ)) :
    Matched (dispatch s action).state :=
  reducer_matched h action

theorem ite_matched {p : Prop} [Decidable p] {s' : ChatHook σ κ} (h : Matched s.state)
    (h' : Matched s'.state) : Matched (if p then s else s').state := by
  split
  next => exact h
  next => exact h'

theorem refreshChats_matched (h : Matched s.state) : Matched (refreshChats s).state :=
  dispatch_matched h .chatsLoading

theorem loadDetail_matched (h : Matched s.state) (chatId : ChatId) (phase : Option WorkspacePhase) :
    Matched (loadDetail s chatId phase).state :=
  dispatch_matched h (.detailLoading chatId)

theorem chooseHome_matched (h : Matched s.state) : Matched (chooseHome s).state :=
  dispatch_matched h (.route none false)

theorem runStream_matched (h : Matched s.state) (chatId : ChatId) (question : String)
    (retry : Bool) : Matched (runStream s chatId question retry).state :=
  dispatch_matched h (.start question retry)

theorem onConflict_matched (h : Matched s.state) : Matched (onConflict s).state := by
  unfold onConflict
  split
  next chatId _ => exact loadDetail_matched (refreshChats_matched h) chatId none
  next => exact refreshChats_matched h

theorem onStreamFailed_matched (h : Matched s.state) (chatId : ChatId) (operation : Nat)
    (message : String) : Matched (onStreamFailed s chatId operation message).state := by
  unfold onStreamFailed
  exact ite_matched (dispatch_matched h _) h

theorem onReconcile_matched (h : Matched s.state) (chatId : ChatId) (operation : Nat)
    (failure : Option String) (reply : Reply σ κ) :
    Matched (onReconcile s chatId operation failure reply).state := by
  have hafter : ∀ {s : ChatHook σ κ}, Matched s.state →
      Matched (afterReconcile s chatId operation failure).state := by
    intro s h
    unfold afterReconcile
    split <;> exact h
  unfold onReconcile
  split
  next conversation =>
    split
    next =>
      exact hafter (ite_matched (dispatch_matched h _) (dispatch_matched h _))
    next => exact h
  next => exact h
  next => exact h
  next => exact h

theorem onReconcileFailed_matched (h : Matched s.state) (chatId : ChatId) (operation : Nat)
    (error failure : Option String) :
    Matched (onReconcileFailed s chatId operation error failure).state := by
  unfold onReconcileFailed
  cases error with
  | none =>
    cases failure with
    | none => exact h
    | some message => exact onStreamFailed_matched h chatId operation message
  | some error =>
    have herror := ite_matched (p := operation = s.streamRequest)
      (dispatch_matched h (.streamFailed error false)) h
    cases failure with
    | none => exact herror
    | some message => exact onStreamFailed_matched herror chatId operation message

theorem onStopAsking_matched (h : Matched s.state) (chatId : ChatId) (operation : Nat)
    (prior : Option TurnView) (retried : Bool) (delays : List Nat) (reply : Reply σ κ) :
    Matched (onStopAsking s chatId operation prior retried delays reply).state := by
  unfold onStopAsking
  split
  next conversation =>
    split
    next => exact refreshChats_matched (ite_matched (dispatch_matched h _) h)
    next =>
      split
      next =>
        exact ite_matched (dispatch_matched h _) h
      next => exact h
  next =>
    exact ite_matched (dispatch_matched h _) h
  next => exact h

theorem resume_matched (h : Matched s.state) (task : ChatTask κ) (reply : Reply σ κ) :
    Matched (resume s task reply).state := by
  cases task with
  | chats request =>
    show Matched (onChats s request reply).state
    unfold onChats
    split
    next => exact ite_matched (dispatch_matched h _) h
    next => exact ite_matched (dispatch_matched h _) h
    next => exact h
  | detail chatId phase request aborted =>
    show Matched (onDetail s chatId phase request reply).state
    unfold onDetail
    split
    next =>
      split
      next => exact h
      next => exact dispatch_matched h _
    next =>
      split
      next => exact h
      next => split <;> exact dispatch_matched h _
    next => exact h
  | stream chatId operation aborted =>
    show Matched (onStream s chatId operation reply).state
    unfold onStream
    split
    next =>
      split
      next => exact refreshChats_matched (dispatch_matched h .recovering)
      next => exact h
    next message =>
      split
      next =>
        exact refreshChats_matched
          (dispatch_matched (dispatch_matched h (.streamFailed message false)) .recovering)
      next => exact h
    next => exact h
  | reconcile chatId operation failure => exact onReconcile_matched h chatId operation failure reply
  | reconcileFailed chatId operation error failure =>
    exact onReconcileFailed_matched h chatId operation error failure
  | streamFailed chatId operation message => exact onStreamFailed_matched h chatId operation message
  | stopAsking chatId operation prior retried delays =>
    exact onStopAsking_matched h chatId operation prior retried delays reply
  | stopWaiting chatId operation prior retried delays =>
    show Matched (onStopWaiting s chatId operation prior retried delays).state
    unfold onStopWaiting
    split <;> exact h
  | create question =>
    show Matched (onCreate s question reply).state
    unfold onCreate
    split
    next chatId scope =>
      exact runStream_matched
        (refreshChats_matched (dispatch_matched h (.chatCreated ⟨chatId, ⟨[], scope⟩⟩))) chatId
        question false
    next => exact h
  | rename chatId =>
    show Matched (onRename s chatId reply).state
    unfold onRename
    split
    next =>
      split
      next => exact loadDetail_matched (refreshChats_matched h) chatId none
      next => exact refreshChats_matched h
    next =>
      split
      next => exact onConflict_matched h
      next => exact h
    next => exact h
  | remove chatId =>
    show Matched (onRemove s chatId reply).state
    unfold onRemove
    split
    next => exact refreshChats_matched h
    next =>
      split
      next => exact onConflict_matched h
      next => exact h
    next => exact h
  | removed chatId active =>
    show Matched (onRemoved s active).state
    unfold onRemoved
    split
    next => exact chooseHome_matched h
    next => exact h
  | saveScope shown =>
    show Matched (onSaveScope s shown reply).state
    unfold onSaveScope
    split
    next => exact refreshChats_matched (dispatch_matched h _)
    next => split <;> exact h
    next => exact h
  | readScope chatId =>
    show Matched (onReadScope s chatId reply).state
    unfold onReadScope
    split
    next =>
      exact ite_matched (dispatch_matched h _) h
    next => exact h

theorem onFrame_matched (h : Matched s.state) (chatId : ChatId) (operation : Nat) (frame : Frame) :
    Matched (onFrame s chatId operation frame).state := by
  unfold onFrame
  split
  next =>
    split
    next => exact h
    next action _ =>
      split
      next => exact refreshChats_matched (dispatch_matched h action)
      next => exact dispatch_matched h action
  next => exact h

/-- Whatever happens. -/
theorem chatStep_matched (h : Matched s.state) (a : ChatAct σ κ) :
    Matched (chatStep s a).state := by
  cases a with
  | changeRoute initialChatId invalid =>
    show Matched (changeRoute s initialChatId invalid).state
    unfold changeRoute
    split
    next => exact h
    next =>
      have hroute := reducer_matched h (.route initialChatId invalid)
      split
      next chatId _ => exact loadDetail_matched hroute chatId none
      next => exact hroute
  | openChat chatId =>
    show Matched (openChat s chatId).state
    unfold openChat
    split
    next => exact h
    next => exact loadDetail_matched (reducer_matched h (.detailLoading chatId)) chatId none
  | chooseHome => exact chooseHome_matched h
  | send question =>
    show Matched (send s question).state
    unfold send
    split
    next => exact h
    next =>
      split
      next => exact dispatch_matched h _
      next question =>
        split
        next chatId _ => exact runStream_matched h chatId question false
        next => split <;> exact h
  | retry =>
    show Matched (retry s).state
    unfold retry
    split
    next => exact h
    next =>
      split
      next => exact h
      next =>
        split
        next => exact h
        next => exact runStream_matched h _ _ _
  | stop =>
    show Matched (stop s).state
    unfold stop
    split
    next => exact h
    next =>
      split
      next => exact h
      next => exact reducer_matched h .stopping
  | rename chatId =>
    show Matched (rename s chatId).state
    unfold rename
    split <;> exact h
  | remove chatId =>
    show Matched (remove s chatId).state
    unfold remove
    split <;> exact h
  | saveScope =>
    show Matched (saveScope s).state
    unfold saveScope
    split
    next => exact h
    next => split <;> exact h
  | refreshRef => exact h
  | frame index frame =>
    show Matched (onFrameAt s index frame).state
    unfold onFrameAt
    split
    next => exact onFrame_matched h _ _ frame
    next => exact h
  | answer index reply =>
    show Matched (onAnswerAt s index reply).state
    unfold onAnswerAt
    split
    next task _ => exact resume_matched (s := { s with tasks := s.tasks.eraseIdx index }) h task _
    next => exact h

theorem mountChat_matched (initialChatId : Option ChatId) (invalid : Bool) :
    Matched (mountChat (σ := σ) (κ := κ) initialChatId invalid).state := by
  have hnone : Matched (initialChatWorkspaceState (σ := σ) (κ := κ) initialChatId invalid) := by
    intro detail hdetail
    cases hdetail
  unfold mountChat
  split
  next chatId => exact loadDetail_matched (refreshChats_matched hnone) chatId none
  next => exact refreshChats_matched hnone

end LocalRag.Workspace
