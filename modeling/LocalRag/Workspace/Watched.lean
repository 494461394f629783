import LocalRag.Workspace.Active

/-!
# The chat hook watches its active chat

Tasks wait while the user goes on. What the counters and the active chat in `stateRef` say
of them is the invariant `Watched`:
- a `loadDetail` that is neither aborted nor overtaken is for the active chat;
- a stream, a `reconcile` and a `stop` of the current operation are for the active chat,
  unless that was found missing, and then there is no draft;
- while a `stop` has the current operation no stream has.

Not every handler asks both, and some ask neither: what each leaves to luck is `AnswerOk`.
Under it every step keeps the invariant (`chatStep_inv`).
-/

namespace LocalRag.Workspace

open LocalRag.Core LocalRag.Stream

variable {σ κ : Type}

/-! ## Tasks -/

/-- The chat a task is about; a chat that is being created is asked for where none is open. -/
def ChatTask.about : ChatTask κ → Option (Option ChatId)
  | .chats _ => none
  | .create _ => some none
  | .saveScope shown => some (some shown.chatId)
  | .detail chatId _ _ _ => some (some chatId)
  | .stream chatId _ _ => some (some chatId)
  | .reconcile chatId _ _ => some (some chatId)
  | .reconcileFailed chatId _ _ _ => some (some chatId)
  | .streamFailed chatId _ _ => some (some chatId)
  | .stopAsking chatId _ _ _ _ => some (some chatId)
  | .stopWaiting chatId _ _ _ _ => some (some chatId)
  | .rename chatId => some (some chatId)
  | .remove chatId => some (some chatId)
  | .removed chatId _ => some (some chatId)
  | .readScope chatId => some (some chatId)

/-- The number of the stream operation it belongs to. -/
def ChatTask.operation : ChatTask κ → Option Nat
  | .stream _ operation _ => some operation
  | .reconcile _ operation _ => some operation
  | .reconcileFailed _ operation _ _ => some operation
  | .streamFailed _ operation _ => some operation
  | .stopAsking _ operation _ _ _ => some operation
  | .stopWaiting _ operation _ _ _ => some operation
  | _ => none

def ChatTask.isStream : ChatTask κ → Bool
  | .stream _ _ _ => true
  | _ => false

def ChatTask.isStop : ChatTask κ → Bool
  | .stopAsking _ _ _ _ _ | .stopWaiting _ _ _ _ _ => true
  | _ => false

/-- The number of a `loadDetail`. -/
def ChatTask.request : ChatTask κ → Option Nat
  | .detail _ _ request _ => some request
  | _ => none

def ChatTask.isLive : ChatTask κ → Bool
  | .detail _ _ _ aborted => !aborted
  | _ => false

/-- A stream of the current operation is being read. -/
def running (streamRequest : Nat) (tasks : List (ChatTask κ)) : Bool :=
  tasks.any fun task => task.isStream && task.operation = some streamRequest

/-! ## What is left to luck -/

/-- What the user sees of a chat. -/
def view (state : ChatWorkspaceState σ (Conversation κ)) :
    Option ChatId × Option (ChatDetail (Conversation κ)) × Option DraftTurn × WorkspacePhase :=
  (state.activeChatId, state.detail, state.draft, state.phase)

/-- No chat is open. -/
def home : Option ChatId × Option (ChatDetail (Conversation κ)) × Option DraftTurn ×
    WorkspacePhase :=
  (none, none, none, .chooser)

/-- The chat is still active, and no stream has been started in it. -/
def Quiet (s : ChatHook σ κ) (chatId : ChatId) : Prop :=
  s.state.activeChatId = some chatId ∧ running s.streamRequest s.tasks = false

/-- Loading `chatId` for an answer about `about` only refreshes it. -/
def LoadOk (s : ChatHook σ κ) (about chatId : ChatId) : Prop :=
  s.state.activeChatId = some chatId ∧
    (s.state.detail.isSome = true ∨
      running s.streamRequest s.tasks = false ∧
        (about = chatId ∨ s.state.draft = none ∧ s.state.phase = .loading))

/-- What a handler does not ask itself. -/
def AnswerOk (s : ChatHook σ κ) : ChatTask κ → Reply σ κ → Prop
  | .detail chatId _ request _, .conversation _ =>
    request = s.detailRequest → s.stateRef.activeChatId = some chatId →
      running s.streamRequest s.tasks = false
  | .detail _ _ request _, .failed status _ =>
    request = s.detailRequest → status = some 404 → running s.streamRequest s.tasks = false
  | .stream chatId operation _, .done | .stream chatId operation _, .failed _ _
  | .reconcile chatId operation _, .conversation _ | .streamFailed chatId operation _, _ =>
    isCurrent s chatId operation = true → s.state.activeChatId ≠ none
  | .reconcileFailed chatId operation error failure, _ =>
    operation = s.streamRequest →
      error.isSome = true ∨ failure.isSome = true ∧ s.stateRef.activeChatId = some chatId →
      s.state.activeChatId ≠ none
  | .stopAsking chatId operation prior retried delays, .conversation conversation =>
    operation = s.streamRequest →
      (if stopSeen prior retried conversation then s.stateRef.activeChatId = some chatId
        else delays = []) →
      s.state.activeChatId ≠ none
  | .stopAsking _ operation _ _ _, .failed _ _ =>
    operation = s.streamRequest → s.state.activeChatId ≠ none
  | .create _, .created _ _ =>
    s.state.activeChatId = none ∧ running s.streamRequest s.tasks = false
  | .rename chatId, .done => s.stateRef.activeChatId = some chatId → LoadOk s chatId chatId
  | .rename about, .failed status _ | .remove about, .failed status _ =>
    status = some 409 → ∀ chatId, s.stateRef.activeChatId = some chatId → LoadOk s about chatId
  | .removed chatId active, _ => active = true → Quiet s chatId ∨ view s.state = home
  | .saveScope detail, .scope _ => Quiet s detail.chatId
  | .readScope chatId, .conversation _ =>
    s.stateRef.activeChatId = some chatId → Quiet s chatId
  | _, _ => True

/-- A question is asked, and a stream stopped, in the chat that is active; and `AnswerOk`. -/
def ChatStepOk (s : ChatHook σ κ) : ChatAct σ κ → Prop
  | .send (.ok _) | .stop =>
    s.detailRefreshing = false → ∀ chatId, s.stateRef.activeChatId = some chatId →
      s.state.activeChatId = some chatId
  | .retry =>
    s.detailRefreshing = false → ∀ detail, s.stateRef.detail = some detail →
      retriable detail ≠ none → s.state.activeChatId = some detail.chatId
  | .answer index reply =>
    ∀ task, s.tasks[index]? = some task → AnswerOk s task (task.heard reply)
  | _ => True

/-! ## The invariant -/

/-- What holds of a task that waits. -/
structure Fits (active : Option ChatId) (detailRequest streamRequest : Nat) (task : ChatTask κ) :
    Prop where
  request_le : ∀ request, task.request = some request → request ≤ detailRequest
  operation_le : ∀ operation, task.operation = some operation → operation ≤ streamRequest
  /-- The current `loadDetail`, while nobody has aborted it, is for the active chat. -/
  live : task.isLive = true → task.request = some detailRequest → task.about = some active
  /-- What belongs to the current operation is for it, too, unless there is none. -/
  owned : task.operation = some streamRequest → task.about = some active ∨ active = none

structure Watched (active : Option ChatId) (draft : Option DraftTurn)
    (detailRequest streamRequest : Nat) (tasks : List (ChatTask κ)) : Prop where
  blank : active = none → draft = none
  fits : ∀ task ∈ tasks, Fits active detailRequest streamRequest task
  /-- Every `loadDetail` has a number of its own. -/
  distinct : tasks.Pairwise fun a b => ∀ request, a.request = some request →
    b.request ≠ some request
  apart : ∀ task ∈ tasks, task.isStop = true → task.operation = some streamRequest →
    running streamRequest tasks = false

def Inv (s : ChatHook σ κ) : Prop :=
  Watched s.state.activeChatId s.state.draft s.detailRequest s.streamRequest s.tasks

section Watched

variable {active active' : Option ChatId} {draft draft' : Option DraftTurn}
  {detailRequest detailRequest' streamRequest streamRequest' : Nat}
  {tasks : List (ChatTask κ)} {task : ChatTask κ}

theorem running_append (more : List (ChatTask κ)) :
    running streamRequest (tasks ++ more) =
      (running streamRequest tasks || running streamRequest more) :=
  List.any_append

theorem running_of_sublist {fewer : List (ChatTask κ)} (hsub : fewer.Sublist tasks)
    (h : running streamRequest tasks = false) : running streamRequest fewer = false := by
  unfold running at h ⊢
  rw [List.any_eq_false] at h ⊢
  exact fun task htask => h task (hsub.subset htask)

/-- Nothing of an operation that has not begun is running. -/
theorem Watched.not_running (h : Watched active draft detailRequest streamRequest tasks)
    (hlt : streamRequest < streamRequest') : running streamRequest' tasks = false := by
  unfold running
  rw [List.any_eq_false]
  intro task htask hrunning
  obtain ⟨_, hoperation⟩ := Bool.and_eq_true_iff.mp hrunning
  have hle := (h.fits task htask).operation_le streamRequest' (of_decide_eq_true hoperation)
  omega

theorem Watched.withDraft (h : Watched active draft detailRequest streamRequest tasks)
    (hblank : active = none → draft' = none) :
    Watched active draft' detailRequest streamRequest tasks :=
  { h with blank := hblank }

theorem Watched.erase (h : Watched active draft detailRequest streamRequest tasks)
    (index : Nat) : Watched active draft detailRequest streamRequest (tasks.eraseIdx index) where
  blank := h.blank
  fits := fun task htask => h.fits task (List.mem_of_mem_eraseIdx htask)
  distinct := h.distinct.sublist (List.eraseIdx_sublist _ _)
  apart := fun task htask hstop hoperation =>
    running_of_sublist (List.eraseIdx_sublist _ _)
      (h.apart task (List.mem_of_mem_eraseIdx htask) hstop hoperation)

/-- A task begins to wait. -/
theorem Watched.await (h : Watched active draft detailRequest streamRequest tasks)
    (hfits : Fits active detailRequest streamRequest task)
    (hdistinct : ∀ other ∈ tasks, ∀ request, other.request = some request →
      task.request ≠ some request)
    (hstops : task.isStream = true → ∀ other ∈ tasks, other.isStop = true →
      other.operation ≠ some streamRequest)
    (hstop : task.isStop = true → task.operation = some streamRequest →
      running streamRequest tasks = false) :
    Watched active draft detailRequest streamRequest (tasks ++ [task]) where
  blank := h.blank
  fits := by
    intro other hother
    rcases List.mem_append.mp hother with hold | hnew
    · exact h.fits other hold
    · obtain rfl := List.mem_singleton.mp hnew
      exact hfits
  distinct := by
    rw [List.pairwise_append]
    refine ⟨h.distinct, List.pairwise_singleton _ _, fun other hother fresh hfresh => ?_⟩
    obtain rfl := List.mem_singleton.mp hfresh
    exact hdistinct other hother
  apart := by
    intro other hother hisStop hoperation
    rw [running_append, Bool.or_eq_false_iff]
    rcases List.mem_append.mp hother with hold | hnew
    · refine ⟨h.apart other hold hisStop hoperation, ?_⟩
      -- a stream would have begun a new operation, which the stop is not of
      cases hstream : task.isStream with
      | true => exact absurd hoperation (hstops hstream other hold hisStop)
      | false => simp [running, hstream]
    · obtain rfl := List.mem_singleton.mp hnew
      refine ⟨hstop hisStop hoperation, ?_⟩
      cases other <;> first | rfl | cases hisStop

/-- Every task is marked, which at most makes it less live. -/
theorem Watched.map (h : Watched active draft detailRequest streamRequest tasks)
    {f : ChatTask κ → ChatTask κ}
    (hrequest : ∀ task, (f task).request = task.request)
    (hoperation : ∀ task, (f task).operation = task.operation)
    (habout : ∀ task, (f task).about = task.about)
    (hstream : ∀ task, (f task).isStream = task.isStream)
    (hstop : ∀ task, (f task).isStop = task.isStop)
    (hlive : ∀ task, (f task).isLive = true → task.isLive = true) :
    Watched active draft detailRequest streamRequest (tasks.map f) where
  blank := h.blank
  fits := by
    intro marked hmarked
    obtain ⟨task, htask, rfl⟩ := List.mem_map.mp hmarked
    have hfits := h.fits task htask
    refine ⟨?_, ?_, ?_, ?_⟩
    · rw [hrequest]
      exact hfits.request_le
    · rw [hoperation]
      exact hfits.operation_le
    · rw [hrequest, habout]
      exact fun hislive => hfits.live (hlive task hislive)
    · rw [hoperation, habout]
      exact hfits.owned
  distinct := by
    rw [List.pairwise_map]
    exact h.distinct.imp fun hab => by rwa [hrequest, hrequest]
  apart := by
    intro marked hmarked hisStop hcurrent
    obtain ⟨task, htask, rfl⟩ := List.mem_map.mp hmarked
    rw [hstop] at hisStop
    rw [hoperation] at hcurrent
    have hnone := h.apart task htask hisStop hcurrent
    unfold running at hnone ⊢
    rw [List.any_map]
    simpa only [Function.comp_def, hstream, hoperation] using hnone

theorem Watched.abortDetail (h : Watched active draft detailRequest streamRequest tasks) :
    Watched active draft detailRequest streamRequest (tasks.map ChatTask.abortDetail) := by
  refine h.map ?_ ?_ ?_ ?_ ?_ ?_ <;> intro task <;> cases task <;>
    first | rfl | exact id | exact nofun

theorem Watched.abortStream (h : Watched active draft detailRequest streamRequest tasks) :
    Watched active draft detailRequest streamRequest (tasks.map ChatTask.abortStream) := by
  refine h.map ?_ ?_ ?_ ?_ ?_ ?_ <;> intro task <;> cases task <;> first | rfl | exact id

theorem not_live_abortDetail :
    ∀ task ∈ tasks.map ChatTask.abortDetail, task.isLive = false := by
  intro marked hmarked
  obtain ⟨task, _, rfl⟩ := List.mem_map.mp hmarked
  cases task <;> rfl

/-- A new operation begins, and no `loadDetail` is current any more: whichever chat is active
then. -/
theorem Watched.moved (h : Watched active draft detailRequest streamRequest tasks)
    (hdetail : detailRequest ≤ detailRequest') (hstream : streamRequest < streamRequest')
    (hlive : detailRequest < detailRequest' ∨ ∀ task ∈ tasks, task.isLive = false)
    (hblank : active' = none → draft' = none) :
    Watched active' draft' detailRequest' streamRequest' tasks where
  blank := hblank
  fits := by
    intro task htask
    have hfits := h.fits task htask
    refine ⟨?_, ?_, ?_, ?_⟩
    · intro request hrequest
      have := hfits.request_le request hrequest
      omega
    · intro operation hoperation
      have := hfits.operation_le operation hoperation
      omega
    · intro hislive hcurrent
      rcases hlive with hlt | hnone
      · have := hfits.request_le _ hcurrent
        omega
      · rw [hnone task htask] at hislive
        cases hislive
    · intro hcurrent
      have := hfits.operation_le _ hcurrent
      omega
  distinct := h.distinct
  apart := fun task htask _ hcurrent => by
    have := (h.fits task htask).operation_le _ hcurrent
    omega

/-- A new operation begins in the active chat. -/
theorem Watched.stopped (h : Watched active draft detailRequest streamRequest tasks)
    (hstream : streamRequest < streamRequest') :
    Watched active draft detailRequest streamRequest' tasks where
  blank := h.blank
  fits := by
    intro task htask
    have hfits := h.fits task htask
    refine ⟨hfits.request_le, ?_, hfits.live, ?_⟩
    · intro operation hoperation
      have := hfits.operation_le operation hoperation
      omega
    · intro hcurrent
      have := hfits.operation_le _ hcurrent
      omega
  distinct := h.distinct
  apart := fun task htask _ hcurrent => by
    have := (h.fits task htask).operation_le _ hcurrent
    omega

/-- A chat is loaded: what belongs to the current operation has to be for it. -/
theorem Watched.load {chatId : ChatId} {phase : Option WorkspacePhase}
    (h : Watched active draft detailRequest streamRequest tasks)
    (howned : ∀ task ∈ tasks, task.operation = some streamRequest →
      task.about = some (some chatId)) :
    Watched (some chatId) draft' (detailRequest + 1) streamRequest
      (tasks.map ChatTask.abortDetail ++ [.detail chatId phase (detailRequest + 1) false]) := by
  have habort := h.abortDetail
  have hfresh : ∀ task ∈ tasks.map ChatTask.abortDetail, ∀ request,
      task.request = some request → request ≤ detailRequest :=
    fun task htask => (habort.fits task htask).request_le
  refine Watched.await ⟨nofun, ?_, habort.distinct, habort.apart⟩ ⟨?_, nofun, fun _ _ => rfl, nofun⟩
    ?_ nofun nofun
  · intro marked hmarked
    have hfits := habort.fits marked hmarked
    refine ⟨fun request hrequest => ?_, hfits.operation_le, ?_, ?_⟩
    · have := hfresh marked hmarked request hrequest
      omega
    · intro hislive
      rw [not_live_abortDetail marked hmarked] at hislive
      cases hislive
    · intro hcurrent
      obtain ⟨task, htask, rfl⟩ := List.mem_map.mp hmarked
      left
      cases task <;> first | exact howned _ htask hcurrent | cases hcurrent
  · intro request hrequest
    obtain rfl := Option.some.inj hrequest
    exact Nat.le_refl _
  · intro other hother request hrequest heq
    have := hfresh other hother request hrequest
    obtain rfl := Option.some.inj heq
    omega

end Watched

/-! ## The callbacks keep it -/

variable {s : ChatHook σ κ}

theorem await_inv (h : Inv s) {task : ChatTask κ}
    (hfits : Fits s.state.activeChatId s.detailRequest s.streamRequest task)
    (hrequest : task.request = none) (hstream : task.isStream = false)
    (hstop : task.isStop = true → task.operation = some s.streamRequest →
      running s.streamRequest s.tasks = false) : Inv (await s task) :=
  Watched.await h hfits (fun _ _ _ _ hfresh => nomatch hrequest.symm.trans hfresh)
    (fun hfresh => nomatch hstream.symm.trans hfresh) hstop

/-- A task that belongs to no operation. -/
theorem await_plain (h : Inv s) (task : ChatTask κ) (hrequest : task.request = none)
    (hoperation : task.operation = none) (hstream : task.isStream = false) :
    Inv (await s task) := by
  refine await_inv h ⟨?_, ?_, ?_, ?_⟩ hrequest hstream ?_
  · exact fun _ hfresh => nomatch hrequest.symm.trans hfresh
  · exact fun _ hfresh => nomatch hoperation.symm.trans hfresh
  · exact fun _ hfresh => nomatch hrequest.symm.trans hfresh
  · exact fun hfresh => nomatch hoperation.symm.trans hfresh
  · exact fun _ hfresh => nomatch hoperation.symm.trans hfresh

/-- What an operation does next. -/
theorem await_next (h : Inv s) {task next : ChatTask κ}
    (hfits : Fits s.state.activeChatId s.detailRequest s.streamRequest task)
    (hrequest : next.request = none) (hstream : next.isStream = false)
    (hoperation : next.operation = task.operation) (habout : next.about = task.about)
    (hstop : next.isStop = true → task.operation = some s.streamRequest →
      running s.streamRequest s.tasks = false) : Inv (await s next) := by
  refine await_inv h ⟨?_, ?_, ?_, ?_⟩ hrequest hstream ?_
  · exact fun _ hfresh => nomatch hrequest.symm.trans hfresh
  · rw [hoperation]
    exact hfits.operation_le
  · exact fun _ hfresh => nomatch hrequest.symm.trans hfresh
  · rw [hoperation, habout]
    exact hfits.owned
  · rw [hoperation]
    exact hstop

theorem refreshChats_inv (h : Inv s) : Inv (refreshChats s) :=
  await_plain (s := dispatch { s with chatsRequest := s.chatsRequest + 1 } .chatsLoading)
    h (.chats (s.chatsRequest + 1)) rfl rfl rfl

/-- The state behind `detail-loading`. -/
theorem detailLoading_active (state : ChatWorkspaceState σ (Conversation κ)) (chatId : ChatId) :
    (chatWorkspaceReducer state (.detailLoading chatId)).activeChatId = some chatId := by
  unfold chatWorkspaceReducer
  dsimp only
  split
  next hsame => exact hsame.1.symm
  next => rfl

theorem loadDetail_inv (h : Inv s) {chatId : ChatId} {phase : Option WorkspacePhase}
    (howned : ∀ task ∈ s.tasks, task.operation = some s.streamRequest →
      task.about = some (some chatId)) : Inv (loadDetail s chatId phase) := by
  show Watched (chatWorkspaceReducer s.state (.detailLoading chatId)).activeChatId _ _ _ _
  rw [detailLoading_active]
  exact Watched.load h howned

/-- The active chat is loaded. -/
theorem reload_inv (h : Inv s) {chatId : ChatId} {phase : Option WorkspacePhase}
    (hactive : s.state.activeChatId = some chatId) : Inv (loadDetail s chatId phase) := by
  refine loadDetail_inv h fun task htask hoperation => ?_
  rcases (h.fits task htask).owned hoperation with habout | hnone
  · rw [habout, hactive]
  · rw [hnone] at hactive
    cases hactive

/-- Everything is aborted, and another chat may be active. -/
theorem moved_inv (h : Inv s) (action : ChatWorkspaceAction σ (Conversation κ))
    (hblank : (chatWorkspaceReducer s.state action).activeChatId = none →
      (chatWorkspaceReducer s.state action).draft = none) :
    Inv (dispatch (abortDetail (abortStream { s with streamRequest := s.streamRequest + 1 }))
      action) :=
  Watched.moved (Watched.abortStream h).abortDetail (Nat.le_refl _) (Nat.lt_succ_self _)
    (.inr not_live_abortDetail) hblank

/-- Nothing belongs to an operation that has just begun. -/
theorem moved_owned (h : Inv s) (chatId : ChatId) :
    ∀ task ∈ (abortDetail (abortStream s)).tasks, task.operation = some (s.streamRequest + 1) →
      task.about = some (some chatId) := by
  intro task htask hoperation
  have := ((Watched.abortStream h).abortDetail.fits task htask).operation_le _ hoperation
  omega

theorem changeRoute_inv (h : Inv s) (initialChatId : Option ChatId) (invalid : Bool) :
    Inv (changeRoute s initialChatId invalid) := by
  unfold changeRoute
  split
  next => exact h
  next =>
    have hmoved := moved_inv h (.route initialChatId invalid) fun _ => rfl
    split
    next chatId _ => exact loadDetail_inv hmoved (moved_owned h chatId)
    next => exact hmoved

theorem openChat_inv (h : Inv s) (chatId : ChatId) : Inv (openChat s chatId) := by
  unfold openChat
  split
  next => exact h
  next =>
    refine loadDetail_inv (moved_inv h (.detailLoading chatId) fun hnone => ?_)
      (moved_owned h chatId)
    rw [detailLoading_active] at hnone
    cases hnone

theorem chooseHome_inv (h : Inv s) : Inv (chooseHome s) :=
  moved_inv h (.route none false) fun _ => rfl

/-- A stream is started in the active chat, whichever was active until now. -/
theorem runStream_inv {active : Option ChatId} {draft : Option DraftTurn}
    (h : Watched active draft s.detailRequest s.streamRequest s.tasks) {chatId : ChatId}
    (hactive : s.state.activeChatId = some chatId) (question : String) (retry : Bool) :
    Inv (runStream s chatId question retry) := by
  have habort := h.abortDetail.abortStream
  have hmoved : Watched s.state.activeChatId (some (startDraft question retry))
      (s.detailRequest + 1) (s.streamRequest + 1)
      ((s.tasks.map ChatTask.abortDetail).map ChatTask.abortStream) := by
    refine habort.moved (Nat.le_succ _) (Nat.lt_succ_self _) (.inl (Nat.lt_succ_self _)) ?_
    intro hnone
    rw [hactive] at hnone
    cases hnone
  refine Watched.await hmoved ⟨nofun, ?_, nofun, fun _ => .inl (congrArg some hactive.symm)⟩
    (fun _ _ _ _ => nofun) ?_ nofun
  · intro operation hoperation
    obtain rfl := Option.some.inj hoperation
    exact Nat.le_refl _
  · intro _ other hother _ hcurrent
    have := (habort.fits other hother).operation_le (s.streamRequest + 1) hcurrent
    omega

theorem stop_inv (h : Inv s)
    (hok : s.detailRefreshing = false → ∀ chatId, s.stateRef.activeChatId = some chatId →
      s.state.activeChatId = some chatId) : Inv (stop s) := by
  unfold stop
  split
  next => exact h
  next hrefreshing =>
    split
    next => exact h
    next chatId hchat =>
      have hactive := hok (Bool.eq_false_iff.mpr hrefreshing) chatId hchat
      have habort := Watched.abortStream h
      refine Watched.await (habort.stopped (Nat.lt_succ_self _))
        ⟨nofun, ?_, nofun, fun _ => .inl (congrArg some hactive.symm)⟩ (fun _ _ _ _ => nofun)
        nofun fun _ _ => habort.not_running (Nat.lt_succ_self _)
      intro operation hoperation
      obtain rfl := Option.some.inj hoperation
      exact Nat.le_refl _

theorem send_inv (h : Inv s) (question : Except String String)
    (hok : ChatStepOk s (.send question)) : Inv (send s question) := by
  unfold send
  split
  next => exact h
  next hrefreshing =>
    split
    next => exact h
    next question =>
      split
      next chatId hchat =>
        exact runStream_inv h (hok (Bool.eq_false_iff.mpr hrefreshing) chatId hchat) question false
      next =>
        split
        next => exact h
        next => exact await_plain (s := { s with firstSendInFlight := true }) h _ rfl rfl rfl

theorem retry_inv (h : Inv s) (hok : ChatStepOk s .retry) : Inv (retry s) := by
  unfold retry
  split
  next => exact h
  next hrefreshing =>
    split
    next => exact h
    next detail hdetail =>
      split
      next => exact h
      next latest hlatest =>
        refine runStream_inv h (hok (Bool.eq_false_iff.mpr hrefreshing) detail hdetail ?_) _ _
        rw [hlatest]
        exact Option.some_ne_none _

/-! ## The answers keep it -/

/-- A detail of the active chat is put in. -/
theorem loaded_inv (h : Inv s) (detail : ChatDetail (Conversation κ))
    (hactive : s.state.activeChatId = some detail.chatId) (phase : Option WorkspacePhase) :
    Inv (dispatch s (.detailLoaded detail phase)) := by
  show Watched (some detail.chatId) none _ _ _
  rw [← hactive]
  exact Watched.withDraft h fun _ => rfl

theorem reconciled_inv (h : Inv s) {detail : ChatDetail (Conversation κ)}
    (hactive : s.state.activeChatId = some detail.chatId) :
    Inv (dispatch s (.detailReconciled detail)) := by
  show Watched (some detail.chatId) _ _ _ _
  rw [← hactive]
  refine Watched.withDraft h fun hnone => ?_
  rw [hactive] at hnone
  cases hnone

/-- What is of the current operation is for the active chat. -/
theorem active_of_fits {task : ChatTask κ} {chatId : ChatId}
    (hfits : Fits s.state.activeChatId s.detailRequest s.streamRequest task)
    (hoperation : task.operation = some s.streamRequest)
    (habout : task.about = some (some chatId)) (hsome : s.state.activeChatId ≠ none) :
    s.state.activeChatId = some chatId := by
  rcases hfits.owned hoperation with hactive | hnone
  · rw [habout] at hactive
    exact (Option.some.inj hactive).symm
  · exact absurd hnone hsome

variable {reply : Reply σ κ}

variable {aborted : Bool}

theorem onDetail_inv (h : Inv s) {chatId : ChatId} {phase : Option WorkspacePhase} {request : Nat}
    (hfits : Fits s.state.activeChatId s.detailRequest s.streamRequest
      (.detail chatId phase request aborted : ChatTask κ))
    (halone : ∀ task ∈ s.tasks, task.request ≠ some request)
    (hheard : aborted = true → reply = .aborted) : Inv (onDetail s chatId phase request reply) := by
  unfold onDetail
  split
  next conversation =>
    split
    next => exact h
    next hcurrent =>
      have hrequest : request = s.detailRequest := not_not.mp (not_or.mp hcurrent).1
      have hlive : aborted = false := by
        cases aborted with
        | false => rfl
        | true => cases hheard rfl
      have hactive := hfits.live (by rw [hlive]; rfl) (congrArg some hrequest)
      exact loaded_inv (s := { s with detailRefreshing := false }) h ⟨chatId, conversation⟩
        (Option.some.inj hactive).symm _
  next =>
    split
    next => exact h
    next hcurrent =>
      have hrequest : request = s.detailRequest := not_not.mp hcurrent
      split
      next =>
        -- no chat is active now, and no other `loadDetail` is the current one
        refine ⟨fun _ => rfl, fun task htask => ?_, h.distinct, h.apart⟩
        have hfits := h.fits task htask
        refine ⟨hfits.request_le, hfits.operation_le, fun _ hsame => ?_, fun _ => .inr rfl⟩
        exact absurd (hsame.trans (congrArg some hrequest.symm)) (halone task htask)
      next => exact h
  next => exact h

theorem onDraft_frame {state : ChatWorkspaceState σ (Conversation κ)}
    {k : DraftTurn → ChatWorkspaceState σ (Conversation κ)}
    (hk : ∀ draft, (k draft).activeChatId = state.activeChatId) :
    (onDraft state k).activeChatId = state.activeChatId ∧
      (state.draft = none → onDraft state k = state) := by
  unfold onDraft
  split
  next => exact ⟨rfl, fun _ => rfl⟩
  next draft hdraft => exact ⟨hk draft, fun hnone => nomatch hdraft.symm.trans hnone⟩

/-- A frame goes to the draft, if there is one. -/
theorem handlerAction_frame {frame : Frame} {action : ChatWorkspaceAction σ (Conversation κ)}
    (h : handlerAction frame = some action) (state : ChatWorkspaceState σ (Conversation κ)) :
    (chatWorkspaceReducer state action).activeChatId = state.activeChatId ∧
      (state.draft = none → chatWorkspaceReducer state action = state) := by
  unfold handlerAction at h
  split at h
  next =>
    obtain rfl := Option.some.inj h
    exact onDraft_frame fun _ => rfl
  next =>
    obtain rfl := Option.some.inj h
    exact onDraft_frame fun _ => rfl
  next =>
    obtain rfl := Option.some.inj h
    exact onDraft_frame fun _ => by split <;> rfl
  next =>
    obtain rfl := Option.some.inj h
    exact onDraft_frame fun _ => by split <;> rfl
  next =>
    obtain rfl := Option.some.inj h
    exact onDraft_frame fun _ => by split <;> rfl
  next =>
    obtain rfl := Option.some.inj h
    exact onDraft_frame fun _ => rfl
  next =>
    obtain rfl := Option.some.inj h
    exact onDraft_frame fun _ => rfl
  next =>
    obtain rfl := Option.some.inj h
    exact onDraft_frame fun _ => rfl
  next => cases h

theorem onFrame_inv (h : Inv s) (chatId : ChatId) (operation : Nat) (frame : Frame) :
    Inv (onFrame s chatId operation frame) := by
  unfold onFrame
  split
  next =>
    split
    next => exact h
    next action haction =>
      obtain ⟨hactive, hblank⟩ := handlerAction_frame haction s.state
      have hdispatch : Inv (dispatch s action) := by
        show Watched (chatWorkspaceReducer s.state action).activeChatId _ _ _ _
        rw [hactive]
        refine Watched.withDraft h fun hnone => ?_
        have hdraft := h.blank hnone
        show (chatWorkspaceReducer s.state action).draft = none
        rw [hblank hdraft, hdraft]
      split
      next => exact refreshChats_inv hdispatch
      next => exact hdispatch
  next => exact h

variable {operation : Nat}

theorem isCurrent_operation {chatId : ChatId} (h : isCurrent s chatId operation = true) :
    operation = s.streamRequest :=
  (of_decide_eq_true h).1

theorem reconcile_inv (h : Inv s) {chatId : ChatId}
    (hfits : Fits s.state.activeChatId s.detailRequest s.streamRequest
      (.stream chatId operation aborted : ChatTask κ)) (failure : Option String) :
    Inv (reconcile s chatId operation failure) :=
  await_next (s := refreshChats (dispatch s .recovering))
    (refreshChats_inv (s := dispatch s .recovering) h) hfits rfl rfl rfl rfl nofun

theorem onStream_inv (h : Inv s) {chatId : ChatId}
    (hfits : Fits s.state.activeChatId s.detailRequest s.streamRequest
      (.stream chatId operation aborted : ChatTask κ)) (reply : Reply σ κ) :
    Inv (onStream s chatId operation reply) := by
  unfold onStream
  split
  next =>
    split
    next => exact reconcile_inv h hfits none
    next => exact h
  next message =>
    split
    next =>
      exact reconcile_inv (s := dispatch s (.streamFailed message false)) h hfits (some message)
    next => exact h
  next => exact h

theorem onStreamFailed_inv (h : Inv s) (chatId : ChatId) (operation : Nat) (message : String) :
    Inv (onStreamFailed s chatId operation message) := by
  unfold onStreamFailed
  split <;> exact h

/-- Whichever of the two puts the detail in. -/
theorem reconciled_after_inv (h : Inv s) (detail : ChatDetail (Conversation κ))
    (hactive : s.state.activeChatId = some detail.chatId) {p : Prop} [Decidable p]
    (phase : Option WorkspacePhase) (hoperation : operation = s.streamRequest)
    (failure : Option String) :
    Inv (afterReconcile
      (if p then dispatch s (.detailReconciled detail) else dispatch s (.detailLoaded detail phase))
      detail.chatId operation failure) := by
  have hfits : Fits (some detail.chatId) s.detailRequest s.streamRequest
      (.reconcile detail.chatId operation failure : ChatTask κ) := by
    refine ⟨nofun, fun n hn => ?_, nofun, fun _ => .inl rfl⟩
    obtain rfl := Option.some.inj hn
    omega
  by_cases hp : p
  · rw [if_pos hp]
    cases failure with
    | none => exact reconciled_inv h hactive
    | some message =>
      exact await_next (s := dispatch s (.detailReconciled detail)) (reconciled_inv h hactive)
        hfits rfl rfl rfl rfl nofun
  · rw [if_neg hp]
    cases failure with
    | none => exact loaded_inv h detail hactive phase
    | some message =>
      exact await_next (s := dispatch s (.detailLoaded detail phase)) (loaded_inv h detail hactive phase)
        hfits rfl rfl rfl rfl nofun

theorem onReconcile_inv (h : Inv s) {chatId : ChatId} {failure : Option String}
    (hfits : Fits s.state.activeChatId s.detailRequest s.streamRequest
      (.reconcile chatId operation failure : ChatTask κ))
    (hok : AnswerOk s (.reconcile chatId operation failure) reply) :
    Inv (onReconcile s chatId operation failure reply) := by
  unfold onReconcile
  split
  next conversation =>
    split
    next hcurrent =>
      have hoperation := isCurrent_operation hcurrent
      have hactive := active_of_fits hfits (congrArg some hoperation) rfl (hok hcurrent)
      exact reconciled_after_inv h ⟨chatId, conversation⟩ hactive _ hoperation failure
    next => exact h
  next message => exact await_next h hfits rfl rfl rfl rfl nofun
  next => exact await_next h hfits rfl rfl rfl rfl nofun
  next => exact h

theorem onReconcileFailed_inv (h : Inv s) (chatId : ChatId) (operation : Nat)
    (error failure : Option String) : Inv (onReconcileFailed s chatId operation error failure) := by
  have herror : ∀ message : String, Inv (if operation = s.streamRequest then
      dispatch s (.streamFailed message false) else s) := by
    intro message
    split <;> exact h
  unfold onReconcileFailed
  cases error with
  | none =>
    cases failure with
    | none => exact h
    | some message => exact onStreamFailed_inv h chatId operation message
  | some error =>
    cases failure with
    | none => exact herror error
    | some message => exact onStreamFailed_inv (herror error) chatId operation message

theorem onStopAsking_inv (h : Inv s) {chatId : ChatId} {prior : Option TurnView} {retried : Bool}
    {delays : List Nat}
    (hfits : Fits s.state.activeChatId s.detailRequest s.streamRequest
      (.stopAsking chatId operation prior retried delays : ChatTask κ))
    (hstop : operation = s.streamRequest → running s.streamRequest s.tasks = false)
    (hok : AnswerOk s (.stopAsking chatId operation prior retried delays) reply) :
    Inv (onStopAsking s chatId operation prior retried delays reply) := by
  unfold onStopAsking
  split
  next conversation =>
    split
    next =>
      apply refreshChats_inv
      split
      next hcurrent =>
        obtain ⟨hoperation, hchat⟩ := of_decide_eq_true hcurrent
        have hsome := hok hoperation (by rw [if_pos ‹_›]; exact hchat)
        have hactive := active_of_fits hfits (congrArg some hoperation) rfl hsome
        exact loaded_inv h ⟨chatId, conversation⟩ hactive _
      next => exact h
    next =>
      split
      next => split <;> exact h
      next =>
        exact await_next h hfits rfl rfl rfl rfl fun _ hcurrent =>
          hstop (Option.some.inj hcurrent)
  next => split <;> exact h
  next => exact h

theorem onCreate_inv (h : Inv s) (question : String) (reply : Reply σ κ) :
    Inv (onCreate s question reply) := by
  unfold onCreate
  split
  next chatId scope =>
    have hlist : Watched s.state.activeChatId s.state.draft s.detailRequest s.streamRequest
        (refreshChats s).tasks := refreshChats_inv h
    exact runStream_inv (s := refreshChats (activateCreatedChat s chatId scope)) hlist rfl
      question false
  next => exact h

theorem onConflict_inv (h : Inv s)
    (hok : ∀ chatId, s.stateRef.activeChatId = some chatId → s.state.activeChatId = some chatId) :
    Inv (onConflict s) := by
  unfold onConflict
  split
  next chatId hchat => exact reload_inv (refreshChats_inv h) (hok chatId hchat)
  next => exact refreshChats_inv h

/-- Every answer, and the task it answers does not wait any more. -/
theorem resume_inv (h : Inv s) {task : ChatTask κ}
    (hfits : Fits s.state.activeChatId s.detailRequest s.streamRequest task)
    (halone : ∀ request, task.request = some request →
      ∀ other ∈ s.tasks, other.request ≠ some request)
    (hstop : task.isStop = true → task.operation = some s.streamRequest →
      running s.streamRequest s.tasks = false) (hok : AnswerOk s task (task.heard reply)) :
    Inv (resume s task (task.heard reply)) := by
  cases task with
  | chats request =>
    show Inv (onChats s request _)
    unfold onChats
    split
    next => split <;> exact h
    next => split <;> exact h
    next => exact h
  | detail chatId phase request aborted =>
    refine onDetail_inv h hfits (halone request rfl) fun haborted => ?_
    rw [haborted]
    rfl
  | stream chatId operation aborted => exact onStream_inv h hfits _
  | reconcile chatId operation failure => exact onReconcile_inv h hfits hok
  | reconcileFailed chatId operation error failure =>
    exact onReconcileFailed_inv h chatId operation error failure
  | streamFailed chatId operation message => exact onStreamFailed_inv h chatId operation message
  | stopAsking chatId operation prior retried delays =>
    exact onStopAsking_inv h hfits (fun hcurrent => hstop rfl (congrArg some hcurrent)) hok
  | stopWaiting chatId operation prior retried delays =>
    show Inv (onStopWaiting s chatId operation prior retried delays)
    unfold onStopWaiting
    split
    next => exact await_next h hfits rfl rfl rfl rfl fun _ => hstop rfl
    next => exact h
  | create question => exact onCreate_inv h question _
  | rename chatId =>
    show Inv (onRename s chatId reply)
    unfold onRename
    split
    next =>
      split
      next hchat => exact reload_inv (refreshChats_inv h) (hok hchat).1
      next => exact refreshChats_inv h
    next =>
      split
      next hstatus => exact onConflict_inv h fun active hchat => (hok hstatus active hchat).1
      next => exact h
    next => exact h
  | remove chatId =>
    show Inv (onRemove s chatId reply)
    unfold onRemove
    split
    next => exact await_plain (refreshChats_inv h) _ rfl rfl rfl
    next =>
      split
      next hstatus => exact onConflict_inv h fun active hchat => (hok hstatus active hchat).1
      next => exact h
    next => exact h
  | removed chatId active =>
    show Inv (onRemoved s active)
    unfold onRemoved
    split
    next => exact chooseHome_inv h
    next => exact h
  | saveScope shown =>
    show Inv (onSaveScope s shown reply)
    unfold onSaveScope
    split
    next scope =>
      exact refreshChats_inv
        (loaded_inv h ⟨shown.chatId, { shown.rest with scope := scope }⟩ hok.1 _)
    next =>
      split
      next => exact await_plain h _ rfl rfl rfl
      next => exact h
    next => exact h
  | readScope chatId =>
    show Inv (onReadScope s chatId reply)
    unfold onReadScope
    split
    next conversation =>
      split
      next hchat => exact loaded_inv h ⟨chatId, conversation⟩ (hok hchat).1 _
      next => exact h
    next => exact h

/-- The task that goes on does not wait any more. -/
theorem AnswerOk.erase {task : ChatTask κ} (h : AnswerOk s task reply) (index : Nat) :
    AnswerOk { s with tasks := s.tasks.eraseIdx index } task reply := by
  have hrunning : running s.streamRequest s.tasks = false →
      running s.streamRequest (s.tasks.eraseIdx index) = false :=
    running_of_sublist (List.eraseIdx_sublist _ _)
  have hload : ∀ about chatId, LoadOk s about chatId →
      LoadOk { s with tasks := s.tasks.eraseIdx index } about chatId :=
    fun _ _ hok => ⟨hok.1, hok.2.imp_right fun hrest => ⟨hrunning hrest.1, hrest.2⟩⟩
  cases task with
  | detail chatId phase request aborted =>
    cases reply with
    | conversation conversation => exact fun hrequest hchat => hrunning (h hrequest hchat)
    | failed status message => exact fun hrequest hstatus => hrunning (h hrequest hstatus)
    | _ => exact h
  | create question =>
    cases reply with
    | created chatId scope => exact ⟨h.1, hrunning h.2⟩
    | _ => exact h
  | rename chatId =>
    cases reply with
    | done => exact fun hchat => hload chatId chatId (h hchat)
    | failed status message => exact fun hstatus active hchat => hload _ _ (h hstatus active hchat)
    | _ => exact h
  | remove chatId =>
    cases reply with
    | failed status message => exact fun hstatus active hchat => hload _ _ (h hstatus active hchat)
    | _ => exact h
  | removed chatId active =>
    exact fun hactive => (h hactive).imp_left fun hquiet => ⟨hquiet.1, hrunning hquiet.2⟩
  | saveScope shown =>
    cases reply with
    | scope scope => exact ⟨h.1, hrunning h.2⟩
    | _ => exact h
  | readScope chatId =>
    cases reply with
    | conversation conversation => exact fun hchat => ⟨(h hchat).1, hrunning (h hchat).2⟩
    | _ => exact h
  | _ => cases reply <;> exact h

/-- Two tasks at different places have different numbers. -/
theorem Watched.alone {active : Option ChatId} {draft : Option DraftTurn}
    {detailRequest streamRequest index : Nat} {tasks : List (ChatTask κ)} {task : ChatTask κ}
    (h : Watched active draft detailRequest streamRequest tasks) (hget : tasks[index]? = some task)
    {request : Nat} (hrequest : task.request = some request) :
    ∀ other ∈ tasks.eraseIdx index, other.request ≠ some request := by
  intro other hother hsame
  obtain ⟨place, hne, hplace⟩ := List.mem_eraseIdx_iff_getElem?.mp hother
  obtain ⟨hindexlt, hindex⟩ := List.getElem?_eq_some_iff.mp hget
  obtain ⟨hplacelt, hplace⟩ := List.getElem?_eq_some_iff.mp hplace
  have hdistinct := List.pairwise_iff_getElem.mp h.distinct
  rcases Nat.lt_or_gt_of_ne hne with hlt | hgt
  · refine hdistinct place index hplacelt hindexlt hlt request ?_ ?_
    · rw [hplace, hsame]
    · rw [hindex, hrequest]
  · refine hdistinct index place hindexlt hplacelt hgt request ?_ ?_
    · rw [hindex, hrequest]
    · rw [hplace, hsame]

theorem onAnswerAt_inv (h : Inv s) (index : Nat) (reply : Reply σ κ)
    (hok : ChatStepOk s (.answer index reply)) : Inv (onAnswerAt s index reply) := by
  unfold onAnswerAt
  split
  next task hget =>
    have hmem := List.mem_of_getElem? hget
    refine resume_inv (s := { s with tasks := s.tasks.eraseIdx index }) (Watched.erase h index)
      (h.fits task hmem) (fun _ => h.alone hget) ?_ ((hok task hget).erase index)
    exact fun hstop hcurrent =>
      running_of_sublist (List.eraseIdx_sublist _ _) (h.apart task hmem hstop hcurrent)
  next => exact h

theorem chatStep_inv (s : ChatHook σ κ) (a : ChatAct σ κ) (hok : ChatStepOk s a) (h : Inv s) :
    Inv (chatStep s a) := by
  cases a with
  | changeRoute initialChatId invalid => exact changeRoute_inv h initialChatId invalid
  | openChat chatId => exact openChat_inv h chatId
  | chooseHome => exact chooseHome_inv h
  | send question => exact send_inv h question hok
  | retry => exact retry_inv h hok
  | stop => exact stop_inv h hok
  | rename chatId =>
    show Inv (rename s chatId)
    unfold rename
    split
    next => exact h
    next => exact await_plain h _ rfl rfl rfl
  | remove chatId =>
    show Inv (remove s chatId)
    unfold remove
    split
    next => exact h
    next => exact await_plain h _ rfl rfl rfl
  | saveScope =>
    show Inv (saveScope s)
    unfold saveScope
    split
    next => exact h
    next =>
      split
      next => exact h
      next => exact await_plain h _ rfl rfl rfl
  | refreshRef => exact h
  | frame index frame =>
    show Inv (onFrameAt s index frame)
    unfold onFrameAt
    split
    next chatId operation _ => exact onFrame_inv h chatId operation frame
    next => exact h
  | answer index reply => exact onAnswerAt_inv h index reply hok

theorem mountChat_inv (initialChatId : Option ChatId) (invalid : Bool) :
    Inv (mountChat (σ := σ) (κ := κ) initialChatId invalid) := by
  have hempty : Watched (κ := κ) initialChatId none 0 0 [] :=
    ⟨fun _ => rfl, nofun, .nil, nofun⟩
  have hlist := refreshChats_inv (σ := σ) (s :=
    { state := initialChatWorkspaceState initialChatId invalid
      stateRef := initialChatWorkspaceState initialChatId invalid
      chatsRequest := 0
      detailRequest := 0
      streamRequest := 0
      detailRefreshing := false
      firstSendInFlight := false
      previousRoute := (initialChatId, invalid)
      tasks := [] }) hempty
  unfold mountChat
  split
  next => exact reload_inv hlist rfl
  next => exact hlist

end LocalRag.Workspace
