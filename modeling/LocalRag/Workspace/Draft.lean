import LocalRag.Core.Run
import LocalRag.Workspace.Reducer

/-!
# The draft holds what was streamed

Two machines read the answer stream: the automaton of `consumeChatSse`, which lets
a frame through or ends the stream, and the reducer, which folds the frames that
came through into the draft of the turn. The reducer alone would lose text: a
reasoning delta is kept only while the thinking entry is the last of the
activity. It loses none because of the orders the automaton allows, so the invariant is
about the pair.

`Streamed` says what the draft must be in terms of the frames received.

- `consume_ok`: what an accepted frame requires of the automaton and where it leaves it.
- `DraftInv`: the draft is as streamed; reasoning is on in both machines or in
  neither, and while it is on the thinking entry is the last one.
- `draft_streamed`: after every prefix of every accepted stream, with the
  conversation list loading whenever it likes, the draft is as streamed.
-/

namespace LocalRag.Workspace

open LocalRag.Core LocalRag.Stream

variable {σ δ : Type}

/-! ## What was received -/

def tokenText (frame : Frame) : Option String :=
  match frame.event with
  | .token text => some text
  | _ => none

def deltaText (frame : Frame) : Option String :=
  match frame.event with
  | .reasoningDelta text => some text
  | _ => none

def statusPhase (frame : Frame) : Option StatusPhase :=
  match frame.event with
  | .status phase => some phase
  | _ => none

def sourcesOf (frame : Frame) : Option (TurnId × List StreamSource) :=
  match frame.event with
  | .sources sources => some (frame.turnId, sources)
  | _ => none

/-- The frames after the last `answer_reset`. -/
def sinceReset (frames : List Frame) : List Frame :=
  (frames.reverse.takeWhile fun f => f.event ≠ .answerReset).reverse

def thinkingText : DraftActivityEntry → Option String
  | .thinking text => some text
  | .progress _ => none

def progressPhase : DraftActivityEntry → Option StatusPhase
  | .progress phase => some phase
  | .thinking _ => none

/-- The reasoning received. -/
def reasoningText (frames : List Frame) : String := String.join (frames.filterMap deltaText)

/-- The answer text received since the last reset. -/
def answerText (frames : List Frame) : String :=
  String.join ((sinceReset frames).filterMap tokenText)

/-- The draft holds what the frames carried: the answer text, the reasoning in a single
thinking entry, the phases in order, and the sources with their turn. -/
structure Streamed (frames : List Frame) (draft : DraftTurn) : Prop where
  text : draft.text = answerText frames
  thinking : draft.activity.filterMap thinkingText = [] ∧ frames.filterMap deltaText = [] ∨
    draft.activity.filterMap thinkingText = [reasoningText frames]
  progress : draft.activity.filterMap progressPhase = frames.filterMap statusPhase
  sources : frames.filterMap sourcesOf = [] ∧ draft.turnId = none ∧ draft.sources = [] ∨
    ∃ turnId sources, frames.filterMap sourcesOf = [(turnId, sources)] ∧
      draft.turnId = some turnId ∧ draft.sources = sources

theorem join_append (l : List String) (s : String) :
    String.join (l ++ [s]) = String.join l ++ s := by
  simp [String.join]

theorem sinceReset_append (frames : List Frame) (f : Frame) :
    sinceReset (frames ++ [f])
      = if f.event = .answerReset then [] else sinceReset frames ++ [f] := by
  unfold sinceReset
  rw [List.reverse_append, List.reverse_singleton, List.singleton_append, List.takeWhile_cons]
  by_cases hf : f.event = .answerReset
  · simp [hf]
  · simp [hf]

theorem answerText_append (frames : List Frame) (f : Frame) :
    answerText (frames ++ [f]) =
      if f.event = .answerReset then "" else answerText frames ++ (tokenText f).getD "" := by
  unfold answerText
  rw [sinceReset_append]
  by_cases hf : f.event = .answerReset
  · rw [if_pos hf, if_pos hf]
    rfl
  · rw [if_neg hf, if_neg hf, List.filterMap_append]
    cases htok : tokenText f with
    | none => simp [htok]
    | some t => simp [htok]

/-! ## One frame of the automaton -/

/-- What an accepted event asks of the client before and leaves after it. -/
def Accepts (client client' : Client) : Event → Prop
  | .status phase =>
    afterStatus client.protocolState phase = some client'.protocolState ∧
      client'.sources = client.sources
  | .sources sources =>
    client.sources = none ∧ client.protocolState = .expectSources ∧
      client'.sources = some sources ∧
      (client'.protocolState = .expectValidationStatus ∨
        client'.protocolState = .expectReasoningStatus)
  | .reasoningStart =>
    client.protocolState = .expectReasoningStart ∧ client'.protocolState = .reasoningActive ∧
      client'.sources = client.sources
  | .reasoningDelta _ =>
    client.protocolState = .reasoningActive ∧ client'.protocolState = .reasoningActive ∧
      client'.sources = client.sources
  | .reasoningEnd _ =>
    client.protocolState = .reasoningActive ∧ client'.protocolState = .expectAnswerStatus ∧
      client'.sources = client.sources
  | .answerReset =>
    client.protocolState = .repairing ∧ client'.protocolState = .repairAnswer ∧
      client'.sources = client.sources
  | .token _ =>
    (client.protocolState = .answer ∨ client.protocolState = .repairAnswer) ∧
      client'.protocolState = client.protocolState ∧ client'.sources = client.sources
  | .final _ =>
    client.protocolState = .validating ∧ client'.protocolState = client.protocolState ∧
      client'.sources = client.sources
  | .error _ _ => False

variable {expected : ExpectedChatStream}

/-- The envelope check moves nothing but the numbers. -/
theorem assertEnvelope_eq {client client' : Client} {frame : Frame}
    (h : assertEnvelope expected client frame = .ok client') :
    client'.protocolState = client.protocolState ∧ client'.sources = client.sources := by
  unfold assertEnvelope at h
  obtain ⟨-, h⟩ := ite_error_eq_ok.mp h
  obtain ⟨-, h⟩ := ite_error_eq_ok.mp h
  obtain ⟨-, h⟩ := ite_error_eq_ok.mp h
  obtain rfl := Except.ok.inj h
  exact ⟨rfl, rfl⟩

theorem withSources_ok {client client' : Client} {event : Event}
    {k : List StreamSource → Except StreamError Client}
    (h : withSources client event k = .ok client') : ∃ streamed, k streamed = .ok client' := by
  unfold withSources at h
  split at h
  next => exact absurd h (by simp)
  next streamed hs => exact ⟨streamed, (ite_error_eq_ok.mp h).2⟩

theorem consumeMarker_ok {client client' : Client} {frame : Frame} {required next : ProtocolState}
    {message : String}
    (h : consumeMarker expected client frame required next message = .ok client') :
    client.protocolState = required ∧ client'.protocolState = next ∧
      client'.sources = client.sources := by
  simp only [consumeMarker, guard_eq_ok, bind_eq_ok] at h
  obtain ⟨hstate, mid, hmid, h⟩ := h
  obtain rfl := Except.ok.inj h
  exact ⟨not_not.mp hstate, rfl, (assertEnvelope_eq hmid).2⟩

theorem consumeStatus_ok {client client' : Client} {frame : Frame} {phase : StatusPhase}
    (h : consumeStatus expected client frame phase = .ok client') :
    afterStatus client.protocolState phase = some client'.protocolState ∧
      client'.sources = client.sources := by
  simp only [consumeStatus, guard_eq_ok, bind_eq_ok] at h
  obtain ⟨mid, hmid, -, h⟩ := h
  split at h
  next state hafter =>
    obtain rfl := Except.ok.inj h
    exact ⟨hafter, (assertEnvelope_eq hmid).2⟩
  next => exact absurd h (by simp [throw, throwThe, MonadExceptOf.throw])

theorem consumeSources_ok {client client' : Client} {frame : Frame} {sources : List StreamSource}
    (h : consumeSources expected client frame sources = .ok client') :
    client.sources = none ∧ client.protocolState = .expectSources ∧
      client'.sources = some sources ∧
      (client'.protocolState = .expectValidationStatus ∨
        client'.protocolState = .expectReasoningStatus) := by
  simp only [consumeSources, guard_eq_ok, bind_eq_ok] at h
  obtain ⟨hnone, hstate, mid, -, -, -, h⟩ := h
  obtain rfl := Except.ok.inj h
  refine ⟨by simpa using hnone, not_not.mp hstate, rfl, ?_⟩
  by_cases hempty : sources = []
  · exact Or.inl (if_pos hempty)
  · exact Or.inr (if_neg hempty)

theorem consumeDelta_ok {client client' : Client} {frame : Frame} {text : String}
    (h : consumeDelta expected client frame text = .ok client') :
    client.protocolState = .reasoningActive ∧ client'.protocolState = .reasoningActive ∧
      client'.sources = client.sources := by
  simp only [consumeDelta, guard_eq_ok, bind_eq_ok] at h
  obtain ⟨hstate, mid, hmid, -, h⟩ := h
  obtain rfl := Except.ok.inj h
  obtain ⟨hkept, hsources⟩ := assertEnvelope_eq hmid
  exact ⟨not_not.mp hstate, hkept.trans (not_not.mp hstate), hsources⟩

theorem consumeToken_ok {client client' : Client} {frame : Frame}
    (h : consumeToken expected client frame = .ok client') :
    (client.protocolState = .answer ∨ client.protocolState = .repairAnswer) ∧
      client'.protocolState = client.protocolState ∧ client'.sources = client.sources := by
  simp only [consumeToken, guard_eq_ok] at h
  obtain ⟨hstate, h⟩ := h
  exact ⟨by tauto, assertEnvelope_eq h⟩

theorem consumeFinal_ok {client client' : Client} {frame : Frame} {streamed : List StreamSource}
    {event : FinalEvent} (h : consumeFinal expected client frame streamed event = .ok client') :
    client.protocolState = .validating ∧ client'.protocolState = client.protocolState ∧
      client'.sources = client.sources := by
  simp only [consumeFinal, guard_eq_ok, bind_eq_ok] at h
  obtain ⟨hstate, mid, hmid, -, -, h⟩ := h
  obtain rfl := Except.ok.inj h
  obtain ⟨hkept, hsources⟩ := assertEnvelope_eq hmid
  exact ⟨not_not.mp hstate, hkept, hsources⟩

/-- One accepted frame. -/
theorem consume_ok {client client' : Client} {frame : Frame}
    (h : consume expected client frame = .ok client') : Accepts client client' frame.event := by
  unfold consume at h
  obtain ⟨-, h⟩ := ite_error_eq_ok.mp h
  cases hevent : frame.event with
  | status phase =>
    rw [hevent] at h
    exact consumeStatus_ok h
  | sources sources =>
    rw [hevent] at h
    exact consumeSources_ok (ite_error_eq_ok.mp h).2
  | reasoningStart =>
    rw [hevent] at h
    obtain ⟨-, h⟩ := withSources_ok h
    exact consumeMarker_ok h
  | reasoningDelta text =>
    rw [hevent] at h
    obtain ⟨-, h⟩ := withSources_ok h
    exact consumeDelta_ok h
  | reasoningEnd truncated =>
    rw [hevent] at h
    obtain ⟨-, h⟩ := withSources_ok h
    exact consumeMarker_ok h
  | answerReset =>
    rw [hevent] at h
    obtain ⟨-, h⟩ := withSources_ok h
    exact consumeMarker_ok h
  | token text =>
    rw [hevent] at h
    obtain ⟨-, h⟩ := withSources_ok h
    exact consumeToken_ok h
  | final event =>
    rw [hevent] at h
    obtain ⟨streamed, h⟩ := withSources_ok h
    exact consumeFinal_ok h
  | error code message =>
    rw [hevent] at h
    obtain ⟨-, -, h⟩ := bind_eq_ok.mp (ite_error_eq_ok.mp h).2
    exact absurd h (by simp [throw, throwThe, MonadExceptOf.throw])

/-! ## Both machines -/

/-- The actions of the conversation list, which come whenever they like. -/
inductive ChatsAction (σ : Type) where
  | loading
  | loaded (chats : List σ)
  | failed (message : String)

def ChatsAction.action : ChatsAction σ → ChatWorkspaceAction σ δ
  | .loading => .chatsLoading
  | .loaded chats => .chatsLoaded chats
  | .failed message => .chatsFailed message

/-- What happens next: a frame arrives, or the list moves. -/
inductive Move (σ : Type) where
  | frame (frame : Frame)
  | chats (action : ChatsAction σ)

/-- The automaton takes the frame and its handler dispatches. -/
def move (expected : ExpectedChatStream) (s : Client × ChatWorkspaceState σ δ) :
    Move σ → Except StreamError (Client × ChatWorkspaceState σ δ)
  | .frame frame =>
    (consume expected s.1 frame).map fun client =>
      (client, ((handlerAction frame).map (chatWorkspaceReducer s.2)).getD s.2)
  | .chats action => .ok (s.1, chatWorkspaceReducer s.2 action.action)

def runMoves (expected : ExpectedChatStream) (s : Client × ChatWorkspaceState σ δ)
    (moves : List (Move σ)) : Except StreamError (Client × ChatWorkspaceState σ δ) :=
  moves.foldlM (move expected) s

/-- A turn is started: the client before its first frame, the state after
`start`. -/
def started (expected : ExpectedChatStream) (state : ChatWorkspaceState σ δ)
    (question : String) (retry : Bool) : Client × ChatWorkspaceState σ δ :=
  (expected.start, chatWorkspaceReducer state (.start question retry))

def framesOf (moves : List (Move σ)) : List Frame :=
  moves.filterMap fun m => match m with
    | .frame frame => some frame
    | .chats _ => none

/-- The states before reasoning has started. -/
def ProtocolState.early (s : ProtocolState) : Bool :=
  s ∈ [.expectRetrieving, .expectReranking, .expectPreparingAnswer, .expectSources,
    .expectReasoningStatus, .expectReasoningStart]

/-- What holds of the two machines and the frames received. -/
structure DraftInv (client : Client) (draft : DraftTurn) (frames : List Frame) : Prop where
  streamed : Streamed frames draft
  active : draft.reasoningActive = true ↔ client.protocolState = .reasoningActive
  last : client.protocolState = .reasoningActive → ∃ earlier,
    draft.activity = earlier ++ [.thinking (reasoningText frames)] ∧
      earlier.filterMap thinkingText = []
  early : ProtocolState.early client.protocolState = true →
    draft.activity.filterMap thinkingText = [] ∧ frames.filterMap deltaText = []
  unsourced : client.sources = none →
    frames.filterMap sourcesOf = [] ∧ draft.turnId = none ∧ draft.sources = []

theorem draftInv_start (expected : ExpectedChatStream) (question : String) (retry : Bool) :
    DraftInv expected.start (startDraft question retry) [] where
  streamed :=
    { text := rfl
      thinking := Or.inl ⟨rfl, rfl⟩
      progress := rfl
      sources := Or.inl ⟨rfl, rfl, rfl⟩ }
  active := by simp [startDraft, ExpectedChatStream.start]
  last := by simp [ExpectedChatStream.start]
  early _ := ⟨rfl, rfl⟩
  unsourced _ := ⟨rfl, rfl, rfl⟩

/-- What the handler's action makes of the draft. -/
def draftAfter (draft : DraftTurn) (frame : Frame) : DraftTurn :=
  match frame.event with
  | .status phase => { draft with activity := draft.activity ++ [.progress phase] }
  | .sources sources => { draft with turnId := some frame.turnId, sources := sources }
  | .reasoningStart =>
    if draft.reasoningActive then draft
    else { draft with activity := draft.activity ++ [.thinking ""], reasoningActive := true }
  | .reasoningDelta text =>
    if ¬ draft.reasoningActive then draft
    else { draft with activity := appendThinking text draft.activity }
  | .reasoningEnd truncated =>
    if ¬ draft.reasoningActive then draft
    else { draft with
      reasoningActive := false, reasoningComplete := true, reasoningTruncated := truncated }
  | .answerReset => { draft with text := "" }
  | .token text => { draft with text := draft.text ++ text }
  | .final event => { draft with final := some event }
  | .error _ _ => draft

theorem dispatch_draft {state : ChatWorkspaceState σ δ} {draft : DraftTurn}
    (hd : state.draft = some draft) (frame : Frame) :
    (((handlerAction frame).map (chatWorkspaceReducer state)).getD state).draft
      = some (draftAfter draft frame) := by
  unfold handlerAction draftAfter
  cases frame.event with
  | reasoningStart =>
    show (onDraft state _).draft = _
    unfold onDraft
    rw [hd]
    by_cases hactive : draft.reasoningActive = true
    · simp [hactive, hd]
    · simp [hactive]
  | reasoningDelta text =>
    show (onDraft state _).draft = _
    unfold onDraft
    rw [hd]
    by_cases hactive : draft.reasoningActive = true
    · simp [hactive]
    · simp [hactive, hd]
  | reasoningEnd truncated =>
    show (onDraft state _).draft = _
    unfold onDraft
    rw [hd]
    by_cases hactive : draft.reasoningActive = true
    · simp [hactive]
    · simp [hactive, hd]
  | error code message => exact hd
  | _ =>
    show (onDraft state _).draft = _
    unfold onDraft
    rw [hd]

/-- The conversation list has no part in the draft. -/
theorem chats_draft (state : ChatWorkspaceState σ δ) (action : ChatsAction σ) :
    (chatWorkspaceReducer state action.action).draft = state.draft := by
  cases action <;> rfl

/-! ## One frame -/

section Step

variable {client client' : Client} {draft : DraftTurn} {frames : List Frame} {frame : Frame}

/-- No status starts reasoning or comes during it, and none leads back to before it. -/
theorem afterStatus_early {s s' : ProtocolState} {phase : StatusPhase}
    (h : afterStatus s phase = some s') :
    s ≠ .reasoningActive ∧ s' ≠ .reasoningActive ∧
      (ProtocolState.early s' = true → ProtocolState.early s = true) := by
  cases s with
  | answer =>
    simp only [afterStatus] at h
    by_cases hp : phase = .continuingAnswer
    · rw [if_pos hp] at h
      obtain rfl := Option.some.inj h
      decide
    · rw [if_neg hp] at h
      obtain rfl := Option.some.inj h
      decide
  | _ =>
    simp only [afterStatus, Option.some.injEq, reduceCtorEq] at h
    try (subst h; decide)

/-- A frame outside the reasoning: what it adds to the activity is what it says of
the phase, and the text and the sources are checked apart. -/
theorem draftInv_quiet {draft' : DraftTurn} (h : DraftInv client draft frames)
    (hdelta : deltaText frame = none) (hstate : client.protocolState ≠ .reasoningActive)
    (hstate' : client'.protocolState ≠ .reasoningActive)
    (hearly : ProtocolState.early client'.protocolState = true →
      ProtocolState.early client.protocolState = true)
    (hactive : draft'.reasoningActive = draft.reasoningActive)
    (hactivity : draft'.activity
      = draft.activity ++ (statusPhase frame).toList.map DraftActivityEntry.progress)
    (htext : draft'.text = answerText (frames ++ [frame]))
    (hsources : (frames ++ [frame]).filterMap sourcesOf = [] ∧ draft'.turnId = none ∧
        draft'.sources = [] ∨
      ∃ turnId sources, (frames ++ [frame]).filterMap sourcesOf = [(turnId, sources)] ∧
        draft'.turnId = some turnId ∧ draft'.sources = sources)
    (hunsourced : client'.sources = none → (frames ++ [frame]).filterMap sourcesOf = [] ∧
      draft'.turnId = none ∧ draft'.sources = []) :
    DraftInv client' draft' (frames ++ [frame]) := by
  have hthinking : draft'.activity.filterMap thinkingText
      = draft.activity.filterMap thinkingText := by
    rw [hactivity]
    cases statusPhase frame <;> simp [thinkingText]
  have hdeltas : (frames ++ [frame]).filterMap deltaText = frames.filterMap deltaText := by
    simp [hdelta]
  constructor
  · constructor
    · exact htext
    · unfold reasoningText
      rw [hthinking, hdeltas]
      exact h.streamed.thinking
    · rw [hactivity, List.filterMap_append, h.streamed.progress]
      cases hphase : statusPhase frame <;> simp [progressPhase, hphase]
    · exact hsources
  · rw [hactive, h.active]
    exact iff_of_false hstate hstate'
  · intro hactive'
    exact absurd hactive' hstate'
  · intro hearly'
    rw [hthinking, hdeltas]
    exact h.early (hearly hearly')
  · exact hunsourced

/-- The text of a frame that is neither a token nor a reset. -/
theorem answerText_other (h : DraftInv client draft frames) (hreset : frame.event ≠ .answerReset)
    (htoken : tokenText frame = none) : draft.text = answerText (frames ++ [frame]) := by
  rw [answerText_append, if_neg hreset, htoken, h.streamed.text]
  exact (String.append_empty).symm

/-- A frame that is no sources event leaves the sources received as they were. -/
theorem sourced_other (frames : List Frame) (hs : sourcesOf frame = none) :
    (frames ++ [frame]).filterMap sourcesOf = frames.filterMap sourcesOf := by
  simp [hs]

theorem draftInv_step (h : DraftInv client draft frames)
    (hok : Accepts client client' frame.event) :
    DraftInv client' (draftAfter draft frame) (frames ++ [frame]) := by
  cases he : frame.event with
  | status phase =>
    rw [he] at hok
    obtain ⟨hafter, hkept⟩ := hok
    obtain ⟨hne, hne', hearly⟩ := afterStatus_early hafter
    have htext := @answerText_other client draft frames frame h (by simp [he]) (by simp [tokenText, he])
    have hsame := @sourced_other frame frames (by simp [sourcesOf, he])
    have hdraft : draftAfter draft frame
        = { draft with activity := draft.activity ++ [.progress phase] } := by
      simp [draftAfter, he]
    rw [hdraft]
    refine draftInv_quiet h (by simp [deltaText, he]) hne hne' hearly rfl
      (by simp [statusPhase, he]) htext
      ?_ ?_
    · rw [hsame]
      exact h.streamed.sources
    · rw [hsame, hkept]
      exact h.unsourced
  | sources sources =>
    rw [he] at hok
    obtain ⟨hnone, hstate, hsome, hnext⟩ := hok
    have htext := @answerText_other client draft frames frame h (by simp [he]) (by simp [tokenText, he])
    have hdraft : draftAfter draft frame
        = { draft with turnId := some frame.turnId, sources := sources } := by
      simp [draftAfter, he]
    have hfirst := (h.unsourced hnone).1
    rw [hdraft]
    refine draftInv_quiet h (by simp [deltaText, he]) (by simp [hstate]) ?_ ?_ rfl
      (by simp [statusPhase, he]) htext
      (Or.inr ⟨frame.turnId, sources, ?_, rfl, rfl⟩) (by simp [hsome])
    · rcases hnext with hnext | hnext <;> simp [hnext]
    · intro _
      rw [hstate]
      decide
    · simp [hfirst, sourcesOf, he]
  | reasoningStart =>
    rw [he] at hok
    obtain ⟨hstate, hstate', hkept⟩ := hok
    have htext := @answerText_other client draft frames frame h (by simp [he]) (by simp [tokenText, he])
    -- the first of its kind: there is no thinking entry yet and no delta came
    obtain ⟨hthinking, hdeltas⟩ := h.early (by rw [hstate]; decide)
    have hinactive : draft.reasoningActive = false := by
      have hiff := h.active
      rw [hstate] at hiff
      simpa using hiff
    have hdraft : draftAfter draft frame = { draft with
        activity := draft.activity ++ [.thinking ""], reasoningActive := true } := by
      simp [draftAfter, he, hinactive]
    have hnew : (frames ++ [frame]).filterMap deltaText = [] := by
      simp [hdeltas, deltaText, he]
    have hempty : reasoningText (frames ++ [frame]) = "" := by
      unfold reasoningText
      rw [hnew]
      rfl
    have hsame := @sourced_other frame frames (by simp [sourcesOf, he])
    rw [hdraft]
    constructor
    · constructor
      · exact htext
      · refine Or.inr ?_
        simp [hthinking, hempty, thinkingText]
      · simp [h.streamed.progress, progressPhase, statusPhase, he]
      · rw [hsame]
        exact h.streamed.sources
    · simp [hstate']
    · intro _
      exact ⟨draft.activity, by rw [hempty], hthinking⟩
    · intro hearly
      rw [hstate'] at hearly
      exact absurd hearly (by decide)
    · rw [hsame, hkept]
      exact h.unsourced
  | reasoningDelta text =>
    rw [he] at hok
    obtain ⟨hstate, hstate', hkept⟩ := hok
    have htext := @answerText_other client draft frames frame h (by simp [he]) (by simp [tokenText, he])
    obtain ⟨earlier, hlast, hearlier⟩ := h.last hstate
    have hdraft : draftAfter draft frame = { draft with
        activity := earlier ++ [.thinking (reasoningText (frames ++ [frame]))] } := by
      have hjoin : reasoningText (frames ++ [frame]) = reasoningText frames ++ text := by
        unfold reasoningText
        rw [List.filterMap_append]
        simp [deltaText, he]
      rw [hjoin, ← appendThinking_last, ← hlast]
      simp [draftAfter, he, h.active.mpr hstate]
    have hsame := @sourced_other frame frames (by simp [sourcesOf, he])
    rw [hdraft]
    constructor
    · constructor
      · exact htext
      · refine Or.inr ?_
        simp [hearlier, thinkingText]
      · have hprogress := h.streamed.progress
        rw [hlast] at hprogress
        simpa [List.filterMap_cons, progressPhase, statusPhase, he] using hprogress
      · rw [hsame]
        exact h.streamed.sources
    · simp [hstate', h.active.mpr hstate]
    · intro _
      exact ⟨earlier, rfl, hearlier⟩
    · intro hearly
      rw [hstate'] at hearly
      exact absurd hearly (by decide)
    · rw [hsame, hkept]
      exact h.unsourced
  | reasoningEnd truncated =>
    rw [he] at hok
    obtain ⟨hstate, hstate', hkept⟩ := hok
    have htext := @answerText_other client draft frames frame h (by simp [he]) (by simp [tokenText, he])
    obtain ⟨earlier, hlast, hearlier⟩ := h.last hstate
    have hdraft : draftAfter draft frame = { draft with
        reasoningActive := false, reasoningComplete := true,
        reasoningTruncated := truncated } := by
      simp [draftAfter, he, h.active.mpr hstate]
    have hnew : reasoningText (frames ++ [frame]) = reasoningText frames := by
      simp [reasoningText, deltaText, he]
    have hsame := @sourced_other frame frames (by simp [sourcesOf, he])
    rw [hdraft]
    constructor
    · constructor
      · exact htext
      · refine Or.inr ?_
        rw [hnew]
        simp [hlast, hearlier, thinkingText]
      · simpa [statusPhase, he] using h.streamed.progress
      · rw [hsame]
        exact h.streamed.sources
    · simp [hstate']
    · intro hactive
      rw [hstate'] at hactive
      exact absurd hactive (by decide)
    · intro hearly
      rw [hstate'] at hearly
      exact absurd hearly (by decide)
    · rw [hsame, hkept]
      exact h.unsourced
  | answerReset =>
    rw [he] at hok
    obtain ⟨hstate, hstate', hkept⟩ := hok
    have hsame := @sourced_other frame frames (by simp [sourcesOf, he])
    have hdraft : draftAfter draft frame = { draft with text := "" } := by
      simp [draftAfter, he]
    rw [hdraft]
    refine draftInv_quiet h (by simp [deltaText, he]) (by simp [hstate]) (by simp [hstate']) ?_ rfl
      (by simp [statusPhase, he]) ?_ ?_ ?_
    · intro hearly
      rw [hstate'] at hearly
      exact absurd hearly (by decide)
    · rw [answerText_append, if_pos he]
    · rw [hsame]
      exact h.streamed.sources
    · rw [hsame, hkept]
      exact h.unsourced
  | token text =>
    rw [he] at hok
    obtain ⟨hstate, hsame', hkept⟩ := hok
    have hsame := @sourced_other frame frames (by simp [sourcesOf, he])
    have hne : client.protocolState ≠ .reasoningActive := by
      rcases hstate with hstate | hstate <;> simp [hstate]
    have hdraft : draftAfter draft frame = { draft with text := draft.text ++ text } := by
      simp [draftAfter, he]
    rw [hdraft]
    refine draftInv_quiet h (by simp [deltaText, he]) hne (by rwa [hsame']) (by rw [hsame']; exact id)
      rfl (by simp [statusPhase, he]) ?_ ?_ ?_
    · rw [answerText_append, if_neg (by simp [he]), ← h.streamed.text]
      simp [tokenText, he]
    · rw [hsame]
      exact h.streamed.sources
    · rw [hsame, hkept]
      exact h.unsourced
  | final event =>
    rw [he] at hok
    obtain ⟨hstate, hsame', hkept⟩ := hok
    have htext := @answerText_other client draft frames frame h (by simp [he]) (by simp [tokenText, he])
    have hsame := @sourced_other frame frames (by simp [sourcesOf, he])
    have hdraft : draftAfter draft frame = { draft with final := some event } := by
      simp [draftAfter, he]
    rw [hdraft]
    refine draftInv_quiet h (by simp [deltaText, he]) (by simp [hstate]) (by simp [hsame', hstate])
      (by rw [hsame']; exact id) rfl (by simp [statusPhase, he])
      htext ?_ ?_
    · rw [hsame]
      exact h.streamed.sources
    · rw [hsame, hkept]
      exact h.unsourced
  | error code message =>
    rw [he] at hok
    exact hok.elim

end Step

/-! ## Runs -/

/-- What holds of a state: there is a draft, and the invariant holds of it. -/
def Holds (frames : List Frame) (s : Client × ChatWorkspaceState σ δ) : Prop :=
  ∃ draft, s.2.draft = some draft ∧ DraftInv s.1 draft frames

theorem move_holds {s s' : Client × ChatWorkspaceState σ δ} {frames : List Frame} (m : Move σ)
    (h : Holds frames s) (hm : move expected s m = .ok s') : Holds (frames ++ framesOf [m]) s' := by
  obtain ⟨draft, hd, hinv⟩ := h
  cases m with
  | frame frame =>
    unfold move at hm
    cases hc : consume expected s.1 frame with
    | error e =>
      simp only [hc, Except.map] at hm
      exact absurd hm (by simp)
    | ok client =>
      simp only [hc, Except.map] at hm
      obtain rfl := Except.ok.inj hm
      exact ⟨draftAfter draft frame, dispatch_draft hd frame, draftInv_step hinv (consume_ok hc)⟩
  | chats action =>
    obtain rfl := Except.ok.inj hm
    refine ⟨draft, (chats_draft s.2 action).trans hd, ?_⟩
    show DraftInv s.1 draft (frames ++ [])
    rw [List.append_nil]
    exact hinv

theorem runMoves_holds {s s' : Client × ChatWorkspaceState σ δ} {frames : List Frame}
    (moves : List (Move σ)) (h : Holds frames s) (hrun : runMoves expected s moves = .ok s') :
    Holds (frames ++ framesOf moves) s' := by
  induction moves generalizing s frames with
  | nil =>
    obtain rfl := Except.ok.inj hrun
    show Holds (frames ++ []) s
    rw [List.append_nil]
    exact h
  | cons m moves ih =>
    unfold runMoves at hrun
    rw [List.foldlM_cons] at hrun
    obtain ⟨mid, hmid, hrest⟩ := bind_eq_ok.mp hrun
    have hnext := ih (move_holds m h hmid) hrest
    have hframes : framesOf (m :: moves) = framesOf [m] ++ framesOf moves :=
      @List.filterMap_append _ _ [m] moves _
    rw [hframes, ← List.append_assoc]
    exact hnext

/-- After every prefix of an accepted stream the draft holds what was streamed. -/
theorem draft_streamed {expected : ExpectedChatStream} {state : ChatWorkspaceState σ δ}
    {question : String} {retry : Bool} {moves : List (Move σ)}
    {s : Client × ChatWorkspaceState σ δ}
    (hrun : runMoves expected (started expected state question retry) moves = .ok s)
    {before : List (Move σ)} (hbefore : before <+: moves) :
    ∃ client state' draft,
      runMoves expected (started expected state question retry) before = .ok (client, state') ∧
        state'.draft = some draft ∧ Streamed (framesOf before) draft := by
  obtain ⟨after, rfl⟩ := hbefore
  unfold runMoves at hrun
  rw [List.foldlM_append] at hrun
  obtain ⟨mid, hmid, -⟩ := bind_eq_ok.mp hrun
  have hstart : Holds [] (started expected state question retry) :=
    ⟨startDraft question retry, rfl, draftInv_start expected question retry⟩
  obtain ⟨draft, hd, hinv⟩ := runMoves_holds before hstart hmid
  exact ⟨mid.1, mid.2, draft, hmid, hd, hinv.streamed⟩

/-- The start of a turn without sources, the conversation list loading meanwhile. -/
def sampleMoves : List (Move Unit) :=
  [.frame ⟨1, 7, 1, .status .retrieving⟩, .chats .loading,
    .frame ⟨1, 7, 2, .status .reranking⟩, .frame ⟨1, 7, 3, .status .preparingAnswer⟩,
    .frame ⟨1, 7, 4, .sources []⟩, .chats (.loaded [()])]

def sampleState : ChatWorkspaceState Unit Unit where
  phase := .ready
  chats := []
  chatsLoading := false
  chatsError := none
  detailRefreshing := false
  activeChatId := some 1
  detail := none
  draft := none
  error := none
  routeNotice := none

theorem draft_streamed_sample :
    ∃ client state' draft,
      runMoves ⟨1, none⟩ (started ⟨1, none⟩ sampleState "why" false) (sampleMoves.take 5)
          = .ok (client, state') ∧
        state'.draft = some draft ∧ Streamed (framesOf (sampleMoves.take 5)) draft :=
  @draft_streamed Unit Unit _ _ _ _ sampleMoves _ rfl _ (List.take_prefix 5 sampleMoves)

end LocalRag.Workspace
