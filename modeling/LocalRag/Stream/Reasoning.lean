import LocalRag.Stream.Sequence

/-!
# Reasoning — the first 20000 characters of what the model thinks

`ChatService.stream` of `app/services/chats.py` shows what a fresh turn's first generation thinks
up to `MAX_VISIBLE_REASONING_CODEPOINTS`, chunk by chunk, and says at the end of the reasoning
whether there was more. `Thinking` is the state of its counters after some text: what was
shown is the beginning of it, and the flag says whether it is longer. An answer chunk or a
length stop ends the reasoning; from there no event shows any (`Calm`), so what holds then holds of
the whole response (`reasoning_shown`).
-/

namespace LocalRag.Stream

open LocalRag.Core

/-! ## What a response shows -/

/-- The texts of the `reasoning_delta` events. -/
def shownReasoning (frames : List Frame) : List String :=
  frames.filterMap fun f =>
    match f.event with
    | .reasoningDelta text => some text
    | _ => none

/-- The flags of the `reasoning_end` events. -/
def endedReasoning (frames : List Frame) : List Bool :=
  frames.filterMap fun f =>
    match f.event with
    | .reasoningEnd truncated => some truncated
    | _ => none

/-- The thinking chunks before any other chunk. -/
def thoughts : List GenerationChunk → List String
  | .thinking text :: rest => text.1 :: thoughts rest
  | _ => []

/-- What comes after them is an answer chunk or a length stop. -/
def endsReasoning : List GenerationChunk → Bool
  | .thinking _ :: rest => endsReasoning rest
  | .answer _ :: _ => true
  | .done .length usage :: _ => (validateGenerationUsage usage).isOk
  | _ => false

/-- What is shown of a text. -/
structure Shows (text : String) (shown : List String) : Prop where
  join : String.join shown = firstChars maxReasoningCodePoints text
  nonempty : ∀ part ∈ shown, part ≠ ""

/-- The texts and flags of a response. -/
structure Over (text : String) (ended : List Bool) (r : Response) : Prop where
  shows : Shows text (shownReasoning r.frames)
  ended : endedReasoning r.frames = ended

/-- The counters after some text, before the answer. -/
structure Thinking (text : String) (st : Answering) (r : Response) : Prop where
  sofar : Over text [] r
  visible : st.visibleReasoning = (firstChars maxReasoningCodePoints text).length
  truncated : st.reasoningTruncated = decide (maxReasoningCodePoints < text.length)
  fresh : st.answerStarted = false

section Frames

variable {chatId : ChatId} {turnId : TurnId}

theorem shownReasoning_numbered (e : Event) (r : Response) :
    shownReasoning (numbered chatId turnId e r).frames
      = shownReasoning r.frames ++ (match e with | .reasoningDelta text => [text] | _ => []) := by
  unfold numbered shownReasoning
  rw [List.filterMap_append]
  cases e <;> rfl

theorem endedReasoning_numbered (e : Event) (r : Response) :
    endedReasoning (numbered chatId turnId e r).frames
      = endedReasoning r.frames ++ (match e with | .reasoningEnd truncated => [truncated] | _ => []) := by
  unfold numbered endedReasoning
  rw [List.filterMap_append]
  cases e <;> rfl

theorem numbered_calm {e : Event} (he : e.reasons = false) (r : Response) :
    shownReasoning (numbered chatId turnId e r).frames = shownReasoning r.frames ∧
      endedReasoning (numbered chatId turnId e r).frames = endedReasoning r.frames := by
  rw [shownReasoning_numbered, endedReasoning_numbered]
  cases e with
  | reasoningDelta text => exact absurd he (by simp [Event.reasons])
  | reasoningEnd truncated => exact absurd he (by simp [Event.reasons])
  | _ => exact ⟨List.append_nil _, List.append_nil _⟩

end Frames

/-! ## Characters -/

theorem toList_firstChars (n : Nat) (text : String) : (firstChars n text).toList = text.toList.take n :=
  String.toList_ofList

theorem firstChars_append (n : Nat) (s t : String) :
    firstChars n (s ++ t) = firstChars n s ++ firstChars (n - s.length) t := by
  refine String.toList_inj.mp ?_
  rw [toList_firstChars, String.toList_append, String.toList_append, List.take_append,
    toList_firstChars, toList_firstChars, String.length_toList]

theorem length_firstChars (n : Nat) (text : String) :
    (firstChars n text).length = min n text.length := by
  rw [← String.length_toList, toList_firstChars, List.length_take, String.length_toList]

/-- What is left of the visible reasoning after some text. -/
theorem remaining_eq (text : String) :
    maxReasoningCodePoints - (firstChars maxReasoningCodePoints text).length
      = maxReasoningCodePoints - text.length := by
  rw [length_firstChars]
  omega

theorem Shows.append {text : String} {shown : List String} (h : Shows text shown)
    (more : String) :
    Shows (text ++ more) (shown ++
      if firstChars (maxReasoningCodePoints - text.length) more ≠ "" then
        [firstChars (maxReasoningCodePoints - text.length) more] else []) := by
  refine ⟨?_, fun part hpart => ?_⟩
  · rw [String.join_append, h.join, firstChars_append]
    refine congrArg _ ?_
    split
    · rw [String.join_cons, String.join_nil, String.append_empty]
    next hempty => rw [String.join_nil, not_not.mp hempty]
  · cases List.mem_append.mp hpart with
    | inl hold => exact h.nonempty part hold
    | inr hnew =>
      split at hnew
      next hne =>
        rw [List.mem_singleton.mp hnew]
        exact hne
      next => exact absurd hnew List.not_mem_nil

/-! ## While the model thinks -/

section Service

variable {prepared : PreparedChatTurn} {cb : Callbacks}

theorem calm_over (prepared : PreparedChatTurn) (text : String) (ended : List Bool) :
    Calm prepared (Over text ended) where
  event e he r h := by
    obtain ⟨hshown, hended⟩ := numbered_calm he r
    exact ⟨by rw [hshown]; exact h.shows, hended.trans h.ended⟩
  draft _ _ _ h := ⟨h.shows, h.ended⟩

theorem calm_thinking (prepared : PreparedChatTurn) (text : String) (st : Answering) :
    Calm prepared (Thinking text st) where
  event e he r h := ⟨(calm_over prepared text []).event e he r h.sofar, h.visible, h.truncated, h.fresh⟩
  draft status raised r h :=
    ⟨(calm_over prepared text []).draft status raised r h.sofar, h.visible, h.truncated, h.fresh⟩

/-- One chunk: what is left is shown, and the flag is set if that was not all. -/
theorem showReasoning_thinking {R : Raised → Response → Prop} (text more : String)
    (st : Answering) :
    Spec (Thinking text st) (showReasoning prepared more st)
      (fun st' => Thinking (text ++ more) st') R := by
  have hlength : (firstChars maxReasoningCodePoints (text ++ more)).length
      = (firstChars maxReasoningCodePoints text).length +
        (firstChars (maxReasoningCodePoints - text.length) more).length := by
    rw [firstChars_append, String.length_append]
  unfold showReasoning
  refine Spec.bind (M := fun _ r => Over (text ++ more) [] r ∧
    st.visibleReasoning = (firstChars maxReasoningCodePoints text).length ∧
    st.reasoningTruncated = decide (maxReasoningCodePoints < text.length) ∧
    st.answerStarted = false) ?_ fun _ => ?_
  · refine Spec.when (fun hshow => Spec.update fun r h => ?_) fun hempty r h => ?_
    · have hshown := h.sofar.shows.append more
      rw [h.visible, remaining_eq] at hshow ⊢
      rw [if_pos hshow] at hshown
      refine ⟨⟨?_, ?_⟩, rfl, h.truncated, h.fresh⟩
      · rw [shownReasoning_numbered]
        exact hshown
      · rw [endedReasoning_numbered, h.sofar.ended]
        rfl
    · have hshown := h.sofar.shows.append more
      rw [h.visible, remaining_eq] at hempty
      rw [if_neg hempty, List.append_nil] at hshown
      exact ⟨⟨hshown, h.sofar.ended⟩, h.visible, h.truncated, h.fresh⟩
  · refine Spec.pure fun r h => ?_
    obtain ⟨hover, hvisible, htruncated, hfresh⟩ := h
    refine ⟨hover, ?_, ?_, hfresh⟩
    · show st.visibleReasoning + _ = _
      rw [hvisible, remaining_eq, hlength]
    · -- the flag is set by the chunk that passes the limit, or was set before
      show (st.reasoningTruncated || decide (maxReasoningCodePoints - st.visibleReasoning < more.length)) = _
      rw [hvisible, remaining_eq, htruncated, String.length_append]
      by_cases hlong : maxReasoningCodePoints < text.length
      · rw [decide_eq_true hlong, Bool.true_or, decide_eq_true (by omega)]
      · rw [decide_eq_false hlong, Bool.false_or]
        refine decide_eq_decide.mpr ?_
        omega

/-- The reasoning ends with its flag. -/
theorem startAnswer_thinking {R : Raised → Response → Prop} (text : String) (st : Answering) :
    Spec (Thinking text st) (startAnswer prepared st)
      (fun st' r => Over text [decide (maxReasoningCodePoints < text.length)] r ∧
        st'.answerStarted = true) R := by
  unfold startAnswer
  refine Spec.choose fun r h => ⟨Thinking text st, h, ?_⟩
  rw [if_neg (by rw [h.fresh]; simp)]
  refine Spec.bind (M := fun _ => Over text [decide (maxReasoningCodePoints < text.length)])
    (Spec.update fun r h => ?_) fun _ => ?_
  · refine ⟨?_, ?_⟩
    · rw [shownReasoning_numbered]
      exact (List.append_nil (shownReasoning r.frames)).symm ▸ h.sofar.shows
    · rw [endedReasoning_numbered, h.sofar.ended, h.truncated]
      rfl
  · refine Spec.bind (M := fun _ => Over text [decide (maxReasoningCodePoints < text.length)])
      (Spec.update fun r h => (calm_over prepared _ _).event _ rfl r h) fun _ => ?_
    exact Spec.pure fun r h => ⟨h, rfl⟩

/-! ## Once the answer has started -/

variable {I : Response → Prop}

theorem startAnswer_started {st : Answering} (hst : st.answerStarted = true) :
    Spec I (startAnswer prepared st) (fun st' r => I r ∧ st'.answerStarted = true) (fun _ => I) := by
  unfold startAnswer
  rw [if_pos hst]
  exact Spec.pure fun r h => ⟨h, hst⟩

theorem readChunks_started (hI : Calm prepared I) (thinks : Bool) (raised : Option Raised)
    (chunks : List GenerationChunk) : ∀ st, st.answerStarted = true →
      Spec I (readChunks prepared thinks raised chunks st)
        (fun res r => I r ∧ res.2.answerStarted = true) (fun _ => I) := by
  induction chunks with
  | nil =>
    intro st hst
    rw [readChunks]
    exact Spec.bind (keeps_await raised) fun _ => Spec.pure fun r h => ⟨h, hst⟩
  | cons chunk rest ih =>
    intro st hst
    cases chunk with
    | done reason usage =>
      rw [readChunks]
      exact Spec.bind (keeps_attempt _) fun _ => Spec.pure fun r h => ⟨h, hst⟩
    | thinking text =>
      -- a thought after the answer started is an error
      rw [readChunks]
      refine Spec.bind (M := fun _ _ => False) ?_ fun _ => ⟨fun _ h => absurd h not_false⟩
      exact Spec.when (fun _ => Spec.throw fun _ h => h) fun hnot _ _ => hnot (Or.inl hst)
    | answer text =>
      rw [readChunks]
      refine Spec.bind (startAnswer_started hst) fun st' => ?_
      refine Spec.assume fun hst' => ?_
      exact Spec.bind (keeps_calmEvent hI rfl) fun _ => ih _ hst'

theorem answerLoop_started (hI : Calm prepared I) (basePrompt : String) (continuations : Nat) :
    ∀ call thinks st, st.answerStarted = true →
      Keeps I (answerLoop cb prepared basePrompt continuations call thinks st) := by
  induction continuations with
  | zero =>
    intro call thinks st hst
    rw [answerLoop]
    refine Spec.bind (readChunks_started hI _ _ _ st hst) fun res => Spec.assume fun hres => ?_
    rcases res with ⟨_ | _ | _, st'⟩
    · exact Keeps.throw _
    · exact Keeps.pure _
    · refine Spec.bind (startAnswer_started hres) fun st => Spec.assume fun _ => ?_
      refine Spec.bind (keeps_raiseIf _ _) fun _ => ?_
      refine Spec.bind (keeps_transition (hI.draft _ _)) fun _ => ?_
      refine Spec.bind (keeps_calmEvent hI rfl) fun _ => ?_
      exact Keeps.pure _
  | succ continuations ih =>
    intro call thinks st hst
    rw [answerLoop]
    refine Spec.bind (readChunks_started hI _ _ _ st hst) fun res => Spec.assume fun hres => ?_
    rcases res with ⟨_ | _ | _, st'⟩
    · exact Keeps.throw _
    · exact Keeps.pure _
    · refine Spec.bind (startAnswer_started hres) fun st => Spec.assume fun hst => ?_
      refine Spec.bind (keeps_calmEvent hI rfl) fun _ => ?_
      exact Spec.bind (keeps_attempt _) fun _ => ih _ _ _ hst

/-! ## The first generation -/

/-- The flags of the reasoning of these chunks, after some text. -/
def flagsOf (text : String) (chunks : List GenerationChunk) : List Bool :=
  if endsReasoning chunks then
    [decide (maxReasoningCodePoints < (text ++ String.join (thoughts chunks)).length)]
  else []

/-- The chunks were read: the reasoning is over, or a length stop is about to end it. -/
def Read (text : String) (chunks : List GenerationChunk) (res : Option DoneReason × Answering)
    (r : Response) : Prop :=
  Over (text ++ String.join (thoughts chunks)) (flagsOf text chunks) r ∧
      (res.2.answerStarted = true ∨ res.1 ≠ some .length) ∨
    res.1 = some .length ∧ Thinking (text ++ String.join (thoughts chunks)) res.2 r ∧
      endsReasoning chunks = true

theorem readChunks_thinking (raised : Option Raised) (chunks : List GenerationChunk) :
    ∀ text st, Spec (Thinking text st) (readChunks prepared true raised chunks st)
      (fun res => Read text chunks res)
      (fun _ => Over (text ++ String.join (thoughts chunks)) (flagsOf text chunks)) := by
  induction chunks with
  | nil =>
    intro text st
    have hnone : text ++ String.join (thoughts []) = text := String.append_empty
    rw [readChunks]
    refine Spec.bind (M := fun _ => Thinking text st) ((keeps_await raised).conseq
      (fun _ h => h) (fun _ _ h => h) fun _ _ h => ?_) fun _ => ?_
    · rw [hnone]
      exact h.sofar
    · refine Spec.pure fun r h => Or.inl ⟨?_, Or.inr (by simp)⟩
      rw [hnone]
      exact h.sofar
  | cons chunk rest ih =>
    intro text st
    cases chunk with
    | thinking more =>
      have hjoin : text ++ String.join (thoughts (.thinking more :: rest))
          = text ++ more.1 ++ String.join (thoughts rest) := by
        rw [thoughts, String.join_cons, String.append_assoc]
      have hflags : flagsOf text (.thinking more :: rest) = flagsOf (text ++ more.1) rest := by
        unfold flagsOf
        rw [hjoin, endsReasoning]
      rw [readChunks]
      refine Spec.bind (M := fun _ => Thinking text st) ?_ fun _ => ?_
      · refine Spec.choose fun r h => ⟨Thinking text st, h, ?_⟩
        refine Spec.when (fun hbad => ?_) fun _ _ h => h
        rw [h.fresh] at hbad
        exact absurd hbad (by simp)
      · refine Spec.bind (showReasoning_thinking text more.1 st) fun st' => ?_
        have hrest := ih (text ++ more.1) st'
        rw [hjoin, hflags]
        refine hrest.conseq (fun _ h => h) (fun res r h => ?_) fun _ _ h => h
        unfold Read at h ⊢
        rw [hjoin, hflags]
        exact h
    | answer more =>
      have hnone : text ++ String.join (thoughts (.answer more :: rest)) = text := String.append_empty
      have hflags : flagsOf text (.answer more :: rest)
          = [decide (maxReasoningCodePoints < text.length)] := by
        unfold flagsOf
        rw [hnone]
        rfl
      unfold Read
      rw [readChunks, hnone, hflags]
      refine Spec.bind (startAnswer_thinking text st) fun st' => Spec.assume fun hst' => ?_
      have hcalm := calm_over prepared text [decide (maxReasoningCodePoints < text.length)]
      refine Spec.bind (keeps_calmEvent hcalm rfl) fun _ => ?_
      have hrest := readChunks_started hcalm true raised rest
        { st' with parts := st'.parts ++ [more.1] } hst'
      refine hrest.conseq (fun _ h => h) (fun res r h => ?_) fun _ _ h => h
      exact Or.inl ⟨h.1, Or.inl h.2⟩
    | done reason usage =>
      have hnone : text ++ String.join (thoughts (.done reason usage :: rest)) = text :=
        String.append_empty
      unfold Read
      rw [readChunks, hnone]
      cases husage : validateGenerationUsage usage with
      | error e =>
        have hflags : flagsOf text (.done reason usage :: rest) = [] := by
          unfold flagsOf
          cases reason with
          | stop => rfl
          | length =>
            rw [endsReasoning, husage]
            rfl
        rw [hflags]
        refine Spec.bind (M := fun _ _ => False) (Spec.throw fun _ h => h.sofar) fun _ => ?_
        exact ⟨fun _ h => absurd h not_false⟩
      | ok _ =>
        refine Spec.bind (M := fun _ => Thinking text st) (Spec.pure fun _ h => h) fun _ => ?_
        cases reason with
        | stop => exact Spec.pure fun r h => Or.inl ⟨h.sofar, Or.inr (by simp)⟩
        | length =>
          refine Spec.pure fun r h => Or.inr ⟨rfl, h, ?_⟩
          rw [endsReasoning, husage]
          rfl

/-- The first generation and what follows it. -/
theorem answerLoop_thinking (basePrompt text : String) (continuations call : Nat) (st : Answering) :
    Spec (Thinking text st) (answerLoop cb prepared basePrompt continuations call true st)
      (fun _ => Over (text ++ String.join (thoughts (cb.generation call).chunks))
        (flagsOf text (cb.generation call).chunks))
      (fun _ => Over (text ++ String.join (thoughts (cb.generation call).chunks))
        (flagsOf text (cb.generation call).chunks)) := by
  have hcalm := calm_over prepared (text ++ String.join (thoughts (cb.generation call).chunks))
    (flagsOf text (cb.generation call).chunks)
  have hstart : ∀ st', Spec (Read text (cb.generation call).chunks (some .length, st'))
      (startAnswer prepared st') (fun st'' r =>
        Over (text ++ String.join (thoughts (cb.generation call).chunks))
          (flagsOf text (cb.generation call).chunks) r ∧ st''.answerStarted = true)
      (fun _ => Over (text ++ String.join (thoughts (cb.generation call).chunks))
        (flagsOf text (cb.generation call).chunks)) := by
    intro st'
    refine Spec.choose fun r h => ?_
    cases h with
    | inl hover =>
      obtain ⟨hover, hst'⟩ := hover
      have hstarted := hst'.resolve_right (by simp)
      exact ⟨_, hover, startAnswer_started hstarted⟩
    | inr hthinking =>
      obtain ⟨-, hthinking, hends⟩ := hthinking
      refine ⟨_, hthinking, ?_⟩
      unfold flagsOf
      rw [if_pos hends]
      exact startAnswer_thinking _ st'
  have hover : ∀ res r, res.1 ≠ some .length → Read text (cb.generation call).chunks res r →
      Over (text ++ String.join (thoughts (cb.generation call).chunks))
        (flagsOf text (cb.generation call).chunks) r := by
    intro res r hres h
    cases h with
    | inl hover => exact hover.1
    | inr hthinking => exact absurd hthinking.1 hres
  cases continuations with
  | zero =>
    rw [answerLoop]
    refine Spec.bind (readChunks_thinking _ _ text st) fun res => ?_
    rcases res with ⟨_ | _ | _, st'⟩
    · exact Spec.throw fun r h => hover _ r (by simp) h
    · exact Spec.pure fun r h => hover _ r (by simp) h
    · refine Spec.bind (hstart st') fun st'' => Spec.assume fun _ => ?_
      refine Spec.bind (keeps_raiseIf _ _) fun _ => ?_
      refine Spec.bind (keeps_transition (hcalm.draft _ _)) fun _ => ?_
      refine Spec.bind (keeps_calmEvent hcalm rfl) fun _ => ?_
      exact Keeps.pure _
  | succ continuations =>
    rw [answerLoop]
    refine Spec.bind (readChunks_thinking _ _ text st) fun res => ?_
    rcases res with ⟨_ | _ | _, st'⟩
    · exact Spec.throw fun r h => hover _ r (by simp) h
    · exact Spec.pure fun r h => hover _ r (by simp) h
    · refine Spec.bind (hstart st') fun st'' => Spec.assume fun hst'' => ?_
      refine Spec.bind (keeps_calmEvent hcalm rfl) fun _ => ?_
      exact Spec.bind (keeps_attempt _) fun _ => answerLoop_started hcalm _ _ _ _ _ hst''

/-! ## The whole response -/

/-- What is shown of the reasoning of a fresh turn, once its stream has begun. -/
def Reasoned (cb : Callbacks) (r : Response) : Prop :=
  Over (String.join (thoughts (cb.generation 0).chunks)) (flagsOf "" (cb.generation 0).chunks) r

theorem answerTurn_reasoned (hfresh : prepared.continuationAnswer = none)
    (hmonitor : cb.monitor = none) (prompt : String) :
    Spec (fun r => r.frames = []) (answerTurn cb prepared prompt) (fun _ => Reasoned cb)
      (fun _ => Reasoned cb) := by
  have hcalm : Calm prepared (Reasoned cb) := calm_over prepared _ _
  have hthinking := calm_thinking prepared "" ⟨[], 0, false, false⟩
  have hevent : ∀ e, e.reasons = false → Spec (Thinking "" ⟨[], 0, false, false⟩)
      (serviceEvent prepared e) (fun _ => Thinking "" ⟨[], 0, false, false⟩)
      (fun _ => Reasoned cb) := fun e he => Spec.update fun r h => hthinking.event e he r h
  unfold answerTurn
  rw [hmonitor, hfresh]
  refine Spec.bind (M := fun _ => Thinking "" ⟨[], 0, false, false⟩)
    (Spec.pure fun r h => ?_) fun _ => ?_
  · refine ⟨⟨⟨?_, ?_⟩, ?_⟩, rfl, rfl, rfl⟩
    · rw [h]
      rfl
    · rw [h]
      exact fun part hpart => absurd hpart List.not_mem_nil
    · rw [h]
      rfl
  · refine Spec.bind (hevent _ rfl) fun _ => Spec.bind (hevent _ rfl) fun _ =>
      Spec.bind (hevent _ rfl) fun _ => ?_
    refine Spec.bind (M := fun st => fun r => Thinking "" st r) (Spec.pure fun r h => h) fun st => ?_
    have hloop := @answerLoop_thinking prepared cb prompt "" 1 0 st
    rw [String.empty_append] at hloop
    refine Spec.bind hloop fun res => ?_
    cases res with
    | none => exact Spec.pure fun _ h => h
    | some parts => exact keeps_validateAnswer hcalm parts

theorem recordFailure_reasoned (raised : Raised) :
    Keeps (Reasoned cb) (recordFailure cb prepared raised) := by
  have hcalm : Calm prepared (Reasoned cb) := calm_over prepared _ _
  have hrecord : ∀ status, Keeps (Reasoned cb) (transition .service status cb.service) :=
    fun _ => keeps_transition fun _ h => ⟨h.shows, h.ended⟩
  unfold recordFailure
  cases raised with
  | cancelled => exact Spec.bind (hrecord _) fun _ => Keeps.throw _
  | generatorExit => exact Spec.bind (hrecord _) fun _ => Keeps.throw _
  | accessRevoked =>
    exact Spec.bind (hrecord _) fun _ => Spec.bind (keeps_calmEvent hcalm rfl) fun _ => Keeps.pure _
  | http statusCode detail =>
    exact Spec.bind (hrecord _) fun _ => Spec.bind (keeps_calmEvent hcalm rfl) fun _ => Keeps.pure _
  | exception className message =>
    exact Spec.bind (hrecord _) fun _ => Spec.bind (keeps_calmEvent hcalm rfl) fun _ => Keeps.pure _

theorem serviceStream_reasoned {prompt : String} (hrevoked : prepared.accessRevoked = false)
    (hcomplete : prepared.alreadyComplete = false) (hprompt : prepared.prompt = some prompt)
    (hfresh : prepared.continuationAnswer = none) (hmonitor : cb.monitor = none) :
    Spec (fun r => r.frames = []) (serviceStream cb prepared) (fun _ => Reasoned cb)
      (fun _ => Reasoned cb) := by
  have hcalm : Calm prepared (Reasoned cb) := calm_over prepared _ _
  unfold serviceStream
  rw [hrevoked, hcomplete, hprompt]
  refine Spec.bind (M := fun _ => Reasoned cb) (Spec.tryCatch
    (answerTurn_reasoned hfresh hmonitor prompt) recordFailure_reasoned) fun res => ?_
  cases res with
  | none => exact Spec.pure fun _ h => h
  | some final => exact keeps_calmEvent hcalm rfl

/-- The stream of a fresh turn shows exactly the first 20000 characters of what its first
generation thinks before anything else, in parts that are not empty; its reasoning ends once if
an answer or a length stop follows, and never otherwise, with a flag that says whether there was
more. -/
theorem reasoning_shown (cb : Callbacks) (prepared : PreparedChatTurn) (sequence : Nat)
    (prompt : String) (hrevoked : prepared.accessRevoked = false)
    (hcomplete : prepared.alreadyComplete = false) (hprompt : prepared.prompt = some prompt)
    (hfresh : prepared.continuationAnswer = none) (hmonitor : cb.monitor = none) :
    let thought := String.join (thoughts (cb.generation 0).chunks)
    let frames := (serviceStream cb prepared ⟨sequence, [], []⟩).2.frames
    String.join (shownReasoning frames) = firstChars 20000 thought ∧
      (∀ part ∈ shownReasoning frames, part ≠ "") ∧
      endedReasoning frames =
        if endsReasoning (cb.generation 0).chunks then [decide (20000 < thought.length)] else [] := by
  have hspec := serviceStream_reasoned hrevoked hcomplete hprompt hfresh hmonitor
  have hexit := hspec.exits ⟨sequence, [], []⟩ rfl
  have hreasoned : Reasoned cb (serviceStream cb prepared ⟨sequence, [], []⟩).2 := by
    match serviceStream cb prepared ⟨sequence, [], []⟩, hexit with
    | (.ok _, r), hexit => exact hexit
    | (.error _, r), hexit => exact hexit
  refine ⟨hreasoned.shows.join, hreasoned.shows.nonempty, ?_⟩
  have hended := hreasoned.ended
  unfold flagsOf at hended
  rw [String.empty_append] at hended
  exact hended

end Service

/-- The model thinks in two chunks and reaches its limit. -/
def thinkingCallbacks : Callbacks :=
  { countTokens := fun _ => 0
    monitor := none
    generation := fun _ => ⟨[.chunk (.thinking ⟨"Let me ", by decide⟩) none,
      .chunk (.thinking ⟨"see.", by decide⟩) none, .chunk (.done .length none) none], none⟩
    repair := ⟨[], none⟩
    finalize := .ok ⟨[], []⟩
    draft := none
    service := none
    route := none }

/-- A fresh turn over one source. -/
def freshPrepared : PreparedChatTurn :=
  ⟨1, 2, some 3, some "prompt", [sampleSource], false, false, none, some "prompt"⟩

theorem reasoning_shown_twice :
    String.join (shownReasoning (serviceStream thinkingCallbacks freshPrepared ⟨4, [], []⟩).2.frames)
        = "Let me see." ∧
      endedReasoning (serviceStream thinkingCallbacks freshPrepared ⟨4, [], []⟩).2.frames = [false] := by
  obtain ⟨hjoin, -, hended⟩ := reasoning_shown thinkingCallbacks freshPrepared 4 "prompt" rfl rfl rfl
    rfl rfl
  exact ⟨hjoin.trans (by decide), hended.trans (by decide)⟩

end LocalRag.Stream
