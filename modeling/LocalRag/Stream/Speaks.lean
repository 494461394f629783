import LocalRag.Stream.Reader

/-!
# The answer, as the client follows it

Each statement of the `try` block of `ChatService.stream` moves the client by its
own transition (`Stream.Reader`), and an exception at any point leaves it where an
error can still be reported (`Live`). One lemma per function says where the client
stands when the function returns.

One path is missing a step: reasoning is closed when the first piece of the answer
arrives or the generation limit is met, and a generation that stops by itself
after reasoning only does neither. The client is still in `reasoning_active` when
the validation is announced, and rejects the stream (`answerTurn_rejected`).
-/

namespace LocalRag.Stream

open LocalRag.Core

/-! ## The answer loop -/

/-- The chunks end with a regular stop before any answer. -/
def stopsBeforeAnswer : List GenerationChunk → Bool
  | .thinking _ :: rest => stopsBeforeAnswer rest
  | .done .stop usage :: _ => (validateGenerationUsage usage).isOk
  | _ => false

section Service

variable {v : View} {cb : Callbacks} {prepared : PreparedChatTurn} {R : Raised → Response → Prop}

/-- The sources as the client has them. -/
def PreparedChatTurn.streamed (prepared : PreparedChatTurn) : List StreamSource :=
  prepared.sources.map (·.payload)

/-- The client follows the answer loop: in the answer once it has started, in the
reasoning before. -/
def Speaks (v : View) (prepared : PreparedChatTurn) (st : Answering) (r : Response) : Prop :=
  st.visibleReasoning ≤ maxReasoningCodePoints ∧
    Sees v prepared.turnId (if st.answerStarted then .answer else .reasoningActive)
      (some prepared.streamed) st.visibleReasoning r

theorem Speaks.live {st : Answering} {r : Response} (h : Speaks v prepared st r) :
    Live v prepared.turnId r := h.2.live

variable {P : Response → Prop}

theorem event_spec (hchat : prepared.chatId = v.expected.chatId) {Q : Response → Prop} {e : Event}
    (h : ∀ r, P r → Q (numbered v.expected.chatId prepared.turnId e r)) :
    Spec P (serviceEvent prepared e) (fun _ => Q) R := by
  unfold serviceEvent event
  rw [hchat]
  exact Spec.update h

theorem firstChars_length (n : Nat) (text : String) : (firstChars n text).length ≤ n := by
  rw [firstChars, String.length_ofList, List.length_take]
  exact Nat.min_le_left _ _

theorem showReasoning_speaks (hchat : prepared.chatId = v.expected.chatId) (text : String)
    {st : Answering} (hst : st.answerStarted = false) :
    Spec (Speaks v prepared st) (showReasoning prepared text st)
      (fun st' r => Speaks v prepared st' r ∧ st'.answerStarted = false) R := by
  have hlen := firstChars_length (maxReasoningCodePoints - st.visibleReasoning) text
  unfold showReasoning
  refine Spec.bind (M := fun _ r => Speaks v prepared { st with
    visibleReasoning := st.visibleReasoning +
      (firstChars (maxReasoningCodePoints - st.visibleReasoning) text).length } r) ?_ fun _ => ?_
  · refine Spec.when (fun hshow => event_spec hchat fun r h => ?_) fun hempty r h => ?_
    · refine ⟨?_, ?_⟩
      · have := h.1
        show st.visibleReasoning + _ ≤ _
        omega
      · have hsees := h.2
        rw [hst] at hsees ⊢
        refine Sees.reasoningDelta hsees hshow ?_
        have := h.1
        omega
    · rw [not_not.mp hempty]
      exact h
  · refine Spec.pure fun r h => ⟨⟨h.1, ?_⟩, hst⟩
    have hsees := h.2
    rw [hst] at hsees ⊢
    exact hsees

theorem startAnswer_speaks (hchat : prepared.chatId = v.expected.chatId) (st : Answering) :
    Spec (Speaks v prepared st) (startAnswer prepared st)
      (fun st' r => Speaks v prepared st' r ∧ st'.answerStarted = true) R := by
  unfold startAnswer
  split
  next hst => exact Spec.pure fun r h => ⟨h, hst⟩
  next hst =>
    refine Spec.bind (M := fun _ r => st.visibleReasoning ≤ maxReasoningCodePoints ∧
      Sees v prepared.turnId .expectAnswerStatus (some prepared.streamed) st.visibleReasoning r)
      (event_spec hchat fun r h => ?_) fun _ => ?_
    · have hsees := h.2
      rw [if_neg hst] at hsees
      exact ⟨h.1, hsees.reasoningEnd _⟩
    · refine Spec.bind (M := fun _ r => st.visibleReasoning ≤ maxReasoningCodePoints ∧
        Sees v prepared.turnId .answer (some prepared.streamed) st.visibleReasoning r)
        (event_spec hchat fun r h => ⟨h.1, h.2.status rfl rfl⟩) fun _ => ?_
      exact Spec.pure fun r h => ⟨h, rfl⟩

theorem token_speaks (hchat : prepared.chatId = v.expected.chatId) {st : Answering}
    (hst : st.answerStarted = true) (text : String) (parts : List String) :
    Spec (Speaks v prepared st) (serviceEvent prepared (.token text))
      (fun _ => Speaks v prepared { st with parts := parts }) R := by
  refine event_spec hchat fun r h => ⟨h.1, ?_⟩
  have hsees := h.2
  rw [hst] at hsees ⊢
  exact hsees.token (Or.inl rfl) text

theorem attempt_spec {α : Type} {Q : α → Response → Prop} {x : Except Raised α}
    (hok : ∀ a, x = .ok a → ∀ r, P r → Q a r) (herr : ∀ e r, P r → R e r) :
    Spec P (attempt x) Q R := by
  cases x with
  | ok a => exact Spec.pure (hok a rfl)
  | error e => exact Spec.throw (herr e)

theorem await_spec {Q : Unit → Response → Prop} {answer : Option Raised}
    (hok : answer = none → ∀ r, P r → Q () r) (herr : ∀ e r, P r → R e r) :
    Spec P (await answer) Q R := by
  cases answer with
  | none => exact Spec.pure (hok rfl)
  | some e => exact Spec.throw (herr e)

/-- The chunks of one generation call. It ends with a regular stop and no answer
only if it stopped before any answer. -/
theorem readChunks_speaks (hchat : prepared.chatId = v.expected.chatId) (thinks : Bool)
    (raised : Option Raised) (chunks : List GenerationChunk) :
    ∀ st, Spec (Speaks v prepared st) (readChunks prepared thinks raised chunks st)
      (fun res r => Speaks v prepared res.2 r ∧ (res.1 = some .stop →
        res.2.answerStarted = false → st.answerStarted = false ∧ stopsBeforeAnswer chunks = true))
      (fun _ r => Live v prepared.turnId r) := by
  induction chunks with
  | nil =>
    intro st
    rw [readChunks]
    refine Spec.bind (M := fun _ => Speaks v prepared st) (await_spec (fun _ _ h => h)
      fun _ _ h => h.live) fun _ => ?_
    exact Spec.pure fun r h => ⟨h, fun hstop => absurd hstop (by simp)⟩
  | cons chunk rest ih =>
    intro st
    cases chunk with
    | done reason usage =>
      rw [readChunks]
      refine Spec.bind (M := fun _ r => Speaks v prepared st r ∧
        (validateGenerationUsage usage).isOk = true) (attempt_spec (fun a ha r h => ⟨h, ?_⟩)
        fun _ _ h => h.live) fun _ => ?_
      · rw [ha]
        rfl
      · refine Spec.pure fun r h => ⟨h.1, fun hstop hst => ⟨hst, ?_⟩⟩
        obtain rfl := Option.some.inj hstop
        exact h.2
    | thinking text =>
      rw [readChunks]
      refine Spec.bind (M := fun _ r => Speaks v prepared st r ∧ st.answerStarted = false)
        (Spec.when (fun _ => Spec.throw fun _ h => h.live) fun hguard r h => ⟨h, ?_⟩) fun _ => ?_
      · rw [not_or] at hguard
        simpa using hguard.1
      · refine Spec.assume fun hst => ?_
        refine (showReasoning_speaks hchat text.1 hst).bind fun st' => ?_
        refine (ih st').conseq (fun _ h => h.1) (fun res r h => ⟨h.1, fun hstop hres => ?_⟩)
          fun _ _ h => h
        exact ⟨hst, (h.2 hstop hres).2⟩
    | answer text =>
      rw [readChunks]
      refine (startAnswer_speaks hchat st).bind fun st' => ?_
      refine Spec.assume fun hst' => ?_
      refine (token_speaks hchat hst' text.1 (st'.parts ++ [text.1])).bind fun _ => ?_
      refine (ih _).conseq (fun _ h => h) (fun res r h => ⟨h.1, fun hstop hres => ?_⟩)
        fun _ _ h => h
      -- the answer has started, and stays so
      have hstarted : st'.answerStarted = false := (h.2 hstop hres).1
      rw [hst'] at hstarted
      exact absurd hstarted (by simp)

/-- What the answer loop leaves the client with. -/
def Collected (v : View) (prepared : PreparedChatTurn) (r : Response) : Option (List String) → Prop
  | none => Failed v r
  | some _ => ∃ points, Sees v prepared.turnId .answer (some prepared.streamed) points r

/-- The second limit: the draft is recorded and an error sent. -/
theorem limit_speaks (hchat : prepared.chatId = v.expected.chatId) (hdraft : cb.draft = none)
    (st : Answering) (p : Prop) [Decidable p] (x : Raised) (message : String)
    (hmessage : message ≠ "") :
    Spec (fun r => Speaks v prepared st r ∧ st.answerStarted = true)
      (Gen.when p (throw x) >>= fun _ => transition .draft .lengthLimited cb.draft >>= fun _ =>
        serviceEvent prepared (.error "generation_limit" message) >>= fun _ =>
          (pure none : Body (Option (List String))))
      (fun res r => Collected v prepared r res) (fun _ r => Live v prepared.turnId r) := by
  refine Spec.bind (M := fun _ => Live v prepared.turnId)
    (Spec.when (fun _ => Spec.throw fun _ h => h.1.live) fun _ _ h => h.1.live) fun _ => ?_
  rw [hdraft]
  refine Spec.bind (M := fun _ => Live v prepared.turnId) (Spec.bind (M := fun _ => Live v prepared.turnId)
    (Spec.update fun _ h => h) fun _ => Spec.pure fun _ h => h) fun _ => ?_
  refine Spec.bind (M := fun _ => Failed v)
    (event_spec hchat fun _ h => h.error (by decide) hmessage) fun _ => ?_
  exact Spec.pure fun _ h => h

theorem answerLoop_speaks (hchat : prepared.chatId = v.expected.chatId) (hdraft : cb.draft = none)
    (basePrompt : String) (continuations : Nat) :
    ∀ call thinks st,
      (st.answerStarted = true ∨ stopsBeforeAnswer (cb.generation call).chunks = false) →
      Spec (Speaks v prepared st) (answerLoop cb prepared basePrompt continuations call thinks st)
        (fun res r => Collected v prepared r res) (fun _ r => Live v prepared.turnId r) := by
  -- a regular stop finds the answer started
  have hstopped : ∀ call (st : Answering) (res : Option DoneReason × Answering) r,
      (st.answerStarted = true ∨ stopsBeforeAnswer (cb.generation call).chunks = false) →
      Speaks v prepared res.2 r → (res.1 = some .stop → res.2.answerStarted = false →
        st.answerStarted = false ∧ stopsBeforeAnswer (cb.generation call).chunks = true) →
      res.1 = some .stop → Collected v prepared r (some res.2.parts) := by
    intro call st res r hcall hspeaks hres hstop
    have hstarted : res.2.answerStarted = true := by
      by_contra hnot
      have hboth := hres hstop (by simpa using hnot)
      rcases hcall with hcall | hcall
      · rw [hboth.1] at hcall
        exact absurd hcall (by simp)
      · rw [hboth.2] at hcall
        exact absurd hcall (by simp)
    have hsees := hspeaks.2
    rw [hstarted] at hsees
    exact ⟨_, hsees⟩
  induction continuations with
  | zero =>
    intro call thinks st hcall
    rw [answerLoop]
    refine (readChunks_speaks hchat _ _ _ st).bind fun res => ?_
    obtain ⟨reason, st'⟩ := res
    rcases reason with _ | (_ | _)
    · exact Spec.throw fun _ h => h.1.live
    · exact Spec.pure fun r h => hstopped call st (some .stop, st') r hcall h.1 h.2 rfl
    · refine Spec.bind ((startAnswer_speaks hchat st').conseq (fun _ h => h.1) (fun _ _ h => h)
        fun _ _ h => h) fun st'' => ?_
      exact limit_speaks hchat hdraft st'' _ _ _ (by decide +kernel)
  | succ continuations ih =>
    intro call thinks st hcall
    rw [answerLoop]
    refine (readChunks_speaks hchat _ _ _ st).bind fun res => ?_
    obtain ⟨reason, st'⟩ := res
    rcases reason with _ | (_ | _)
    · exact Spec.throw fun _ h => h.1.live
    · exact Spec.pure fun r h => hstopped call st (some .stop, st') r hcall h.1 h.2 rfl
    · refine Spec.bind ((startAnswer_speaks hchat st').conseq (fun _ h => h.1) (fun _ _ h => h)
        fun _ _ h => h) fun st'' => ?_
      refine Spec.assume fun hst => ?_
      refine Spec.bind (M := fun _ => Speaks v prepared st'')
        (event_spec hchat fun r h => ⟨h.1, ?_⟩) fun _ => ?_
      · have hsees := h.2
        rw [hst] at hsees ⊢
        exact hsees.status rfl rfl
      · refine Spec.bind (M := fun _ => Speaks v prepared st'')
          (attempt_spec (fun _ _ _ h => h) fun _ _ h => h.live) fun _ => ?_
        exact ih _ _ _ (Or.inl hst)

/-! ## The citations -/

theorem readRepair_speaks (hchat : prepared.chatId = v.expected.chatId) {points : Nat}
    (raised : Option Raised) (chunks : List GenerationChunk) :
    ∀ parts, Spec (Sees v prepared.turnId .repairAnswer (some prepared.streamed) points)
      (readRepair prepared raised chunks parts)
      (fun _ => Sees v prepared.turnId .repairAnswer (some prepared.streamed) points)
      (fun _ r => Live v prepared.turnId r) := by
  induction chunks with
  | nil =>
    intro parts
    rw [readRepair]
    refine Spec.bind (M := fun _ => Sees v prepared.turnId .repairAnswer (some prepared.streamed)
      points) (await_spec (fun _ _ h => h) fun _ _ h => h.live) fun _ => ?_
    exact Spec.pure fun _ h => h
  | cons chunk rest ih =>
    intro parts
    cases chunk with
    | done reason usage =>
      rw [readRepair]
      refine Spec.bind (M := fun _ => Sees v prepared.turnId .repairAnswer (some prepared.streamed)
        points) (attempt_spec (fun _ _ _ h => h) fun _ _ h => h.live) fun _ => ?_
      exact Spec.pure fun _ h => h
    | thinking text =>
      rw [readRepair]
      exact Spec.throw fun _ h => h.live
    | answer text =>
      rw [readRepair]
      refine Spec.bind (M := fun _ => Sees v prepared.turnId .repairAnswer (some prepared.streamed)
        points) (event_spec hchat fun _ h => h.token (Or.inr rfl) _) fun _ => ih _

/-- The client waits for the final event, and the answer cites `cited`. -/
def Validated (v : View) (prepared : PreparedChatTurn) (answer : String)
    (cited : Option (List ChatSourceSnapshot)) (r : Response) : Prop :=
  (∀ l, cited = some l → answer ≠ "" ∧ (∀ s ∈ l, s ∈ prepared.sources) ∧ l.Nodup) ∧
    ∃ points, Sees v prepared.turnId .validating (some prepared.streamed) points r

theorem repairCitations_speaks (hchat : prepared.chatId = v.expected.chatId)
    (hdraft : cb.draft = none) {points : Nat} (answer : String) :
    Spec (Sees v prepared.turnId .validating (some prepared.streamed) points)
      (repairCitations cb prepared answer)
      (fun res r => match res with
        | none => Failed v r
        | some (repaired, cited) => Validated v prepared repaired (some cited) r)
      (fun _ r => Live v prepared.turnId r) := by
  unfold repairCitations
  refine Spec.bind (M := fun _ => Sees v prepared.turnId .repairing (some prepared.streamed) points)
    (event_spec hchat fun _ h => h.status rfl rfl) fun _ => ?_
  refine Spec.bind (M := fun _ => Sees v prepared.turnId .repairAnswer (some prepared.streamed)
    points) (event_spec hchat fun _ h => h.answerReset) fun _ => ?_
  refine Spec.bind (M := fun _ => Sees v prepared.turnId .repairAnswer (some prepared.streamed)
    points) (attempt_spec (fun _ _ _ h => h) fun _ _ h => h.live) fun _ => ?_
  refine (readRepair_speaks hchat _ _ _).bind fun res => ?_
  obtain ⟨stopReason, parts⟩ := res
  show Spec _ (concludeRepair cb prepared _ _) _ _
  cases hcited : (if stopReason = some .stop then
      validatedSourceRanks (strip (String.join parts)) prepared.sources else none) with
  | none =>
    show Spec _ (transition .draft .citationFailed cb.draft >>= _) _ _
    rw [hdraft]
    refine Spec.bind (M := fun _ => Live v prepared.turnId) (Spec.bind
      (M := fun _ => Live v prepared.turnId) (Spec.update fun _ h => Sees.live h)
      fun _ => Spec.pure fun _ h => h) fun _ => ?_
    refine Spec.bind (M := fun _ => Failed v)
      (event_spec hchat fun _ h => h.error (by decide) (by decide)) fun _ => ?_
    exact Spec.pure fun _ h => h
  | some cited =>
    refine Spec.bind (M := fun _ => Sees v prepared.turnId .validating (some prepared.streamed)
      points) (event_spec hchat fun _ h => h.status rfl rfl) fun _ => ?_
    refine Spec.pure fun r h => ⟨fun l hl => ?_, points, h⟩
    obtain rfl := Option.some.inj hl
    split at hcited
    · exact validatedSourceRanks_some hcited
    · exact absurd hcited (by simp)

/-- The final event is one the client accepts. -/
def Final (v : View) (prepared : PreparedChatTurn) (e : FinalEvent) (r : Response) : Prop :=
  parses (.final e) = true ∧ validateFinalCitations prepared.streamed [] e.citations = .ok () ∧
    ∃ points, Sees v prepared.turnId .validating (some prepared.streamed) points r

theorem finalizeAnswer_speaks (hsources : SourcesOk prepared.sources) (answer : String)
    (cited : Option (List ChatSourceSnapshot)) :
    Spec (Validated v prepared answer cited) (finalizeAnswer cb answer cited)
      (fun e => Final v prepared e) (fun _ r => Live v prepared.turnId r) := by
  unfold finalizeAnswer
  refine Spec.bind (M := fun _ r => Validated v prepared answer cited r ∧
    ¬ (¬ isExplicitInsufficientContext answer ∧ cited = none))
    (Spec.when (fun _ => Spec.throw fun _ h => h.2.elim fun _ hs => hs.live)
      fun hguard _ h => ⟨h, hguard⟩) fun _ => ?_
  refine Spec.bind (M := fun _ r => Validated v prepared answer cited r ∧
    ¬ (¬ isExplicitInsufficientContext answer ∧ cited = none))
    (attempt_spec (fun _ _ _ h => h) fun _ _ h => h.1.2.elim fun _ hs => hs.live)
    fun detached => ?_
  refine Spec.pure fun r h => ?_
  obtain ⟨⟨hcited, hsees⟩, hguard⟩ := h
  by_cases hinsufficient : isExplicitInsufficientContext answer = true
  · simp only [hinsufficient, if_true]
    refine ⟨?_, rfl, hsees⟩
    rw [List.map_nil]
    decide +kernel
  · simp only [hinsufficient]
    obtain ⟨l, hl⟩ : ∃ l, cited = some l :=
      Option.ne_none_iff_exists'.mp fun hnone => hguard ⟨hinsufficient, hnone⟩
    obtain ⟨hanswer, hmem, hnodup⟩ := hcited l hl
    rw [hl]
    refine ⟨?_, ?_, hsees⟩
    · refine decide_eq_true ⟨hanswer, ?_, ?_⟩
      · rw [List.all_eq_true]
        intro p hp
        obtain ⟨s, hs, rfl⟩ := List.mem_map.mp hp
        exact (hsources.schema (hmem s hs) detached).2
      · show (l.map _).length ≤ 8
        rw [List.length_map]
        exact Nat.le_trans (hnodup.length_le_of_subset hmem) hsources.count
    · exact validateFinalCitations_ok hsources detached [] l (by simpa using hmem)
        (by simpa using hnodup)

theorem validateAnswer_speaks (hchat : prepared.chatId = v.expected.chatId)
    (hdraft : cb.draft = none) (hsources : SourcesOk prepared.sources) (parts : List String) :
    Spec (fun r => ∃ points, Sees v prepared.turnId .answer (some prepared.streamed) points r)
      (validateAnswer cb prepared parts)
      (fun res r => match res with
        | none => Failed v r
        | some e => Final v prepared e r)
      (fun _ r => Live v prepared.turnId r) := by
  have hfinal : ∀ answer cited, Spec (Validated v prepared answer cited)
      (some <$> finalizeAnswer cb answer cited : Body (Option FinalEvent))
      (fun res r => match res with
        | none => Failed v r
        | some e => Final v prepared e r)
      (fun _ r => Live v prepared.turnId r) := fun answer cited =>
    (finalizeAnswer_speaks hsources answer cited).bind fun _ => Spec.pure fun _ h => h
  refine ⟨fun r hr => ?_⟩
  obtain ⟨points, hsees⟩ := hr
  refine Spec.exits (P := Sees v prepared.turnId .answer (some prepared.streamed) points) ?_ r hsees
  unfold validateAnswer
  refine Spec.bind (M := fun _ => Sees v prepared.turnId .validating (some prepared.streamed)
    points) (event_spec hchat fun _ h => h.status rfl rfl) fun _ => ?_
  split
  · refine (repairCitations_speaks hchat hdraft _).bind fun res => ?_
    match res with
    | none => exact Spec.pure fun _ h => h
    | some (repaired, cited) => exact hfinal repaired (some cited)
  · refine (hfinal _ _).conseq (fun r h => ⟨fun l hl => ?_, points, h⟩) (fun _ _ h => h)
      fun _ _ h => h
    exact validatedSourceRanks_some hl

/-! ## The turn -/

/-- The client waits for the sources of the service. -/
def Prepared (v : View) (turnId : TurnId) (r : Response) : Prop :=
  Sees v turnId .expectSources none 0 r

theorem resumeAnswer_speaks (hchat : prepared.chatId = v.expected.chatId)
    (continuationAnswer : Option String) :
    Spec (Sees v prepared.turnId .reasoningActive (some prepared.streamed) 0)
      (resumeAnswer prepared continuationAnswer)
      (fun st r => Speaks v prepared st r ∧ (st.answerStarted = true ↔ continuationAnswer ≠ none))
      R := by
  cases continuationAnswer with
  | none => exact Spec.pure fun r h => ⟨⟨Nat.zero_le _, h⟩, by simp⟩
  | some text =>
    refine Spec.bind (M := fun _ => Sees v prepared.turnId .expectAnswerStatus
      (some prepared.streamed) 0) (event_spec hchat fun _ h => h.reasoningEnd false) fun _ => ?_
    refine Spec.bind (M := fun _ => Sees v prepared.turnId .answer (some prepared.streamed) 0)
      (event_spec hchat fun _ h => h.status rfl rfl) fun _ => ?_
    refine Spec.bind (M := fun _ => Sees v prepared.turnId .answer (some prepared.streamed) 0)
      (event_spec hchat fun _ h => h.token (Or.inl rfl) text) fun _ => ?_
    refine Spec.bind (M := fun _ => Sees v prepared.turnId .answer (some prepared.streamed) 0)
      (event_spec hchat fun _ h => h.status rfl rfl) fun _ => ?_
    exact Spec.pure fun r h => ⟨⟨Nat.zero_le _, h⟩, by simp⟩

/-- The sources, the reasoning status and its start: what every turn with sources
begins with. -/
theorem opening_speaks (hchat : prepared.chatId = v.expected.chatId)
    (hsources : SourcesOk prepared.sources) (hne : prepared.sources ≠ [])
    {β : Type} {f : Unit → Body β} {Q : β → Response → Prop}
    (hrest : Spec (Sees v prepared.turnId .reasoningActive (some prepared.streamed) 0) (f ()) Q R) :
    Spec (Prepared v prepared.turnId)
      (serviceEvent prepared (.sources (prepared.sources.map (·.payload))) >>= fun _ =>
        serviceEvent prepared (.status .reasoning) >>= fun _ =>
          serviceEvent prepared .reasoningStart >>= f) Q R := by
  refine Spec.bind (M := fun _ => Sees v prepared.turnId .expectReasoningStatus
    (some prepared.streamed) 0) (event_spec hchat fun r h => ?_) fun _ => ?_
  · have hsees := Sees.sourcesEvent h hsources.event.1 hsources.event.2
    rwa [if_neg (by simpa using hne)] at hsees
  · refine Spec.bind (M := fun _ => Sees v prepared.turnId .expectReasoningStart
      (some prepared.streamed) 0) (event_spec hchat fun _ h => h.status rfl rfl) fun _ => ?_
    refine Spec.bind (M := fun _ => Sees v prepared.turnId .reasoningActive
      (some prepared.streamed) 0) (event_spec hchat fun _ h => h.reasoningStart) fun _ => ?_
    exact hrest

theorem answerTurn_speaks (hchat : prepared.chatId = v.expected.chatId) (hdraft : cb.draft = none)
    (hsources : SourcesOk prepared.sources) (hne : prepared.sources ≠ [])
    (hanswers : cb.monitor = none → prepared.continuationAnswer = none →
      stopsBeforeAnswer (cb.generation 0).chunks = false) (prompt : String) :
    Spec (Prepared v prepared.turnId) (answerTurn cb prepared prompt)
      (fun res r => match res with
        | none => Failed v r
        | some e => Final v prepared e r)
      (fun _ r => Live v prepared.turnId r) := by
  unfold answerTurn
  refine Spec.bind (M := fun _ r => Prepared v prepared.turnId r ∧ cb.monitor = none)
    (await_spec (fun hm r h => ⟨h, hm⟩) fun _ _ h => Sees.live h) fun _ => ?_
  refine Spec.assume fun hmonitor => ?_
  refine opening_speaks hchat hsources hne ?_
  refine (resumeAnswer_speaks hchat _).bind fun st => ?_
  refine Spec.assume fun hst => ?_
  refine Spec.bind (answerLoop_speaks hchat hdraft prompt _ 0 _ st ?_) fun res => ?_
  · by_cases hcont : prepared.continuationAnswer = none
    · exact Or.inr (hanswers hmonitor hcont)
    · exact Or.inl (hst.mpr hcont)
  · cases res with
    | none => exact Spec.pure fun _ h => h
    | some parts => exact validateAnswer_speaks hchat hdraft hsources parts

/-! ## The generation that stops before its answer -/

theorem stable_rejected (prepared : PreparedChatTurn) : Stable prepared (Rejected v) where
  event e _ h := h.event _ _ e
  draft _ _ _ h := h

/-- Such a generation is read to its stop, with the reasoning still open. -/
theorem readChunks_stops (hchat : prepared.chatId = v.expected.chatId) (raised : Option Raised) :
    ∀ (chunks : List GenerationChunk) (st : Answering), stopsBeforeAnswer chunks = true →
      st.answerStarted = false →
      Spec (Speaks v prepared st) (readChunks prepared true raised chunks st)
        (fun res r => (∃ points, Sees v prepared.turnId .reasoningActive (some prepared.streamed)
          points r) ∧ res.1 = some .stop) R
  | .thinking text :: rest, st, hstops, hst => by
    rw [readChunks]
    refine Spec.bind (M := fun _ => Speaks v prepared st)
      (Spec.when (fun hguard => ?_) fun _ _ h => h) fun _ => ?_
    · rw [hst] at hguard
      exact absurd hguard (by simp)
    · refine (showReasoning_speaks hchat text.1 hst).bind fun st' => ?_
      exact Spec.assume fun hst' => readChunks_stops hchat raised rest st' hstops hst'
  | .done .stop usage :: rest, st, hstops, hst => by
    rw [readChunks]
    refine Spec.bind (M := fun _ => Speaks v prepared st) ?_ fun _ => ?_
    · cases hu : validateGenerationUsage usage with
      | ok a => exact Spec.pure fun _ h => h
      | error e =>
        rw [stopsBeforeAnswer, hu] at hstops
        exact absurd hstops (by simp [Except.isOk, Except.toBool])
    · refine Spec.pure fun r h => ⟨?_, rfl⟩
      have hsees := h.2
      rw [hst] at hsees
      exact ⟨_, hsees⟩

theorem answerTurn_rejected (hchat : prepared.chatId = v.expected.chatId)
    (hsources : SourcesOk prepared.sources) (hne : prepared.sources ≠ [])
    (hmonitor : cb.monitor = none) (hcont : prepared.continuationAnswer = none)
    (hstops : stopsBeforeAnswer (cb.generation 0).chunks = true) (prompt : String) :
    Spec (Prepared v prepared.turnId) (answerTurn cb prepared prompt)
      (fun _ => Rejected v) (fun _ => Rejected v) := by
  unfold answerTurn
  rw [hmonitor, hcont]
  refine Spec.bind (M := fun _ => Prepared v prepared.turnId) (Spec.pure fun _ h => h) fun _ => ?_
  refine opening_speaks hchat hsources hne ?_
  refine Spec.bind (M := fun st r => Speaks v prepared st r ∧ st.answerStarted = false)
    (Spec.pure fun r h => ⟨⟨Nat.zero_le _, h⟩, rfl⟩) fun st => ?_
  refine Spec.assume fun hst => ?_
  refine Spec.bind (M := fun res r => (∃ points, Sees v prepared.turnId .reasoningActive
    (some prepared.streamed) points r) ∧ res.isSome = true) ?_ fun res => ?_
  · show Spec _ (answerLoop cb prepared prompt 1 0 true st) _ _
    rw [answerLoop]
    refine (readChunks_stops hchat _ _ st hstops hst).bind fun res => ?_
    obtain ⟨reason, st'⟩ := res
    refine Spec.assume fun hreason => ?_
    have hreason : reason = some .stop := hreason
    rw [hreason]
    exact Spec.pure fun _ h => ⟨h, rfl⟩
  · refine Spec.assume fun hsome => ?_
    obtain ⟨parts, rfl⟩ := Option.isSome_iff_exists.mp hsome
    -- the status of the validation is the frame that is rejected
    show Spec _ (validateAnswer cb prepared parts) _ _
    unfold validateAnswer
    refine Spec.bind (M := fun _ => Rejected v)
      (event_spec hchat fun _ h => h.elim fun _ hsees => hsees.rejects) fun _ => ?_
    split
    · refine (keeps_repairCitations (stable_rejected prepared).calm _).bind fun res => ?_
      rcases res with _ | ⟨repaired, cited⟩
      · exact Keeps.pure _
      · exact (keeps_finalizeAnswer _ _).bind fun _ => Keeps.pure _
    · exact (keeps_finalizeAnswer _ _).bind fun _ => Keeps.pure _

end Service

end LocalRag.Stream
