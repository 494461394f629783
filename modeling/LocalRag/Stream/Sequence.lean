import LocalRag.Stream.Service

/-!
# The numbers of a response

The client rejects a stream at the first number that is not the next one
(`assertEnvelope`). The service counts from the number it was given and never
loses count (`Counts`, kept by every statement of it); the route's own counter
stands still meanwhile. So the numbers are right whenever the route has nothing
to say after the service has spoken, and that fails in one way only: the service
comes to record an error, the transition that records it raises, and the route
records that exception successfully and reports it under the number it had
handed over. `Overruled` is that event, in terms of what the callbacks answered,
and `numbered_iff` shows there is no other.
-/

namespace LocalRag.Stream

open LocalRag.Core

/-! ## What the service may do to a response -/

/-- Kept by the two changes the `try` block of the service makes. -/
structure Stable (prepared : PreparedChatTurn) (I : Response → Prop) : Prop where
  event : ∀ e r, I r → I (numbered prepared.chatId prepared.turnId e r)
  draft : ∀ status raised r, I r → I (recorded .draft status raised r)

/-- An event that shows reasoning or ends it. -/
def Event.reasons : Event → Bool
  | .reasoningDelta _ | .reasoningEnd _ => true
  | _ => false

/-- Kept by those changes, as long as no event shows reasoning or ends it. -/
structure Calm (prepared : PreparedChatTurn) (I : Response → Prop) : Prop where
  event : ∀ e, e.reasons = false → ∀ r, I r → I (numbered prepared.chatId prepared.turnId e r)
  draft : ∀ status raised r, I r → I (recorded .draft status raised r)

theorem Stable.calm {prepared : PreparedChatTurn} {I : Response → Prop} (h : Stable prepared I) :
    Calm prepared I := ⟨fun e _ => h.event e, h.draft⟩

theorem keeps_await {I : Response → Prop} (answer : Option Raised) : Keeps I (await answer) := by
  cases answer with
  | none => exact Keeps.pure ()
  | some r => exact Keeps.throw r

theorem keeps_attempt {I : Response → Prop} {α : Type} (x : Except Raised α) :
    Keeps I (attempt x) := by
  cases x with
  | ok a => exact Keeps.pure a
  | error r => exact Keeps.throw r

theorem keeps_raiseIf {I : Response → Prop} (p : Prop) [Decidable p] (r : Raised) :
    Keeps I (Gen.when p (throw r) : Body Unit) :=
  Keeps.when (Keeps.throw r)

variable {status : TurnStatus}

theorem keeps_transition {I : Response → Prop} {recorder : Recorder} {answer : Option Raised}
    (h : ∀ r, I r → I (recorded recorder status answer r)) :
    Keeps I (transition recorder status answer) :=
  (Keeps.update h).bind fun _ => keeps_await answer

section

variable {cb : Callbacks} {prepared : PreparedChatTurn} {I : Response → Prop}

theorem keeps_serviceEvent (hI : Stable prepared I) (e : Event) :
    Keeps I (serviceEvent prepared e) :=
  Keeps.update (hI.event e)

theorem keeps_calmEvent (hI : Calm prepared I) {e : Event} (he : e.reasons = false) :
    Keeps I (serviceEvent prepared e) :=
  Keeps.update (hI.event e he)

theorem keeps_showReasoning (hI : Stable prepared I) (text : String) (st : Answering) :
    Keeps I (showReasoning prepared text st) := by
  unfold showReasoning
  exact (Keeps.when (keeps_serviceEvent hI _)).bind fun _ => Keeps.pure _

theorem keeps_startAnswer (hI : Stable prepared I) (st : Answering) :
    Keeps I (startAnswer prepared st) := by
  unfold startAnswer
  split
  · exact Keeps.pure _
  · exact (keeps_serviceEvent hI _).bind fun _ => (keeps_serviceEvent hI _).bind fun _ => Keeps.pure _

theorem keeps_readChunks (hI : Stable prepared I) (thinks : Bool) (raised : Option Raised)
    (chunks : List GenerationChunk) :
    ∀ st, Keeps I (readChunks prepared thinks raised chunks st) := by
  induction chunks with
  | nil =>
    intro st
    rw [readChunks]
    exact (keeps_await raised).bind fun _ => Keeps.pure _
  | cons chunk rest ih =>
    intro st
    cases chunk with
    | done reason usage =>
      rw [readChunks]
      exact (keeps_attempt _).bind fun _ => Keeps.pure _
    | thinking text =>
      rw [readChunks]
      refine Spec.bind (keeps_raiseIf _ _) fun _ => ?_
      exact (keeps_showReasoning hI _ _).bind fun st => ih st
    | answer text =>
      rw [readChunks]
      exact (keeps_startAnswer hI _).bind fun st => (keeps_serviceEvent hI _).bind fun _ => ih _

theorem keeps_answerLoop (hI : Stable prepared I) (basePrompt : String) (continuations : Nat) :
    ∀ call thinks st, Keeps I (answerLoop cb prepared basePrompt continuations call thinks st) := by
  induction continuations with
  | zero =>
    intro call thinks st
    rw [answerLoop]
    refine (keeps_readChunks hI _ _ _ _).bind fun res => ?_
    match res with
    | (none, st) => exact Keeps.throw _
    | (some .stop, st) => exact Keeps.pure _
    | (some .length, st) =>
      refine (keeps_startAnswer hI _).bind fun st => ?_
      refine Spec.bind (keeps_raiseIf _ _) fun _ => ?_
      refine Spec.bind (keeps_transition (hI.draft _ _)) fun _ => ?_
      refine (keeps_serviceEvent hI _).bind fun _ => ?_
      exact Keeps.pure _
  | succ continuations ih =>
    intro call thinks st
    rw [answerLoop]
    refine (keeps_readChunks hI _ _ _ _).bind fun res => ?_
    match res with
    | (none, st) => exact Keeps.throw _
    | (some .stop, st) => exact Keeps.pure _
    | (some .length, st) =>
      refine (keeps_startAnswer hI _).bind fun st => ?_
      refine (keeps_serviceEvent hI _).bind fun _ => ?_
      refine Spec.bind (keeps_attempt _) fun _ => ?_
      exact ih _ _ _

theorem keeps_readRepair (hI : Calm prepared I) (raised : Option Raised)
    (chunks : List GenerationChunk) :
    ∀ parts, Keeps I (readRepair prepared raised chunks parts) := by
  induction chunks with
  | nil =>
    intro parts
    rw [readRepair]
    exact (keeps_await raised).bind fun _ => Keeps.pure _
  | cons chunk rest ih =>
    intro parts
    cases chunk with
    | done reason usage =>
      rw [readRepair]
      exact (keeps_attempt _).bind fun _ => Keeps.pure _
    | thinking text =>
      rw [readRepair]
      exact Keeps.throw _
    | answer text =>
      rw [readRepair]
      exact (keeps_calmEvent hI rfl).bind fun _ => ih _

theorem keeps_concludeRepair (hI : Calm prepared I) (repairedAnswer : String)
    (cited : Option (List ChatSourceSnapshot)) :
    Keeps I (concludeRepair cb prepared repairedAnswer cited) := by
  cases cited with
  | none =>
    refine Spec.bind (keeps_transition (hI.draft _ _)) fun _ => ?_
    exact (keeps_calmEvent hI rfl).bind fun _ => Keeps.pure _
  | some cited => exact (keeps_calmEvent hI rfl).bind fun _ => Keeps.pure _

theorem keeps_repairCitations (hI : Calm prepared I) (answer : String) :
    Keeps I (repairCitations cb prepared answer) := by
  unfold repairCitations
  refine (keeps_calmEvent hI rfl).bind fun _ => ?_
  refine (keeps_calmEvent hI rfl).bind fun _ => ?_
  refine Spec.bind (keeps_attempt _) fun _ => ?_
  exact (keeps_readRepair hI _ _ _).bind fun _ => keeps_concludeRepair hI _ _

theorem keeps_finalizeAnswer (answer : String) (cited : Option (List ChatSourceSnapshot)) :
    Keeps I (finalizeAnswer cb answer cited) := by
  unfold finalizeAnswer
  refine Spec.bind (keeps_raiseIf _ _) fun _ => ?_
  refine Spec.bind (keeps_attempt _) fun _ => ?_
  exact Keeps.pure _

theorem keeps_validateAnswer (hI : Calm prepared I) (parts : List String) :
    Keeps I (validateAnswer cb prepared parts) := by
  unfold validateAnswer
  refine (keeps_calmEvent hI rfl).bind fun _ => ?_
  split
  · refine (keeps_repairCitations hI _).bind fun res => ?_
    match res with
    | none => exact Keeps.pure _
    | some (repaired, cited) => exact Spec.bind (keeps_finalizeAnswer _ _) fun _ => Keeps.pure _
  · exact Spec.bind (keeps_finalizeAnswer _ _) fun _ => Keeps.pure _

theorem keeps_resumeAnswer (hI : Stable prepared I) (continuationAnswer : Option String) :
    Keeps I (resumeAnswer prepared continuationAnswer) := by
  cases continuationAnswer with
  | none => exact Keeps.pure _
  | some text =>
    exact (keeps_serviceEvent hI _).bind fun _ => (keeps_serviceEvent hI _).bind fun _ =>
      (keeps_serviceEvent hI _).bind fun _ => (keeps_serviceEvent hI _).bind fun _ => Keeps.pure _

/-- The part of the `try` block after the first monitor call. -/
def answerMonitored (cb : Callbacks) (prepared : PreparedChatTurn) (prompt : String) :
    Body (Option FinalEvent) := do
  serviceEvent prepared (.status .reasoning)
  serviceEvent prepared .reasoningStart
  let st ← resumeAnswer prepared prepared.continuationAnswer
  let fresh := prepared.continuationAnswer.isNone
  match ← answerLoop cb prepared prompt (if fresh then 1 else 0) 0 fresh st with
  | none => return none
  | some parts => validateAnswer cb prepared parts

theorem answerTurn_eq (prompt : String) :
    answerTurn cb prepared prompt = (await cb.monitor >>= fun _ =>
      serviceEvent prepared (.sources (prepared.sources.map (·.payload))) >>=
        fun _ => answerMonitored cb prepared prompt) := rfl

theorem keeps_answerMonitored (hI : Stable prepared I) (prompt : String) :
    Keeps I (answerMonitored cb prepared prompt) := by
  unfold answerMonitored
  refine (keeps_serviceEvent hI _).bind fun _ => (keeps_serviceEvent hI _).bind fun _ =>
    (keeps_resumeAnswer hI _).bind fun st => (keeps_answerLoop hI _ _ _ _ _).bind fun res => ?_
  cases res with
  | none => exact Keeps.pure _
  | some parts => exact keeps_validateAnswer hI.calm parts

end

/-! ## The service never loses count -/

/-- The numbers run on from `start`, and the counter stands at the next one. -/
structure Counts (start : Nat) (r : Response) : Prop where
  next : r.sequence = start + r.frames.length
  seqs : r.frames.map (·.seq) = List.range' start r.frames.length

theorem counts_nil (start : Nat) (transitions : List Recorded) :
    Counts start ⟨start, [], transitions⟩ := ⟨rfl, rfl⟩

theorem Counts.numbered {start : Nat} {r : Response} (h : Counts start r) (chatId : ChatId)
    (turnId : TurnId) (e : Event) : Counts start (numbered chatId turnId e r) := by
  refine ⟨?_, ?_⟩
  · show r.sequence + 1 = start + (r.frames ++ [_]).length
    rw [h.next, List.length_append, List.length_singleton]
    omega
  · show (r.frames ++ [_]).map Frame.seq = List.range' start (r.frames ++ [_]).length
    rw [List.map_append, h.seqs, List.length_append, List.length_singleton, List.range'_1_concat,
      List.map_singleton, h.next]

variable {r : Response}

theorem Counts.recorded {start : Nat} (h : Counts start r) (recorder : Recorder)
    (status : TurnStatus) (raised : Option Raised) :
    Counts start (recorded recorder status raised r) := ⟨h.next, h.seqs⟩

theorem stable_counts (prepared : PreparedChatTurn) (start : Nat) :
    Stable prepared (Counts start) where
  event e _ h := h.numbered _ _ e
  draft status raised _ h := h.recorded .draft status raised

/-- Only the answer's own end has been recorded. -/
def DraftsOnly (r : Response) : Prop := ∀ t ∈ r.transitions, t.recorder = .draft

theorem stable_draftsOnly (prepared : PreparedChatTurn) : Stable prepared DraftsOnly where
  event _ _ h := h
  draft status raised r h := by
    intro t ht
    rcases List.mem_append.mp ht with ht | ht
    · exact h t ht
    · rw [List.mem_singleton.mp ht]

theorem stable_nonempty (prepared : PreparedChatTurn) :
    Stable prepared fun r => r.frames ≠ [] where
  event e r _ := by
    show r.frames ++ [_] ≠ []
    simp
  draft _ _ _ h := h

theorem Stable.and {prepared : PreparedChatTurn} {I J : Response → Prop} (hI : Stable prepared I)
    (hJ : Stable prepared J) : Stable prepared fun r => I r ∧ J r where
  event e r h := ⟨hI.event e r h.1, hJ.event e r h.2⟩
  draft status raised r h := ⟨hI.draft status raised r h.1, hJ.draft status raised r h.2⟩

/-- The `try` block, from nothing: it keeps count, records at most a draft, and
has said something exactly if the first monitor call returned. -/
theorem answerTurn_counts (cb : Callbacks) (prepared : PreparedChatTurn) (prompt : String)
    (start : Nat) :
    Spec (fun r => r = ⟨start, [], []⟩) (answerTurn cb prepared prompt)
      (fun _ r => Counts start r ∧ DraftsOnly r)
      (fun _ r => (Counts start r ∧ DraftsOnly r) ∧ (cb.monitor = none ↔ r.frames ≠ [])) := by
  rw [answerTurn_eq]
  cases hm : cb.monitor with
  | some raised =>
    refine ⟨fun r hr => ?_⟩
    subst hr
    exact ⟨⟨counts_nil start [], by simp [DraftsOnly]⟩, by simp⟩
  | none =>
    have hstable := ((stable_counts prepared start).and (stable_draftsOnly prepared)).and
      (stable_nonempty prepared)
    have hfirst : Spec (fun r => r = ⟨start, [], []⟩)
        (serviceEvent prepared (.sources (prepared.sources.map (·.payload))))
        (fun _ r => (Counts start r ∧ DraftsOnly r) ∧ r.frames ≠ [])
        (fun _ r => (Counts start r ∧ DraftsOnly r) ∧ r.frames ≠ []) := by
      refine Spec.update fun r hr => ?_
      subst hr
      refine ⟨⟨(counts_nil start []).numbered _ _ _, ?_⟩, ?_⟩
      · exact (stable_draftsOnly prepared).event _ _ (by simp [DraftsOnly])
      · simp [numbered]
    have hrest := hfirst.bind fun _ => @keeps_answerMonitored cb prepared _ hstable prompt
    refine (Spec.bind (M := fun _ r => r = ⟨start, [], []⟩) (Spec.pure fun _ hs => hs)
      fun _ => hrest).conseq (fun _ hs => hs) (fun _ _ h => h.1) fun _ _ h => ⟨h.1, ?_⟩
    exact iff_of_true rfl h.2

/-! ## What the service may leave behind -/

/-- The service's own record of an error raised an exception, after it had said
something. -/
def RecordLost (cb : Callbacks) (transitions : List Recorded) : Prop :=
  cb.monitor = none ∧
    ∃ status raised, ⟨.service, status, some raised⟩ ∈ transitions ∧ raised.isException = true

/-- The service ended by raising `raised`. -/
structure ServiceRaised (cb : Callbacks) (start : Nat) (raised : Raised) (r : Response) :
    Prop where
  counts : Counts start r
  quiet : ∀ t ∈ r.transitions, t.recorder ≠ .route
  lost : raised.isException = true → (RecordLost cb r.transitions ↔ r.frames ≠ [])
  kept : raised.isException = false → ¬ RecordLost cb r.transitions

variable {raised : Option Raised}

/-- Nothing but drafts before one record of the service: that record decides. -/
theorem recordLost_recorded {cb : Callbacks} (h : DraftsOnly r) :
    RecordLost cb (recorded .service status raised r).transitions ↔
      cb.monitor = none ∧ ∃ x, raised = some x ∧ x.isException = true := by
  refine and_congr_right fun _ => ?_
  constructor
  · intro hex
    obtain ⟨status', x, hmem, hx⟩ := hex
    rcases List.mem_append.mp hmem with hold | hnew
    · exact absurd (h _ hold) (by simp)
    · have heq := List.mem_singleton.mp hnew
      simp only [Recorded.mk.injEq] at heq
      exact ⟨x, heq.2.2.symm, hx⟩
  · intro hex
    obtain ⟨x, rfl, hx⟩ := hex
    exact ⟨status, x, List.mem_append_right _ (by simp), hx⟩

theorem quiet_recorded (h : DraftsOnly r) (status : TurnStatus) (raised : Option Raised) :
    ∀ t ∈ (recorded .service status raised r).transitions, t.recorder ≠ .route := by
  intro t ht
  rcases List.mem_append.mp ht with ht | ht
  · rw [h t ht]
    simp
  · rw [List.mem_singleton.mp ht]
    simp

/-- The record of an error, when it is asked for. -/
theorem transition_service (cb : Callbacks) (start : Nat) (status : TurnStatus) :
    Spec (fun r => (Counts start r ∧ DraftsOnly r) ∧ (cb.monitor = none ↔ r.frames ≠ []))
      (transition .service status cb.service)
      (fun _ r => (Counts start r ∧ ∀ t ∈ r.transitions, t.recorder ≠ .route) ∧
        ¬ RecordLost cb r.transitions)
      (ServiceRaised cb start) := by
  refine ⟨fun r hr => ?_⟩
  obtain ⟨⟨hcounts, hdrafts⟩, hsaid⟩ := hr
  cases hs : cb.service with
  | none =>
    refine ⟨⟨hcounts.recorded _ _ _, quiet_recorded hdrafts status none⟩, ?_⟩
    rw [recordLost_recorded hdrafts]
    simp
  | some x =>
    refine ⟨hcounts.recorded _ _ _, quiet_recorded hdrafts status (some x), ?_, ?_⟩
    · intro hx
      rw [recordLost_recorded hdrafts]
      exact ⟨fun h => hsaid.mp h.1, fun h => ⟨hsaid.mpr h, x, rfl, hx⟩⟩
    · intro hx hlost
      obtain ⟨_, y, hy, hyx⟩ := (recordLost_recorded hdrafts).mp hlost
      obtain rfl := Option.some.inj hy
      rw [hx] at hyx
      exact absurd hyx (by simp)

theorem recordFailure_counts (cb : Callbacks) (prepared : PreparedChatTurn) (start : Nat)
    (raised : Raised) :
    Spec (fun r => (Counts start r ∧ DraftsOnly r) ∧ (cb.monitor = none ↔ r.frames ≠ []))
      (recordFailure cb prepared raised)
      (fun _ r => Counts start r ∧ ∀ t ∈ r.transitions, t.recorder ≠ .route)
      (ServiceRaised cb start) := by
  have hreport : ∀ status e, Spec
      (fun r => (Counts start r ∧ DraftsOnly r) ∧ (cb.monitor = none ↔ r.frames ≠ []))
      (transition .service status cb.service >>= fun _ =>
        serviceEvent prepared e >>= fun _ => (pure none : Body (Option FinalEvent)))
      (fun _ r => Counts start r ∧ ∀ t ∈ r.transitions, t.recorder ≠ .route)
      (ServiceRaised cb start) := by
    intro status e
    refine (transition_service cb start status).bind fun _ => ?_
    refine Spec.bind (M := fun _ r => Counts start r ∧ ∀ t ∈ r.transitions, t.recorder ≠ .route)
      (Spec.update fun r h => ⟨h.1.1.numbered _ _ _, h.1.2⟩) fun _ => ?_
    exact Spec.pure fun _ h => h
  have hreraise : raised.isException = false → Spec
      (fun r => (Counts start r ∧ DraftsOnly r) ∧ (cb.monitor = none ↔ r.frames ≠ []))
      (transition .service .interrupted cb.service >>= fun _ =>
        (throw raised : Body (Option FinalEvent)))
      (fun _ r => Counts start r ∧ ∀ t ∈ r.transitions, t.recorder ≠ .route)
      (ServiceRaised cb start) := by
    intro hx
    refine (transition_service cb start _).bind fun _ => ?_
    refine Spec.throw fun r h => ⟨h.1.1, h.1.2, ?_, fun _ => h.2⟩
    intro hx'
    rw [hx] at hx'
    exact absurd hx' (by simp)
  cases raised with
  | cancelled => exact hreraise rfl
  | generatorExit => exact hreraise rfl
  | accessRevoked => exact hreport _ _
  | http statusCode detail => exact hreport _ _
  | exception className message => exact hreport _ _

/-- `ChatService.stream`, from nothing. -/
theorem serviceStream_counts (cb : Callbacks) (prepared : PreparedChatTurn) (start : Nat) :
    Spec (fun r => r = ⟨start, [], []⟩) (serviceStream cb prepared)
      (fun _ r => Counts start r ∧ ∀ t ∈ r.transitions, t.recorder ≠ .route)
      (ServiceRaised cb start) := by
  have hstart : ∀ r, r = (⟨start, [], []⟩ : Response) →
      Counts start r ∧ ∀ t ∈ r.transitions, t.recorder ≠ .route := by
    intro r hr
    subst hr
    exact ⟨counts_nil start [], by simp⟩
  have hevent : ∀ e, Spec (fun r => Counts start r ∧ ∀ t ∈ r.transitions, t.recorder ≠ .route)
      (serviceEvent prepared e)
      (fun _ r => Counts start r ∧ ∀ t ∈ r.transitions, t.recorder ≠ .route)
      (ServiceRaised cb start) := fun e =>
    Spec.update fun _ h => ⟨h.1.numbered _ _ _, h.2⟩
  unfold serviceStream
  split
  · exact (hevent _).conseq hstart (fun _ _ h => h) fun _ _ h => h
  · split
    · exact ((hevent _).bind fun _ => (hevent _).bind fun _ => hevent _).conseq hstart
        (fun _ _ h => h) fun _ _ h => h
    next prompt _ =>
      refine Spec.bind (M := fun _ r => Counts start r ∧ ∀ t ∈ r.transitions, t.recorder ≠ .route)
        (Spec.tryCatch ?_ (recordFailure_counts cb prepared start)) fun res => ?_
      · refine (answerTurn_counts cb prepared prompt start).conseq (fun _ h => h) ?_ fun _ _ h => h
        intro _ r h
        refine ⟨h.1, fun t ht => ?_⟩
        rw [h.2 t ht]
        simp
      · cases res with
        | none => exact Spec.pure fun _ h => h
        | some final => exact hevent _

/-! ## The route -/

/-- The numbers are 1, 2, 3, … in the order of the frames. -/
def Numbered (frames : List Frame) : Prop :=
  frames.map (·.seq) = List.range' 1 frames.length

instance (frames : List Frame) : Decidable (Numbered frames) := by
  unfold Numbered
  infer_instance

/-- The service's record of an error raised an exception after the service had
said something, and the route's record of that exception returned. -/
def Overruled (cb : Callbacks) (transitions : List Recorded) : Prop :=
  RecordLost cb transitions ∧ ∃ status, ⟨.route, status, none⟩ ∈ transitions

/-- The `try` block of the route ended by raising `raised`: the frames are
numbered, and the counter lags behind them if the service lost its record. -/
structure RouteRaised (cb : Callbacks) (raised : Raised) (r : Response) : Prop where
  seqs : Numbered r.frames
  quiet : ∀ t ∈ r.transitions, t.recorder ≠ .route
  lag : raised.isException = true →
    (RecordLost cb r.transitions ↔ r.sequence ≠ r.frames.length + 1)
  kept : raised.isException = false → ¬ RecordLost cb r.transitions

theorem Counts.numbers (h : Counts 1 r) : Numbered r.frames := h.seqs

/-- Before the service starts. -/
theorem Counts.routeRaised {cb : Callbacks} {raised : Raised} (h : Counts 1 r)
    (hempty : r.transitions = []) : RouteRaised cb raised r where
  seqs := h.numbers
  quiet := by simp [hempty]
  lag _ := by
    have hnext := h.next
    refine iff_of_false (by simp [RecordLost, hempty]) (fun hne => hne ?_)
    omega
  kept _ := by simp [RecordLost, hempty]

/-- The frames of the service, put after those of the route. -/
theorem Counts.append {s : Response} (h : Counts 1 r) (hs : Counts r.sequence s) :
    Numbered (r.frames ++ s.frames) := by
  have hnext := h.next
  show (r.frames ++ s.frames).map (·.seq) = List.range' 1 (r.frames ++ s.frames).length
  rw [List.map_append, h.seqs, hs.seqs, List.length_append, hnext, List.range'_append_1]

theorem forward_numbered (cb : Callbacks) (prepared : PreparedChatTurn) :
    Spec (fun r => Counts 1 r ∧ r.transitions = []) (forward (serviceStream cb prepared))
      (fun _ r => Numbered r.frames ∧ ∀ t ∈ r.transitions, t.recorder ≠ .route)
      (RouteRaised cb) := by
  refine ⟨fun r hr => ?_⟩
  obtain ⟨hcounts, hempty⟩ := hr
  have hexit := (serviceStream_counts cb prepared r.sequence).exits _ rfl
  unfold forward
  match serviceStream cb prepared ⟨r.sequence, [], []⟩, hexit with
  | (.ok (), s), hexit =>
    refine ⟨hcounts.append hexit.1, ?_⟩
    rw [hempty, List.nil_append]
    exact hexit.2
  | (.error raised, s), hexit =>
    have hexit : ServiceRaised cb r.sequence raised s := hexit
    refine ⟨hcounts.append hexit.counts, ?_, fun hx => ?_, fun hx => ?_⟩
    · rw [hempty, List.nil_append]
      exact hexit.quiet
    · -- the route's counter is still where the service started
      have hnext := hcounts.next
      show RecordLost cb (r.transitions ++ s.transitions) ↔
        r.sequence ≠ (r.frames ++ s.frames).length + 1
      rw [hempty, List.nil_append, hexit.lost hx, List.length_append, ← List.length_pos_iff]
      omega
    · rw [hempty, List.nil_append]
      exact hexit.kept hx

theorem prepareAndStream_numbered (cb : Callbacks) (prep : Preparation) (begin : BeginTurn) :
    Spec (fun r => Counts 1 r ∧ r.transitions = []) (prepareAndStream cb prep begin)
      (fun _ r => Numbered r.frames ∧ ∀ t ∈ r.transitions, t.recorder ≠ .route)
      (RouteRaised cb) := by
  have hevent : ∀ e, Spec (fun r => Counts 1 r ∧ r.transitions = []) (routeEvent begin e)
      (fun _ r => Counts 1 r ∧ r.transitions = []) (RouteRaised cb) := fun e =>
    Spec.update fun _ h => ⟨h.1.numbered _ _ _, h.2⟩
  have hawait : ∀ answer, Spec (fun r => Counts 1 r ∧ r.transitions = []) (await answer)
      (fun _ r => Counts 1 r ∧ r.transitions = []) (RouteRaised cb) := fun answer =>
    (keeps_await answer).conseq (fun _ h => h) (fun _ _ h => h) fun _ _ h => h.1.routeRaised h.2
  have hattempt : ∀ {α : Type} (x : Except Raised α),
      Spec (fun r => Counts 1 r ∧ r.transitions = []) (attempt x)
        (fun _ r => Counts 1 r ∧ r.transitions = []) (RouteRaised cb) := fun x =>
    (keeps_attempt x).conseq (fun _ h => h) (fun _ _ h => h) fun _ _ h => h.1.routeRaised h.2
  unfold prepareAndStream
  refine (hevent _).bind fun _ => ?_
  split
  · exact (hevent _).bind fun _ => (hevent _).bind fun _ => forward_numbered cb _
  · refine (hawait _).bind fun _ => ?_
    refine (hawait _).bind fun _ => ?_
    refine (hevent _).bind fun _ => ?_
    refine (hawait _).bind fun _ => ?_
    refine (hevent _).bind fun _ => ?_
    refine (hattempt _).bind fun snapshot => ?_
    refine (hattempt _).bind fun prepared => ?_
    refine (hawait _).bind fun _ => ?_
    exact forward_numbered cb prepared

/-- A record of the route leaves the service's records as they were. -/
theorem recordLost_route {cb : Callbacks} :
    RecordLost cb (recorded .route status raised r).transitions ↔ RecordLost cb r.transitions := by
  refine and_congr_right fun _ => exists_congr fun status' => exists_congr fun x =>
    and_congr_left fun _ => ?_
  show _ ∈ r.transitions ++ [_] ↔ _
  simp

/-- The route's record is the only one of its kind. -/
theorem overruled_recorded {cb : Callbacks} (hquiet : ∀ t ∈ r.transitions, t.recorder ≠ .route) :
    Overruled cb (recorded .route status raised r).transitions ↔
      RecordLost cb r.transitions ∧ raised = none := by
  refine and_congr recordLost_route ?_
  constructor
  · intro hex
    obtain ⟨status', hmem⟩ := hex
    rcases List.mem_append.mp hmem with hold | hnew
    · exact absurd rfl (hquiet _ hold)
    · have heq := List.mem_singleton.mp hnew
      simp only [Recorded.mk.injEq] at heq
      exact heq.2.2.symm
  · intro hnone
    subst hnone
    exact ⟨status, List.mem_append_right _ (by simp)⟩

theorem not_overruled {cb : Callbacks} (hquiet : ∀ t ∈ r.transitions, t.recorder ≠ .route) :
    ¬ Overruled cb r.transitions := by
  intro hover
  obtain ⟨_, _, hmem⟩ := hover
  exact hquiet _ hmem rfl

/-- One more frame is in order exactly if the counter stood at the next number. -/
theorem numbered_append (h : Numbered r.frames) (chatId : ChatId) (turnId : TurnId) (e : Event) :
    Numbered (numbered chatId turnId e r).frames ↔ r.sequence = r.frames.length + 1 := by
  show (r.frames ++ [_]).map Frame.seq = List.range' 1 (r.frames ++ [_]).length ↔ _
  rw [List.map_append, show r.frames.map Frame.seq = _ from h, List.length_append,
    List.length_singleton, List.range'_1_concat, List.append_cancel_left_eq, List.map_singleton,
    List.singleton_inj]
  show r.sequence = 1 + r.frames.length ↔ _
  omega

/-- The route records an exception, then reports it. -/
theorem report_numbered {cb : Callbacks} {raised : Raised} (hx : raised.isException = true)
    (begin : BeginTurn) (status : TurnStatus) (answer : Option Raised) (e : Event) :
    Spec (RouteRaised cb raised)
      (transition .route status answer >>= fun _ => routeEvent begin e)
      (fun _ r => Numbered r.frames ↔ ¬ Overruled cb r.transitions)
      (fun _ r => Numbered r.frames ↔ ¬ Overruled cb r.transitions) := by
  refine ⟨fun r hr => ?_⟩
  cases answer with
  | some y =>
    refine iff_of_true hr.seqs ?_
    rw [overruled_recorded hr.quiet]
    simp
  | none =>
    show Numbered (numbered begin.chatId begin.turnId e
      (recorded .route status none r)).frames ↔ ¬ Overruled cb (recorded .route status none
        r).transitions
    rw [numbered_append (r := recorded .route status none r) hr.seqs,
      overruled_recorded hr.quiet, and_iff_left rfl, hr.lag hx]
    exact not_not.symm

theorem recordRouteFailure_numbered (cb : Callbacks) (begin : BeginTurn) (raised : Raised) :
    Spec (RouteRaised cb raised) (recordRouteFailure cb begin raised)
      (fun _ r => Numbered r.frames ↔ ¬ Overruled cb r.transitions)
      (fun _ r => Numbered r.frames ↔ ¬ Overruled cb r.transitions) := by
  have hreraise : raised.isException = false → Spec (RouteRaised cb raised)
      (Gen.when (¬ begin.alreadyComplete ∧ begin.token.isSome)
        (transition .route .interrupted cb.route) >>= fun _ => (throw raised : Body Unit))
      (fun _ r => Numbered r.frames ↔ ¬ Overruled cb r.transitions)
      (fun _ r => Numbered r.frames ↔ ¬ Overruled cb r.transitions) := by
    intro hx
    have hkeeps : Keeps (fun r => Numbered r.frames ∧ ¬ RecordLost cb r.transitions)
        (transition .route .interrupted cb.route) :=
      keeps_transition fun r h => ⟨h.1, fun hlost => h.2 (recordLost_route.mp hlost)⟩
    have hdone : ∀ r : Response, Numbered r.frames ∧ ¬ RecordLost cb r.transitions →
        (Numbered r.frames ↔ ¬ Overruled cb r.transitions) := fun r h =>
      iff_of_true h.1 fun hover => h.2 hover.1
    refine (Spec.bind (Keeps.when hkeeps) fun _ => Keeps.throw raised).conseq ?_
      (fun _ => hdone) fun _ => hdone
    exact fun r h => ⟨h.seqs, h.kept hx⟩
  cases raised with
  | cancelled => exact hreraise rfl
  | generatorExit => exact hreraise rfl
  | accessRevoked => exact report_numbered rfl begin _ _ _
  | http statusCode detail =>
    show Spec _ (if statusCode ∈ [401, 403, 404] then revokeTrusted cb begin
      else failTurn cb begin (boundedText detail "generation failed")) _ _
    split
    · exact @report_numbered cb (.http statusCode detail) rfl begin _ _ _
    · exact @report_numbered cb (.http statusCode detail) rfl begin _ _ _
  | exception className message => exact report_numbered rfl begin _ _ _

/-- For every response: its numbers are 1, 2, 3, … exactly if the route did not
report an exception that the service's own record of an error had raised. -/
theorem numbered_iff (cb : Callbacks) (prep : Preparation) (begin : BeginTurn) :
    Numbered (respond cb prep begin).2.frames ↔
      ¬ Overruled cb (respond cb prep begin).2.transitions := by
  have hspec : Spec (fun r => Counts 1 r ∧ r.transitions = []) (routeStream cb prep begin)
      (fun _ r => Numbered r.frames ↔ ¬ Overruled cb r.transitions)
      (fun _ r => Numbered r.frames ↔ ¬ Overruled cb r.transitions) := by
    refine Spec.tryCatch ?_ (recordRouteFailure_numbered cb begin)
    refine (prepareAndStream_numbered cb prep begin).conseq (fun _ h => h) ?_ fun _ _ h => h
    exact fun _ r h => iff_of_true h.1 (not_overruled h.2)
  have hexit := hspec.exits ⟨1, [], []⟩ ⟨counts_nil 1 [], rfl⟩
  unfold respond
  match routeStream cb prep begin ⟨1, [], []⟩, hexit with
  | (.ok _, r), hexit => exact hexit
  | (.error _, r), hexit => exact hexit

/-- A new turn over one source. -/
def sampleTurn : BeginTurn := ⟨1, 2, some 3, false, none⟩

def sampleSource : ChatSourceSnapshot :=
  ⟨1, "S1", some 5, some 6, 5, 6, "a.pdf", "a.pdf", "/Reports/a.pdf", 1, 1, none⟩

theorem sourcesOk_sample : SourcesOk [sampleSource] where
  ranks := by
    intro i s hs
    match i with
    | 0 =>
      obtain rfl : sampleSource = s := by simpa using hs
      exact ⟨rfl, by decide⟩
    | i + 1 => exact absurd hs (by simp)
  count := by decide
  named := by decide
  pages := by decide

def samplePreparation : Preparation :=
  { embed := none
    retrieve := none
    rerank := none
    snapshot := .ok ⟨[sampleSource], "prompt", sourcesOk_sample⟩
    available := none }

/-- The generator fails; so does the transition that records it, but not the one
the route then makes. -/
def lostCallbacks : Callbacks :=
  { countTokens := fun _ => 0
    monitor := none
    generation := fun _ => ⟨[], some (runtimeError "generation timed out")⟩
    repair := ⟨[], none⟩
    finalize := .ok ⟨[], []⟩
    draft := none
    service := some (runtimeError "connection is closed")
    route := none }

/-- The error is sent under a number the client has seen. -/
theorem numbers_repeat :
    ¬ Numbered (respond lostCallbacks samplePreparation sampleTurn).2.frames ∧
    (respond lostCallbacks samplePreparation sampleTurn).2.frames.map (·.seq) =
      [1, 2, 3, 4, 5, 6, 4] := by
  decide +kernel

end LocalRag.Stream
