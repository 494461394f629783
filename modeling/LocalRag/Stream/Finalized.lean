import LocalRag.Stream.Accepted
import LocalRag.Workspace.Draft

/-!
# What was streamed is what is kept

The user reads the tokens, and `finalize` stores an answer; the two are collected in different
lists, over up to three generation calls, with an `answer_reset` between them. `Said` is what
the frames say: the text of the tokens since the last reset is the parts collected so far. Every
statement of `ChatService.stream` keeps it, and the answer is those parts, stripped.

The response does not record the calls of `finalize`, so the service is run again with a watch on
them (`streamWatched`): each call with its arguments, its result and the frames
yielded before it. `streamWatched_erases` says that but for the record it is the service.

- `final_finalized`: a final event with an answer follows the one call of `finalize`, which
  returned, has the streamed text for its answer, and cites the sources the answer names.
-/

namespace LocalRag.Stream

open LocalRag.Core
open Workspace (answerText tokenText answerText_append join_append)

/-! ## The calls of `finalize` -/

/-- A call of `finalize`, with what it answered and the frames that were out before it. -/
structure FinalizeCall where
  answer : String
  insufficientContext : Bool
  citations : List ChatSourceSnapshot
  result : Except Raised (List ChatSourceSnapshot)
  emitted : List Frame

structure Watched where
  response : Response
  calls : List FinalizeCall

def responsePart : Part Watched Response where
  get w := w.response
  set r w := { w with response := r }
  get_set _ _ := rfl

/-- A statement of the service that calls no `finalize`. -/
abbrev unwatched {α : Type} (m : Body α) : Gen Watched Raised α := Gen.focus responsePart m

/-- The call goes on record. -/
def called (call : List Frame → FinalizeCall) (w : Watched) : Watched :=
  { w with calls := w.calls ++ [call w.response.frames] }

section Watch

variable (cb : Callbacks) (prepared : PreparedChatTurn)

def finalizeWatched (answer : String) (cited : Option (List ChatSourceSnapshot)) :
    Gen Watched Raised FinalEvent := do
  let insufficient := isExplicitInsufficientContext answer
  unwatched (Gen.when (¬ insufficient ∧ cited = none)
    (throw (runtimeError "citation validation returned no sources")))
  let finalAnswer := if insufficient then insufficientContextAnswer else answer
  let citations := if insufficient then [] else cited.getD []
  Gen.update (called fun emitted =>
    { answer := finalAnswer
      insufficientContext := insufficient
      citations := citations
      result := cb.finalize.map fun detached => citations.map (snapshotFromRow detached)
      emitted := emitted })
  let detached ← unwatched (attempt cb.finalize)
  return {
    answer := finalAnswer
    insufficientContext := insufficient
    citations := citations.map fun s => (snapshotFromRow detached s).payload }

def validateWatched (parts : List String) : Gen Watched Raised (Option FinalEvent) := do
  let answer := strip (String.join parts)
  let cited := validatedSourceRanks answer prepared.sources
  unwatched (serviceEvent prepared (.status .validatingCitations))
  if cited = none ∧ answer ≠ "" ∧ ¬ isExplicitInsufficientContext answer then
    match ← unwatched (repairCitations cb prepared answer) with
    | none => return none
    | some (repaired, repairedCited) => some <$> finalizeWatched cb repaired (some repairedCited)
  else some <$> finalizeWatched cb answer cited

def answerWatched (prompt : String) : Gen Watched Raised (Option FinalEvent) := do
  unwatched (await cb.monitor)
  unwatched (serviceEvent prepared (.sources (prepared.sources.map (·.payload))))
  unwatched (serviceEvent prepared (.status .reasoning))
  unwatched (serviceEvent prepared .reasoningStart)
  let st ← unwatched (resumeAnswer prepared prepared.continuationAnswer)
  let fresh := prepared.continuationAnswer.isNone
  match ← unwatched (answerLoop cb prepared prompt (if fresh then 1 else 0) 0 fresh st) with
  | none => return none
  | some parts => validateWatched cb prepared parts

/-- `ChatService.stream`, with the calls of `finalize` on record. -/
def streamWatched : Gen Watched Raised Unit := do
  if prepared.accessRevoked then
    unwatched (serviceEvent prepared
      (.error "access_revoked" "access to a source was revoked"))
  else
    match (if prepared.alreadyComplete then none else prepared.prompt) with
    | none =>
      unwatched (serviceEvent prepared (.sources (prepared.sources.map (·.payload))))
      unwatched (serviceEvent prepared (.status .validatingCitations))
      unwatched (serviceEvent prepared (.final ⟨insufficientContextAnswer, true, []⟩))
    | some prompt =>
      match ← tryCatch (answerWatched cb prepared prompt)
        (fun r => unwatched (recordFailure cb prepared r)) with
      | none => return ()
      | some final => unwatched (serviceEvent prepared (.final final))

theorem finalizeWatched_erases (answer : String) (cited : Option (List ChatSourceSnapshot)) :
    Erases responsePart (finalizeWatched cb answer cited) (finalizeAnswer cb answer cited) := by
  unfold finalizeWatched finalizeAnswer
  refine Erases.bind (.focus _) fun _ => ?_
  dsimp only
  refine Erases.silent ?_ ?_
  · exact fun _ => rfl
  · exact Erases.bind (.focus _) fun _ => .pure _

theorem validateWatched_erases (parts : List String) :
    Erases responsePart (validateWatched cb prepared parts) (validateAnswer cb prepared parts) := by
  unfold validateWatched validateAnswer
  refine Erases.bind (.focus _) fun _ => ?_
  split
  · refine Erases.bind (.focus _) fun res => ?_
    cases res with
    | none => exact .pure _
    | some repaired => exact Erases.bind (finalizeWatched_erases cb _ _) fun _ => .pure _
  · exact Erases.bind (finalizeWatched_erases cb _ _) fun _ => .pure _

theorem answerWatched_erases (prompt : String) :
    Erases responsePart (answerWatched cb prepared prompt) (answerTurn cb prepared prompt) := by
  unfold answerWatched answerTurn
  refine Erases.bind (.focus _) fun _ => Erases.bind (.focus _) fun _ => ?_
  refine Erases.bind (.focus _) fun _ => Erases.bind (.focus _) fun _ => ?_
  refine Erases.bind (.focus _) fun st => Erases.bind (.focus _) fun res => ?_
  cases res with
  | none => exact .pure _
  | some parts => exact validateWatched_erases cb prepared parts

/-- But for the record, the watched service is the service. -/
theorem streamWatched_erases :
    Erases responsePart (streamWatched cb prepared) (serviceStream cb prepared) := by
  unfold streamWatched serviceStream
  split
  · exact .focus _
  · generalize (if prepared.alreadyComplete then none else prepared.prompt) = prompt
    cases prompt with
    | none => exact Erases.bind (.focus _) fun _ => Erases.bind (.focus _) fun _ => .focus _
    | some prompt =>
      refine Erases.bind (Erases.tryCatch (answerWatched_erases cb prepared _) fun _ => .focus _)
        fun res => ?_
      cases res with
      | none => exact .pure _
      | some final => exact .focus _

end Watch

/-! ## What the frames say -/

/-- No final event yet. -/
def Unsettled (r : Response) : Prop := ∀ f ∈ r.frames, ∀ e, f.event ≠ .final e

/-- The tokens since the last reset are this text, and no final event is out. -/
structure Said (text : String) (r : Response) : Prop where
  streamed : answerText r.frames = text
  unsettled : Unsettled r

section Saying

variable {cb : Callbacks} {prepared : PreparedChatTurn} {text : String} {r : Response}

theorem Unsettled.numbered (h : Unsettled r) {e : Event} (he : ∀ final, e ≠ .final final) :
    Unsettled (numbered prepared.chatId prepared.turnId e r) := by
  intro f hf
  rcases List.mem_append.mp hf with hf | hf
  · exact h f hf
  · rw [List.mem_singleton.mp hf]
    exact he

theorem answerText_numbered (e : Event) (r : Response) :
    answerText (numbered prepared.chatId prepared.turnId e r).frames =
      if e = .answerReset then "" else answerText r.frames ++
        (tokenText ⟨prepared.chatId, prepared.turnId, r.sequence, e⟩).getD "" :=
  answerText_append _ _

/-- An event that is neither text nor an end. -/
def isPlain : Event → Bool
  | .token _ | .answerReset | .final _ => false
  | _ => true

theorem Said.plain (h : Said text r) {e : Event} (he : isPlain e = true) :
    Said text (numbered prepared.chatId prepared.turnId e r) := by
  refine ⟨?_, h.unsettled.numbered fun final hfinal => ?_⟩
  · have hnone : tokenText ⟨prepared.chatId, prepared.turnId, r.sequence, e⟩ = none := by
      cases e <;> first | rfl | exact absurd he (by simp [isPlain])
    have hreset : e ≠ .answerReset := fun h => absurd (h ▸ he) (by decide)
    rw [answerText_numbered, if_neg hreset, hnone, h.streamed]
    exact String.append_empty
  · rw [hfinal] at he
    exact absurd he (by simp [isPlain])

theorem Said.token (h : Said text r) (piece : String) :
    Said (text ++ piece) (numbered prepared.chatId prepared.turnId (.token piece) r) := by
  refine ⟨?_, h.unsettled.numbered fun _ => by simp⟩
  rw [answerText_numbered, if_neg (by simp), h.streamed]
  rfl

theorem Said.reset (h : Said text r) :
    Said "" (numbered prepared.chatId prepared.turnId .answerReset r) := by
  refine ⟨?_, h.unsettled.numbered fun _ => by simp⟩
  rw [answerText_numbered, if_pos rfl]

/-- An exception leaves no final event. -/
def Raises (_ : Raised) (r : Response) : Prop := Unsettled r

theorem plain_said {e : Event} (he : isPlain e = true) :
    Spec (Said text) (serviceEvent prepared e) (fun _ => Said text) Raises :=
  Spec.update fun _ h => h.plain he

theorem attempt_said {α : Type} (x : Except Raised α) :
    Spec (Said text) (attempt x) (fun a r => Said text r ∧ x = .ok a) Raises := by
  cases x with
  | ok a => exact Spec.pure fun _ h => ⟨h, rfl⟩
  | error e => exact Spec.throw fun _ h => h.unsettled

theorem raiseIf_said (p : Prop) [Decidable p] (e : Raised) :
    Spec (Said text) (Gen.when p (throw e) : Body Unit) (fun _ r => Said text r ∧ ¬ p) Raises :=
  Spec.when (fun _ => Spec.throw fun _ h => h.unsettled) fun hp _ h => ⟨h, hp⟩

theorem await_said (answer : Option Raised) :
    Spec (Said text) (await answer) (fun _ => Said text) Raises := by
  cases answer with
  | none => exact Spec.pure fun _ h => h
  | some e => exact Spec.throw fun _ h => h.unsettled

theorem transition_said (status : TurnStatus) (answer : Option Raised) :
    Spec (Said text) (transition .draft status answer) (fun _ => Said text) Raises :=
  Spec.bind (M := fun _ => Said text) (Spec.update fun _ h => ⟨h.streamed, h.unsettled⟩)
    fun _ => await_said answer

/-! ## The bodies -/

theorem showReasoning_said (piece : String) (st : Answering) :
    Spec (Said text) (showReasoning prepared piece st)
      (fun st' r => Said text r ∧ st'.parts = st.parts) Raises := by
  unfold showReasoning
  refine Spec.bind (M := fun _ => Said text) ?_ fun _ => Spec.pure fun _ h => ⟨h, rfl⟩
  exact Spec.when (fun _ => plain_said rfl) fun _ _ h => h

theorem startAnswer_said (st : Answering) :
    Spec (Said text) (startAnswer prepared st)
      (fun st' r => Said text r ∧ st'.parts = st.parts) Raises := by
  unfold startAnswer
  split
  · exact Spec.pure fun _ h => ⟨h, rfl⟩
  · refine Spec.bind (M := fun _ => Said text) (plain_said rfl) fun _ => ?_
    exact Spec.bind (M := fun _ => Said text) (plain_said rfl) fun _ =>
      Spec.pure fun _ h => ⟨h, rfl⟩

/-- The parts are what the frames say. -/
abbrev Collects (parts : List String) (r : Response) : Prop := Said (String.join parts) r

/-- A token and its part. -/
theorem token_collects (parts : List String) (piece : String) :
    Spec (Collects parts) (serviceEvent prepared (.token piece))
      (fun _ => Collects (parts ++ [piece])) Raises := by
  refine Spec.update fun r h => ?_
  have htoken : Said (String.join parts ++ piece)
      (numbered prepared.chatId prepared.turnId (.token piece) r) := h.token piece
  rw [← join_append] at htoken
  exact htoken

theorem readChunks_collects (thinks : Bool) (raised : Option Raised)
    (chunks : List GenerationChunk) :
    ∀ st, Spec (Collects st.parts) (readChunks prepared thinks raised chunks st)
      (fun res => Collects res.2.parts) Raises := by
  induction chunks with
  | nil =>
    intro st
    rw [readChunks]
    exact Spec.bind (M := fun _ => Collects st.parts) (await_said raised) fun _ =>
      Spec.pure fun _ h => h
  | cons chunk rest ih =>
    intro st
    cases chunk with
    | done reason usage =>
      rw [readChunks]
      exact Spec.bind (attempt_said _) fun _ => Spec.pure fun _ h => h.1
    | thinking piece =>
      rw [readChunks]
      refine Spec.bind (raiseIf_said _ _) fun _ => ?_
      refine Spec.bind ((showReasoning_said piece.1 st).conseq (fun _ h => h.1) (fun _ _ h => h)
        fun _ _ h => h) fun st' => ?_
      refine (ih st').conseq (fun r h => ?_) (fun _ _ h => h) fun _ _ h => h
      rw [h.2]
      exact h.1
    | answer piece =>
      rw [readChunks]
      refine Spec.bind (startAnswer_said st) fun st' => ?_
      refine Spec.bind ((token_collects st'.parts piece.1).conseq (fun r h => ?_) (fun _ _ h => h)
        fun _ _ h => h) fun _ => ih { st' with parts := st'.parts ++ [piece.1] }
      rw [h.2]
      exact h.1

theorem answerLoop_collects (basePrompt : String) (continuations : Nat) :
    ∀ call thinks st, Spec (Collects st.parts)
      (answerLoop cb prepared basePrompt continuations call thinks st)
      (fun res r => Unsettled r ∧ ∀ parts, res = some parts → Collects parts r) Raises := by
  induction continuations with
  | zero =>
    intro call thinks st
    rw [answerLoop]
    refine Spec.bind (readChunks_collects _ _ _ _) fun res => ?_
    obtain ⟨reason, st⟩ := res
    cases reason with
    | none => exact Spec.throw fun _ h => h.unsettled
    | some reason =>
      cases reason with
      | stop =>
        refine Spec.pure fun r h => ⟨h.unsettled, fun parts hparts => ?_⟩
        rw [← Option.some.inj hparts]
        exact h
      | length =>
        refine Spec.bind (startAnswer_said st) fun st' => ?_
        refine Spec.bind ((raiseIf_said _ _).conseq (fun _ h => h.1) (fun _ _ h => h)
          fun _ _ h => h) fun _ => ?_
        refine Spec.bind ((transition_said _ _).conseq (fun _ h => h.1) (fun _ _ h => h)
          fun _ _ h => h) fun _ => ?_
        refine Spec.bind (plain_said rfl) fun _ => ?_
        exact Spec.pure fun r h => ⟨h.unsettled, fun _ hparts => absurd hparts (by simp)⟩
  | succ continuations ih =>
    intro call thinks st
    rw [answerLoop]
    refine Spec.bind (readChunks_collects _ _ _ _) fun res => ?_
    obtain ⟨reason, st⟩ := res
    cases reason with
    | none => exact Spec.throw fun _ h => h.unsettled
    | some reason =>
      cases reason with
      | stop =>
        refine Spec.pure fun r h => ⟨h.unsettled, fun parts hparts => ?_⟩
        rw [← Option.some.inj hparts]
        exact h
      | length =>
        refine Spec.bind (startAnswer_said st) fun st' => ?_
        refine Spec.bind (M := fun _ => Collects st'.parts) ((plain_said rfl).conseq (fun r h => ?_)
          (fun _ _ h => h) fun _ _ h => h) fun _ => ?_
        · rw [h.2]
          exact h.1
        · refine Spec.bind (attempt_said _) fun _ => ?_
          exact (ih _ _ _).conseq (fun _ h => h.1) (fun _ _ h => h) fun _ _ h => h

theorem readRepair_collects (raised : Option Raised) (chunks : List GenerationChunk) :
    ∀ parts, Spec (Collects parts) (readRepair prepared raised chunks parts)
      (fun res => Collects res.2) Raises := by
  induction chunks with
  | nil =>
    intro parts
    rw [readRepair]
    exact Spec.bind (M := fun _ => Collects parts) (await_said raised) fun _ =>
      Spec.pure fun _ h => h
  | cons chunk rest ih =>
    intro parts
    cases chunk with
    | done reason usage =>
      rw [readRepair]
      exact Spec.bind (attempt_said _) fun _ => Spec.pure fun _ h => h.1
    | thinking piece =>
      rw [readRepair]
      exact Spec.throw fun _ h => h.unsettled
    | answer piece =>
      rw [readRepair]
      exact Spec.bind (token_collects parts piece.1) fun _ => ih _

/-- The repaired answer is what was streamed since the reset, with the sources it names. -/
def Repaired (prepared : PreparedChatTurn) (res : Option (String × List ChatSourceSnapshot))
    (r : Response) : Prop :=
  Unsettled r ∧ ∀ p, res = some p → ∃ text, Said text r ∧ strip text = p.1 ∧
    validatedSourceRanks p.1 prepared.sources = some p.2

theorem repairCitations_said (answer : String) :
    Spec (Said text) (repairCitations cb prepared answer) (Repaired prepared) Raises := by
  unfold repairCitations
  refine Spec.bind (plain_said rfl) fun _ => ?_
  refine Spec.bind (M := fun _ => Collects []) (Spec.update fun r h => h.reset) fun _ => ?_
  refine Spec.bind (attempt_said _) fun _ => ?_
  refine Spec.bind ((readRepair_collects _ _ _).conseq (fun _ h => h.1) (fun _ _ h => h)
    fun _ _ h => h) fun res => ?_
  cases hcited : (if res.1 = some .stop
      then validatedSourceRanks (strip (String.join res.2)) prepared.sources else none) with
  | none =>
    show Spec _ (concludeRepair cb prepared _ (if res.1 = some .stop
      then validatedSourceRanks (strip (String.join res.2)) prepared.sources else none)) _ _
    rw [hcited]
    refine Spec.bind (transition_said _ _) fun _ => ?_
    refine Spec.bind (plain_said rfl) fun _ => ?_
    exact Spec.pure fun r h => ⟨h.unsettled, fun _ hp => absurd hp (by simp)⟩
  | some cited =>
    show Spec _ (concludeRepair cb prepared _ (if res.1 = some .stop
      then validatedSourceRanks (strip (String.join res.2)) prepared.sources else none)) _ _
    rw [hcited]
    have hvalid : validatedSourceRanks (strip (String.join res.2)) prepared.sources =
        some cited := by
      split at hcited
      · exact hcited
      · exact absurd hcited (by simp)
    refine Spec.bind (plain_said rfl) fun _ => Spec.pure fun r h => ⟨h.unsettled, fun p hp => ?_⟩
    obtain rfl := Option.some.inj hp
    exact ⟨_, h, rfl, hvalid⟩

theorem resumeAnswer_collects (continuationAnswer : Option String) :
    Spec (Said "") (resumeAnswer prepared continuationAnswer)
      (fun st => Collects st.parts) Raises := by
  cases continuationAnswer with
  | none => exact Spec.pure fun _ h => h
  | some partialAnswer =>
    refine Spec.bind (M := fun _ => Collects []) (plain_said rfl) fun _ => ?_
    refine Spec.bind (plain_said rfl) fun _ => ?_
    refine Spec.bind (token_collects [] partialAnswer) fun _ => ?_
    exact Spec.bind (plain_said rfl) fun _ => Spec.pure fun _ h => h

end Saying

/-! ## What is kept -/

/-- The call of `finalize` behind a final event that follows these frames. -/
structure FinalizedBy (prepared : PreparedChatTurn) (frames : List Frame) (final : FinalEvent)
    (call : FinalizeCall) : Prop where
  /-- What the user read is what the event says, and what was passed on. -/
  streamed : strip (answerText frames) = final.answer
  answer : call.answer = final.answer
  sufficient : call.insufficientContext = false
  /-- It returned before the event was out. -/
  emitted : call.emitted = frames
  returned : ∃ rows, call.result = .ok rows ∧ final.citations = rows.map (·.payload)
  /-- The distinct sources the answer names, in order of first mention. -/
  named : call.citations.map (·.label) = (sourceLabels final.answer).eraseDups
  supplied : ∀ s ∈ call.citations, s ∈ prepared.sources
  distinct : call.citations.Nodup
  cited : call.citations ≠ []

/-- With a final event to come: the one call of `finalize` is behind it. -/
def Settles (prepared : PreparedChatTurn) (res : Option FinalEvent) (w : Watched) : Prop :=
  Unsettled w.response ∧ ∀ final, res = some final → final.insufficientContext = false →
    ∃ call, w.calls = [call] ∧ FinalizedBy prepared w.response.frames final call

section Citations

variable {sources : List ChatSourceSnapshot}

theorem supplied_label {label : String} (h : label ∈ sources.map (·.label)) :
    ∃ s, supplied sources label = some s ∧ s.label = label := by
  obtain ⟨s, hs, hlabel⟩ := List.mem_map.mp h
  cases hfind : supplied sources label with
  | none => exact absurd (List.find?_eq_none.mp hfind s (List.mem_reverse.mpr hs)) (by simp [hlabel])
  | some s' => exact ⟨s', rfl, by simpa using List.find?_some hfind⟩

theorem map_label_supplied {labels : List String} (h : ∀ l ∈ labels, l ∈ sources.map (·.label)) :
    (labels.filterMap (supplied sources)).map (·.label) = labels := by
  induction labels with
  | nil => rfl
  | cons label labels ih =>
    obtain ⟨s, hs, hlabel⟩ := supplied_label (h label List.mem_cons_self)
    rw [List.filterMap_cons_some hs, List.map_cons, hlabel,
      ih fun l hl => h l (List.mem_cons_of_mem _ hl)]

/-- The sources of a valid answer are the ones it names, in order of first mention. -/
theorem validatedSourceRanks_named {answer : String} {cited : List ChatSourceSnapshot}
    (h : validatedSourceRanks answer sources = some cited) :
    isExplicitInsufficientContext answer = false ∧
    cited.map (·.label) = (sourceLabels answer).eraseDups ∧ cited ≠ [] := by
  unfold validatedSourceRanks at h
  split at h
  · exact absurd h (by simp)
  next hanswer =>
    split at h
    · exact absurd h (by simp)
    · split at h
      · exact absurd h (by simp)
      next hlabels =>
        obtain rfl := Option.some.inj h
        have hnames : ((sourceLabels answer).eraseDups.filterMap (supplied sources)).map
            (·.label) = (sourceLabels answer).eraseDups := by
          refine map_label_supplied fun l hl => ?_
          by_contra hmissing
          refine hlabels (Or.inr (List.any_eq_true.mpr ⟨l, List.mem_eraseDups.mp hl, ?_⟩))
          exact decide_eq_true hmissing
        refine ⟨?_, hnames, fun hempty => hlabels (Or.inl ?_)⟩
        · have hexplicit := fun he => hanswer (Or.inr he)
          simpa using hexplicit
        · rw [hempty] at hnames
          cases hall : sourceLabels answer with
          | nil => rfl
          | cons label labels =>
            rw [hall, List.eraseDups_cons] at hnames
            exact absurd hnames (by simp)

end Citations

section Finalizing

variable {cb : Callbacks} {prepared : PreparedChatTurn} {text : String}

theorem unwatched_attempt {α : Type} {P : Watched → Prop} (x : Except Raised α) :
    Spec P (unwatched (attempt x)) (fun a w => P w ∧ x = .ok a) (fun _ => P) := by
  cases x with
  | ok a => exact ⟨fun _ h => ⟨h, rfl⟩⟩
  | error e => exact ⟨fun _ h => h⟩

theorem unwatched_raiseIf {P : Watched → Prop} (p : Prop) [Decidable p] (e : Raised) :
    Spec P (unwatched (Gen.when p (throw e))) (fun _ w => P w ∧ ¬ p) (fun _ => P) := by
  unfold Gen.when
  by_cases hp : p
  · rw [if_pos hp]
    exact ⟨fun _ h => h⟩
  · rw [if_neg hp]
    exact ⟨fun _ h => ⟨h, hp⟩⟩

/-- A statement of the service, before `finalize` is called. -/
theorem unwatched_spec {α : Type} {P : Response → Prop} {m : Body α} {Q : α → Response → Prop}
    (h : Spec P m Q Raises) :
    Spec (fun w => P w.response ∧ w.calls = []) (unwatched m)
      (fun a w => Q a w.response ∧ w.calls = []) (fun _ w => Unsettled w.response) :=
  (Spec.focus h fun _ _ hcalls => hcalls).conseq (fun _ hw => hw) (fun _ _ hw => hw)
    fun _ _ hw => hw.1

/-- A call with a valid answer that returned. -/
theorem finalizedBy_of_valid {frames : List Frame} {answer : String}
    {cited : List ChatSourceSnapshot} {detached : Detached}
    (htext : strip (answerText frames) = answer)
    (hvalid : validatedSourceRanks answer prepared.sources = some cited)
    (hok : cb.finalize = .ok detached) :
    FinalizedBy prepared frames
      ⟨answer, false, cited.map fun s => (snapshotFromRow detached s).payload⟩
      ⟨answer, false, cited,
        cb.finalize.map fun detached => cited.map (snapshotFromRow detached), frames⟩ := by
  obtain ⟨-, hsupplied, hnodup⟩ := validatedSourceRanks_some hvalid
  obtain ⟨-, hnamed, hne⟩ := validatedSourceRanks_named hvalid
  refine ⟨htext, rfl, rfl, rfl, ⟨cited.map (snapshotFromRow detached), ?_, ?_⟩, hnamed, hsupplied,
    hnodup, hne⟩
  · rw [hok]
    rfl
  · rw [List.map_map]
    rfl

theorem finalizeWatched_settles {answer : String} {cited : Option (List ChatSourceSnapshot)}
    (htext : strip text = answer)
    (hcited : ∀ c, cited = some c → validatedSourceRanks answer prepared.sources = some c) :
    Spec (fun w => Said text w.response ∧ w.calls = []) (finalizeWatched cb answer cited)
      (fun final => Settles prepared (some final)) (fun _ w => Unsettled w.response) := by
  unfold finalizeWatched
  refine Spec.bind ((unwatched_raiseIf _ _).conseq (fun _ h => h) (fun _ _ h => h)
    fun _ _ h => h.1.unsettled) fun _ => ?_
  dsimp only
  refine Spec.bind (M := fun _ w => (Said text w.response ∧
      ¬ (¬ isExplicitInsufficientContext answer = true ∧ cited = none)) ∧
      w.calls = [{
        answer := if isExplicitInsufficientContext answer then insufficientContextAnswer else answer
        insufficientContext := isExplicitInsufficientContext answer
        citations := if isExplicitInsufficientContext answer then [] else cited.getD []
        result := cb.finalize.map fun detached =>
          (if isExplicitInsufficientContext answer then [] else cited.getD []).map
            (snapshotFromRow detached)
        emitted := w.response.frames }]) (Spec.update fun w h => ?_) fun _ => ?_
  · refine ⟨⟨h.1.1, h.2⟩, ?_⟩
    show w.calls ++ [_] = _
    rw [h.1.2]
    rfl
  · refine Spec.bind ((unwatched_attempt _).conseq (fun _ h => h) (fun _ _ h => h)
      fun _ _ h => h.1.1.unsettled) fun detached => ?_
    refine Spec.pure fun w h => ?_
    obtain ⟨⟨⟨hsaid, hraise⟩, hcalls⟩, hok⟩ := h
    refine ⟨hsaid.unsettled, fun final hfinal hsufficient => ?_⟩
    obtain rfl := Option.some.inj hfinal
    dsimp only at hsufficient
    obtain ⟨c, rfl⟩ : ∃ c, cited = some c := by
      cases cited with
      | some c => exact ⟨c, rfl⟩
      | none => exact absurd ⟨by simp [hsufficient], rfl⟩ hraise
    simp only [hsufficient, Bool.false_eq_true, if_false, Option.getD_some] at hcalls ⊢
    refine ⟨_, hcalls, finalizedBy_of_valid ?_ (hcited c rfl) hok⟩
    rw [hsaid.streamed, htext]

theorem validateWatched_settles (parts : List String) :
    Spec (fun w => Collects parts w.response ∧ w.calls = [])
      (validateWatched cb prepared parts) (Settles prepared) (fun _ w => Unsettled w.response) := by
  unfold validateWatched
  refine Spec.bind (unwatched_spec (plain_said rfl)) fun _ => ?_
  split
  · refine Spec.bind (unwatched_spec (repairCitations_said _)) fun res => ?_
    cases res with
    | none => exact Spec.pure fun w h => ⟨h.1.1, fun _ hfinal => absurd hfinal (by simp)⟩
    | some repaired =>
      obtain ⟨repairedAnswer, repairedCited⟩ := repaired
      refine Spec.bind (M := fun final => Settles prepared (some final)) ?_ fun final =>
        Spec.pure fun w h => h
      refine Spec.choose fun w h => ?_
      obtain ⟨text, hsaid, hstrip, hvalid⟩ := h.1.2 _ rfl
      refine ⟨fun w => Said text w.response ∧ w.calls = [], ⟨hsaid, h.2⟩, ?_⟩
      exact finalizeWatched_settles hstrip fun c hc => hvalid.trans hc
  · exact Spec.bind (finalizeWatched_settles rfl fun _ hc => hc) fun final =>
      Spec.pure fun w h => h

theorem answerWatched_settles (prompt : String) :
    Spec (fun w => Said "" w.response ∧ w.calls = []) (answerWatched cb prepared prompt)
      (Settles prepared) (fun _ w => Unsettled w.response) := by
  unfold answerWatched
  refine Spec.bind (unwatched_spec (await_said _)) fun _ => ?_
  refine Spec.bind (unwatched_spec (plain_said rfl)) fun _ => ?_
  refine Spec.bind (unwatched_spec (plain_said rfl)) fun _ => ?_
  refine Spec.bind (unwatched_spec (plain_said rfl)) fun _ => ?_
  refine Spec.bind (unwatched_spec (resumeAnswer_collects _)) fun st => ?_
  refine Spec.bind (unwatched_spec (answerLoop_collects _ _ _ _ _)) fun res => ?_
  cases res with
  | none => exact Spec.pure fun w h => ⟨h.1.1, fun _ hfinal => absurd hfinal (by simp)⟩
  | some parts =>
    refine (validateWatched_settles parts).conseq (fun w h => ⟨h.1.2 parts rfl, h.2⟩)
      (fun _ _ h => h) fun _ _ h => h

/-! ## The final event -/

/-- What the frames are held to: a final event with an answer is the last frame, and the
one call of `finalize` is behind it. -/
def Emitted (prepared : PreparedChatTurn) (w : Watched) : Prop :=
  ∀ before f after final, w.response.frames = before ++ f :: after → f.event = .final final →
    final.insufficientContext = false →
    after = [] ∧ ∃ call, w.calls = [call] ∧ FinalizedBy prepared before final call

theorem Unsettled.emitted {w : Watched} (h : Unsettled w.response) : Emitted prepared w := by
  intro before f after final hframes hfinal _
  refine absurd hfinal (h f ?_ final)
  rw [hframes]
  exact List.mem_append_right _ List.mem_cons_self

/-- The event goes out last. -/
theorem Settles.emitted {w : Watched} {final : FinalEvent} (h : Settles prepared (some final) w) :
    Emitted prepared { w with
      response := numbered prepared.chatId prepared.turnId (.final final) w.response } := by
  intro before f after final' hframes hfinal hsufficient
  have hframes : w.response.frames ++
      [⟨prepared.chatId, prepared.turnId, w.response.sequence, .final final⟩] =
        before ++ f :: after := hframes
  rcases List.eq_nil_or_concat after with rfl | ⟨rest, last, rfl⟩
  · obtain ⟨hbefore, hlast⟩ := List.append_inj' hframes rfl
    obtain rfl := (List.cons.inj hlast).1
    obtain rfl : final = final' := Event.final.inj hfinal
    rw [← hbefore]
    exact ⟨rfl, h.2 final rfl hsufficient⟩
  · have hsplit : before ++ f :: (rest ++ [last]) = (before ++ f :: rest) ++ [last] := by simp
    rw [List.concat_eq_append, hsplit] at hframes
    obtain ⟨hall, -⟩ := List.append_inj' hframes rfl
    refine absurd hfinal (h.1 f ?_ final')
    rw [hall]
    exact List.mem_append_right _ List.mem_cons_self

theorem recordFailure_unsettled (r : Raised) :
    Spec (fun w => Unsettled w.response) (unwatched (recordFailure cb prepared r))
      (fun res w => res = none ∧ Unsettled w.response) (fun _ w => Unsettled w.response) := by
  have htransition : ∀ status, Spec Unsettled (transition .service status cb.service)
      (fun _ => Unsettled) Raises := fun status =>
    keeps_transition fun _ h => h
  have hreport : ∀ status code message, Spec Unsettled
      (transition .service status cb.service >>= fun _ =>
        serviceEvent prepared (.error code message) >>= fun _ => (pure none : Body (Option FinalEvent)))
      (fun res r => res = none ∧ Unsettled r) Raises := by
    intro status code message
    refine Spec.bind (htransition status) fun _ => ?_
    refine Spec.bind (M := fun _ => Unsettled) (Spec.update fun r h => ?_) fun _ =>
      Spec.pure fun _ h => ⟨rfl, h⟩
    exact h.numbered fun _ => by simp
  have hall : Spec Unsettled (recordFailure cb prepared r)
      (fun res r => res = none ∧ Unsettled r) Raises := by
    unfold recordFailure
    cases r with
    | cancelled => exact Spec.bind (htransition _) fun _ => Spec.throw fun _ h => h
    | generatorExit => exact Spec.bind (htransition _) fun _ => Spec.throw fun _ h => h
    | accessRevoked => exact hreport _ _ _
    | http statusCode detail => exact hreport _ _ _
    | exception className message => exact hreport _ _ _
  exact (Spec.focus hall (F := fun _ => True) fun _ _ h => h).conseq (fun _ h => ⟨h, trivial⟩)
    (fun _ _ h => h.1) fun _ _ h => h.1

/-- However the service ends. -/
theorem streamWatched_emitted :
    Spec (fun w => Said "" w.response ∧ w.calls = []) (streamWatched cb prepared)
      (fun _ => Emitted prepared) (fun _ => Emitted prepared) := by
  unfold streamWatched
  split
  · refine Spec.update fun w h => Unsettled.emitted ?_
    exact @Unsettled.numbered prepared _ h.1.unsettled _ fun _ => by simp
  · generalize (if prepared.alreadyComplete then none else prepared.prompt) = prompt
    cases prompt with
    | none =>
      refine Spec.bind ((unwatched_spec (plain_said rfl)).conseq (fun _ h => h) (fun _ _ h => h)
        fun _ _ h => h.emitted) fun _ => ?_
      refine Spec.bind ((unwatched_spec (plain_said rfl)).conseq (fun _ h => h) (fun _ _ h => h)
        fun _ _ h => h.emitted) fun _ => ?_
      refine Spec.update fun w h => Settles.emitted ⟨h.1.unsettled, fun final hfinal hsufficient => ?_⟩
      rw [← Option.some.inj hfinal] at hsufficient
      exact absurd hsufficient (by simp)
    | some prompt =>
      have htry : Spec (fun w => Said "" w.response ∧ w.calls = [])
          (tryCatch (answerWatched cb prepared prompt)
            fun r => unwatched (recordFailure cb prepared r))
          (Settles prepared) (fun _ w => Unsettled w.response) := by
        refine Spec.tryCatch (answerWatched_settles prompt) fun r => ?_
        refine (recordFailure_unsettled r).conseq (fun _ h => h) (fun res w h => ?_) fun _ _ h => h
        exact ⟨h.2, fun final hfinal => absurd (h.1.symm.trans hfinal) (by simp)⟩
      refine Spec.bind (htry.conseq (fun _ h => h) (fun _ _ h => h) fun _ _ h => h.emitted)
        fun res => ?_
      cases res with
      | none => exact Spec.pure fun w h => h.1.emitted
      | some final => exact Spec.update fun w h => h.emitted

end Finalizing

/-- For every behaviour of the generator and the callbacks, and every prepared turn: a final event
with an answer is the last frame, and before it, when the frames before it were out,
`finalize` was called once and returned; the tokens since the last reset, stripped, are the answer
of the event and of the call, and the citations of the call are the distinct sources that the answer
names, in order of first mention, at least one. -/
theorem final_finalized (cb : Callbacks) (prepared : PreparedChatTurn) (sequence : Nat)
    {before after : List Frame} {f : Frame} {final : FinalEvent}
    (hframes : (serviceStream cb prepared ⟨sequence, [], []⟩).2.frames = before ++ f :: after)
    (hfinal : f.event = .final final) (hsufficient : final.insufficientContext = false) :
    after = [] ∧ ∃ call, (streamWatched cb prepared ⟨⟨sequence, [], []⟩, []⟩).2.calls = [call] ∧
      FinalizedBy prepared before final call := by
  have hexit := (@streamWatched_emitted cb prepared).exits ⟨⟨sequence, [], []⟩, []⟩
    ⟨⟨rfl, List.forall_mem_nil _⟩, rfl⟩
  have hemitted : Emitted prepared (streamWatched cb prepared ⟨⟨sequence, [], []⟩, []⟩).2 := by
    cases hrun : streamWatched cb prepared ⟨⟨sequence, [], []⟩, []⟩ with
    | mk res w =>
      rw [hrun] at hexit
      cases res with
      | ok _ => exact hexit
      | error _ => exact hexit
  have hsame := (streamWatched_erases cb prepared).leaves ⟨⟨sequence, [], []⟩, []⟩
  have hresponse : (streamWatched cb prepared ⟨⟨sequence, [], []⟩, []⟩).2.response.frames =
      before ++ f :: after := (congrArg Response.frames hsame).trans hframes
  exact hemitted before f after final hresponse hfinal hsufficient

def samplePrepared : PreparedChatTurn :=
  { chatId := 1
    turnId := 2
    token := some 3
    prompt := some "prompt"
    sources := [sampleSource]
    alreadyComplete := false
    accessRevoked := false
    continuationAnswer := none
    citationBasePrompt := some "prompt" }

/-- The first answer cites nothing, the repaired one a source. -/
def repairedCallbacks : Callbacks :=
  { sampleCallbacks [.answer ⟨"It is so.", by decide⟩, .done .stop none] with
    repair := ⟨[.chunk sampleAnswer none, .chunk (.done .stop none) none], none⟩ }

def repairedFinal : FinalEvent := ⟨"It is so [S1].", false, [sampleSource.payload]⟩

def repairedFrames : List Frame :=
  (serviceStream repairedCallbacks samplePrepared ⟨1, [], []⟩).2.frames.dropLast

theorem final_finalized_repaired : ([] : List Frame) = [] ∧ ∃ call,
    (streamWatched repairedCallbacks samplePrepared ⟨⟨1, [], []⟩, []⟩).2.calls = [call] ∧
      FinalizedBy samplePrepared repairedFrames repairedFinal call :=
  @final_finalized repairedCallbacks samplePrepared 1 repairedFrames [] ⟨1, 2, 12, .final repairedFinal⟩
    repairedFinal (by decide +kernel) rfl rfl

end LocalRag.Stream
