import LocalRag.Core.Table
import LocalRag.Stream.Sequence

/-!
# What the reader has seen

The emitter and the client are written apart, in two languages; `Sees` ties them
together. It says which state of `consumeChatSse` the frames sent so far have led
to, and each event has the lemma that moves it on by the client's own transition.
An error is accepted in every state the client can be in (`Live.error`).

The second half is about the payloads: sources as `_budget_prompt` labels them
pass `validateStreamSources`, and the rows of the sources an answer cites pass
`validateFinalCitations`.

The numbers are `Stream.Sequence`'s subject: here the frames are renumbered
(`renumber`) before the client sees them.
-/

namespace LocalRag.Stream

open LocalRag.Core

/-! ## What the client sees -/

/-- The frames with the numbers 1, 2, 3, … -/
def renumber (frames : List Frame) : List Frame :=
  frames.zipIdx.map fun p => { p.1 with seq := p.2 + 1 }

/-- The client after the frames. -/
def clientAfter (expected : ExpectedChatStream) (frames : List Frame) :
    Except StreamError Client :=
  consumeAll expected expected.start (renumber frames)

theorem renumber_append (frames : List Frame) (f : Frame) :
    renumber (frames ++ [f]) = renumber frames ++ [{ f with seq := frames.length + 1 }] := by
  simp [renumber, List.zipIdx_append]

theorem clientAfter_append (expected : ExpectedChatStream) (frames : List Frame) (f : Frame) :
    clientAfter expected (frames ++ [f]) = (clientAfter expected frames >>= fun client =>
      consume expected client { f with seq := frames.length + 1 }) := by
  rw [clientAfter, renumber_append, consumeAll, List.foldlM_append]
  simp [clientAfter, consumeAll]

/-- Who reads, and what was sent before the generator at hand started. -/
structure View where
  expected : ExpectedChatStream
  before : List Frame

/-- The client after what was sent before and the frames of `r`. -/
def View.client (v : View) (r : Response) : Except StreamError Client :=
  clientAfter v.expected (v.before ++ r.frames)

/-- How many frames that is. -/
def View.count (v : View) (r : Response) : Nat := (v.before ++ r.frames).length

/-- The client is in `state` and has the sources and the reasoning shown so far. -/
def Sees (v : View) (turnId : TurnId) (state : ProtocolState)
    (sources : Option (List StreamSource)) (points : Nat) (r : Response) : Prop :=
  ∃ turn : Option TurnId, turn.getD turnId = turnId ∧
    v.client r = .ok ⟨turn, sources, none, v.count r + 1, state, points⟩

/-- The client has not ended. -/
def Live (v : View) (turnId : TurnId) (r : Response) : Prop :=
  ∃ state sources points, Sees v turnId state sources points r

/-- The client has the final event. -/
def Answered (v : View) (r : Response) : Prop :=
  ∃ final client, v.client r = .ok client ∧ client.final = some final ∧
    ∃ f ∈ v.before ++ r.frames, f.event = .final final

/-- The client has thrown the server's error. -/
def Failed (v : View) (r : Response) : Prop :=
  ∃ code message, v.client r = .error (.api code message) ∧
    ∃ f ∈ v.before ++ r.frames, f.event = .error code message

/-- The client has called the stream invalid. -/
def Rejected (v : View) (r : Response) : Prop :=
  ∃ message, v.client r = .error (.invalid message)

section Client

variable {v : View} {turnId : TurnId} {state : ProtocolState}
  {sources : Option (List StreamSource)} {points : Nat} {r : Response}

theorem Sees.live (h : Sees v turnId state sources points r) : Live v turnId r :=
  ⟨state, sources, points, h⟩

theorem client_numbered (v : View) (chatId : ChatId) (turnId : TurnId) (e : Event)
    (r : Response) : v.client (numbered chatId turnId e r) = (v.client r >>= fun client =>
      consume v.expected client ⟨chatId, turnId, v.count r + 1, e⟩) := by
  show clientAfter v.expected (v.before ++ (r.frames ++ [_])) = _
  rw [← List.append_assoc, clientAfter_append]
  rfl

theorem count_numbered (v : View) (chatId : ChatId) (turnId : TurnId) (e : Event)
    (r : Response) : v.count (numbered chatId turnId e r) = v.count r + 1 := by
  show (v.before ++ (r.frames ++ [_])).length = _
  rw [← List.append_assoc, List.length_append]
  rfl

theorem mem_numbered (v : View) (chatId : ChatId) (turnId : TurnId) (e : Event) (r : Response) :
    ∃ f ∈ v.before ++ (numbered chatId turnId e r).frames, f.event = e :=
  ⟨⟨chatId, turnId, r.sequence, e⟩, by simp [numbered], rfl⟩

/-- One event, by what the client does with it. -/
theorem Sees.event (h : Sees v turnId state sources points r) {e : Event}
    {state' : ProtocolState} {sources' : Option (List StreamSource)} {points' : Nat}
    (hstep : ∀ (turn : Option TurnId) (n : Nat), turn.getD turnId = turnId →
      consume v.expected ⟨turn, sources, none, n, state, points⟩
        ⟨v.expected.chatId, turnId, n, e⟩ =
        .ok ⟨some turnId, sources', none, n + 1, state', points'⟩) :
    Sees v turnId state' sources' points' (numbered v.expected.chatId turnId e r) := by
  obtain ⟨turn, hturn, hclient⟩ := h
  refine ⟨some turnId, rfl, ?_⟩
  rw [client_numbered, hclient, count_numbered]
  exact hstep turn _ hturn

/-- The envelope of the next frame of the turn. -/
theorem assertEnvelope_ok {turn : Option TurnId} (hturn : turn.getD turnId = turnId) {n : Nat}
    {e : Event} :
    assertEnvelope v.expected ⟨turn, sources, none, n, state, points⟩
      ⟨v.expected.chatId, turnId, n, e⟩ =
      .ok ⟨some turnId, sources, none, n + 1, state, points⟩ := by
  simp [assertEnvelope, hturn]

theorem Sees.status (h : Sees v turnId state sources points r) {phase : StatusPhase}
    {state' : ProtocolState} (hphase : expectedPhase state phase = some phase)
    (hafter : afterStatus state phase = some state') :
    Sees v turnId state' sources points
      (numbered v.expected.chatId turnId (.status phase) r) := by
  refine h.event fun turn n hturn => ?_
  simp only [consume, consumeStatus, assertEnvelope_ok hturn, hphase, hafter]
  simp [bind, Except.bind, pure, Except.pure]

theorem Sees.sourcesEvent (h : Sees v turnId .expectSources none points r)
    {l : List StreamSource} (hparses : parses (.sources l) = true)
    (hvalid : validateStreamSources 0 l = .ok ()) :
    Sees v turnId (if l = [] then .expectValidationStatus else .expectReasoningStatus)
      (some l) points (numbered v.expected.chatId turnId (.sources l) r) := by
  refine h.event fun turn n hturn => ?_
  simp [consume, consumeSources, hparses, assertEnvelope_ok hturn, hvalid, bind, Except.bind,
    pure, Except.pure]

variable {streamed : List StreamSource}

theorem Sees.reasoningStart (h : Sees v turnId .expectReasoningStart (some streamed) points r) :
    Sees v turnId .reasoningActive (some streamed) points
      (numbered v.expected.chatId turnId .reasoningStart r) := by
  refine h.event fun turn n hturn => ?_
  simp [consume, withSources, parses, consumeMarker, assertEnvelope_ok hturn, bind, Except.bind,
    pure, Except.pure]

theorem Sees.reasoningDelta (h : Sees v turnId .reasoningActive (some streamed) points r)
    {text : String} (htext : text ≠ "") (hmax : points + text.length ≤ maxReasoningCodePoints) :
    Sees v turnId .reasoningActive (some streamed) (points + text.length)
      (numbered v.expected.chatId turnId (.reasoningDelta text) r) := by
  refine h.event fun turn n hturn => ?_
  simp [consume, withSources, parses, htext, consumeDelta, assertEnvelope_ok hturn,
    Nat.not_lt.mpr hmax, bind, Except.bind, pure, Except.pure]

theorem Sees.reasoningEnd (h : Sees v turnId .reasoningActive (some streamed) points r)
    (truncated : Bool) :
    Sees v turnId .expectAnswerStatus (some streamed) points
      (numbered v.expected.chatId turnId (.reasoningEnd truncated) r) := by
  refine h.event fun turn n hturn => ?_
  simp [consume, withSources, parses, consumeMarker, assertEnvelope_ok hturn, bind, Except.bind,
    pure, Except.pure]

theorem Sees.answerReset (h : Sees v turnId .repairing (some streamed) points r) :
    Sees v turnId .repairAnswer (some streamed) points
      (numbered v.expected.chatId turnId .answerReset r) := by
  refine h.event fun turn n hturn => ?_
  simp [consume, withSources, parses, consumeMarker, assertEnvelope_ok hturn, bind, Except.bind,
    pure, Except.pure]

theorem Sees.token (h : Sees v turnId state (some streamed) points r)
    (hstate : state = .answer ∨ state = .repairAnswer) (text : String) :
    Sees v turnId state (some streamed) points
      (numbered v.expected.chatId turnId (.token text) r) := by
  refine h.event fun turn n hturn => ?_
  rcases hstate with rfl | rfl <;>
    simp [consume, withSources, parses, consumeToken, assertEnvelope_ok hturn]

/-- The final event, cited as the client wants it. -/
theorem Sees.final (h : Sees v turnId .validating (some streamed) points r)
    {e : FinalEvent} (hparses : parses (.final e) = true)
    (hvalid : validateFinalCitations streamed [] e.citations = .ok ()) :
    Answered v (numbered v.expected.chatId turnId (.final e) r) := by
  obtain ⟨turn, hturn, hclient⟩ := h
  have hstep : ∀ n, consume v.expected ⟨turn, some streamed, none, n, .validating, points⟩
      ⟨v.expected.chatId, turnId, n, .final e⟩ =
      .ok ⟨some turnId, some streamed, some e, n + 1, .validating, points⟩ := by
    intro n
    simp [consume, withSources, hparses, consumeFinal, assertEnvelope_ok hturn, hvalid, bind,
      Except.bind, pure, Except.pure]
  refine ⟨e, ⟨some turnId, some streamed, some e, v.count r + 2, .validating, points⟩, ?_, rfl,
    mem_numbered v _ _ _ r⟩
  rw [client_numbered, hclient]
  exact hstep _

/-- An error is accepted in every state. -/
theorem Live.error (h : Live v turnId r) {code message : String} (hcode : code ≠ "")
    (hmessage : message ≠ "") :
    Failed v (numbered v.expected.chatId turnId (.error code message) r) := by
  obtain ⟨state, sources, points, turn, hturn, hclient⟩ := h
  have hstep : ∀ n, consume v.expected ⟨turn, sources, none, n, state, points⟩
      ⟨v.expected.chatId, turnId, n, .error code message⟩ = .error (.api code message) := by
    intro n
    simp [consume, parses, hcode, hmessage, assertEnvelope_ok hturn, bind, Except.bind, throw,
      throwThe, MonadExceptOf.throw]
  refine ⟨code, message, ?_, mem_numbered v _ _ _ r⟩
  rw [client_numbered, hclient]
  exact hstep _

/-- A rejected stream stays rejected. -/
theorem Rejected.event (h : Rejected v r) (chatId : ChatId) (turnId : TurnId) (e : Event) :
    Rejected v (numbered chatId turnId e r) := by
  obtain ⟨message, hclient⟩ := h
  refine ⟨message, ?_⟩
  rw [client_numbered, hclient]
  rfl

/-- The missing step: the validation is announced while the reasoning is open. -/
theorem Sees.rejects (h : Sees v turnId .reasoningActive sources points r) :
    Rejected v (numbered v.expected.chatId turnId (.status .validatingCitations) r) := by
  obtain ⟨turn, hturn, hclient⟩ := h
  refine ⟨"The answer stream returned status validating_citations; expected null.", ?_⟩
  rw [client_numbered, hclient]
  show consumeStatus v.expected _ _ _ = _
  simp [consumeStatus, assertEnvelope_ok hturn, bind, Except.bind, expectedPhase, StatusPhase.text,
    throw, throwThe, MonadExceptOf.throw]

end Client

/-! ## Sources and citations -/

theorem rankLabel_inj : ∀ i < 8, ∀ j < 8, rankLabel (i + 1) = rankLabel (j + 1) → i = j := by
  decide +kernel

theorem rankLabel_mem :
    ∀ i < 8, rankLabel (i + 1) ∈ ["S1", "S2", "S3", "S4", "S5", "S6", "S7", "S8"] := by
  decide +kernel

section Sources

variable {sources : List ChatSourceSnapshot}

variable {s : ChatSourceSnapshot}

/-- A source stands at the place its rank names. -/
theorem SourcesOk.place (h : SourcesOk sources) (hs : s ∈ sources) :
    ∃ i < 8, s.rank = i + 1 ∧ s.label = rankLabel (i + 1) := by
  obtain ⟨i, hi, rfl⟩ := List.mem_iff_getElem.mp hs
  refine ⟨i, by have := h.count; omega, h.ranks i _ (List.getElem?_eq_getElem hi)⟩

theorem SourcesOk.eq_of_rank (h : SourcesOk sources) {t : ChatSourceSnapshot} (hs : s ∈ sources)
    (ht : t ∈ sources) (hrank : s.rank = t.rank) : s = t := by
  obtain ⟨i, hi, rfl⟩ := List.mem_iff_getElem.mp hs
  obtain ⟨j, hj, rfl⟩ := List.mem_iff_getElem.mp ht
  have hsi := (h.ranks i _ (List.getElem?_eq_getElem hi)).1
  have htj := (h.ranks j _ (List.getElem?_eq_getElem hj)).1
  obtain rfl : i = j := by omega
  rfl

theorem SourcesOk.eq_of_label (h : SourcesOk sources) {t : ChatSourceSnapshot} (hs : s ∈ sources)
    (ht : t ∈ sources) (hlabel : s.label = t.label) : s = t := by
  obtain ⟨i, hi, hsr, hsl⟩ := h.place hs
  obtain ⟨j, hj, htr, htl⟩ := h.place ht
  have hij := rankLabel_inj i hi j hj (hsl.symm.trans (hlabel.trans htl))
  exact h.eq_of_rank hs ht (by omega)

/-- A source, and its row when it is cited, fits the schema. -/
theorem SourcesOk.schema (h : SourcesOk sources) (hs : s ∈ sources) (detached : Detached) :
    streamSourceParses s.payload = true ∧
      streamSourceParses (snapshotFromRow detached s).payload = true := by
  obtain ⟨i, hi, hrank, hlabel⟩ := h.place hs
  have hmem := rankLabel_mem i hi
  have hnamed := h.named s hs
  have hpages := h.pages s hs
  rw [← hlabel] at hmem
  have hall : s.label ∈ ["S1", "S2", "S3", "S4", "S5", "S6", "S7", "S8"] ∧ 1 ≤ s.rank ∧
      s.rank ≤ 8 ∧ s.originalFilename ≠ "" ∧ s.displayName ≠ "" ∧ s.logicalPath ≠ "" ∧
      1 ≤ s.pageStart ∧ 1 ≤ s.pageEnd :=
    ⟨hmem, by omega, by omega, hnamed.1, hnamed.2.1, hnamed.2.2, hpages.1, by omega⟩
  exact ⟨decide_eq_true hall, decide_eq_true hall⟩

theorem validateStreamSources_ok : ∀ (index : Nat) (l : List ChatSourceSnapshot),
    (∀ i s, l[i]? = some s → s.rank = index + i + 1 ∧ s.label = rankLabel (index + i + 1)) →
      validateStreamSources index (l.map (·.payload)) = .ok ()
  | _, [], _ => rfl
  | index, s :: rest, h => by
    have hhead := h 0 s rfl
    have hrest := validateStreamSources_ok (index + 1) rest fun i t ht => by
      have := h (i + 1) t ht
      rwa [show index + (i + 1) + 1 = index + 1 + i + 1 by omega] at this
    rw [Nat.add_zero] at hhead
    rw [List.map_cons, validateStreamSources, if_neg (by simp [ChatSourceSnapshot.payload, hhead]),
      if_neg (by simp [ChatSourceSnapshot.payload])]
    exact hrest

theorem SourcesOk.event (h : SourcesOk sources) :
    parses (.sources (sources.map (·.payload))) = true ∧
      validateStreamSources 0 (sources.map (·.payload)) = .ok () := by
  refine ⟨decide_eq_true ⟨?_, ?_⟩, validateStreamSources_ok 0 sources ?_⟩
  · rw [List.all_eq_true]
    intro p hp
    obtain ⟨s, hs, rfl⟩ := List.mem_map.mp hp
    exact (h.schema hs ⟨[], []⟩).1
  · rw [List.length_map]
    exact h.count
  · intro i s hs
    rw [Nat.zero_add]
    exact h.ranks i s hs

/-- A cited row finds the source it was streamed as. -/
theorem SourcesOk.streamedSource (h : SourcesOk sources) (hs : s ∈ sources) (detached : Detached) :
    streamedSource (sources.map (·.payload)) (snapshotFromRow detached s).payload =
      some s.payload := by
  have hfind : ∀ p : StreamSource → Bool, p s.payload = true →
      (∀ t ∈ sources, p t.payload = true → t = s) →
      (sources.map (·.payload)).reverse.find? p = some s.payload := by
    intro p hp huniq
    have hsome : ((sources.map (·.payload)).reverse.find? p).isSome := by
      rw [List.find?_isSome]
      exact ⟨s.payload, List.mem_reverse.mpr (List.mem_map_of_mem hs), hp⟩
    obtain ⟨q, hq⟩ := Option.isSome_iff_exists.mp hsome
    obtain ⟨t, ht, rfl⟩ := List.mem_map.mp (List.mem_reverse.mp (List.mem_of_find?_eq_some hq))
    rw [hq, huniq t ht (List.find?_some hq)]
  have hlabel := hfind (fun q => q.label = s.label) (by simp [ChatSourceSnapshot.payload])
    fun t ht hp => h.eq_of_label ht hs (of_decide_eq_true hp)
  have hrank := hfind (fun q => q.rank = s.rank) (by simp [ChatSourceSnapshot.payload])
    fun t ht hp => h.eq_of_rank ht hs (of_decide_eq_true hp)
  unfold LocalRag.Stream.streamedSource
  rw [show (snapshotFromRow detached s).payload.label = s.label from rfl,
    show (snapshotFromRow detached s).payload.rank = s.rank from rfl, hlabel]
  simp [hrank]

/-- Rows of different sources, cited once each, pass. -/
theorem validateFinalCitations_ok (h : SourcesOk sources) (detached : Detached) :
    ∀ (cited rest : List ChatSourceSnapshot), (∀ s ∈ cited ++ rest, s ∈ sources) →
      (cited ++ rest).Nodup →
      validateFinalCitations (sources.map (·.payload))
        (cited.map fun s => (snapshotFromRow detached s).payload)
        (rest.map fun s => (snapshotFromRow detached s).payload) = .ok ()
  | _, [], _, _ => rfl
  | cited, s :: rest, hmem, hnodup => by
    have hs : s ∈ sources := hmem s (by simp)
    have hfresh : ¬ (cited.map fun s => (snapshotFromRow detached s).payload).any (fun c =>
        c.label = (snapshotFromRow detached s).payload.label ∨
          c.rank = (snapshotFromRow detached s).payload.rank) = true := by
      rw [List.any_eq_true]
      intro hany
      obtain ⟨c, hc, heq⟩ := hany
      obtain ⟨t, ht, rfl⟩ := List.mem_map.mp hc
      have htmem : t ∈ sources := hmem t (by simp [ht])
      have hts : t = s := by
        rcases of_decide_eq_true heq with heq | heq
        · exact h.eq_of_label htmem hs heq
        · exact h.eq_of_rank htmem hs heq
      subst hts
      exact (List.nodup_append.mp hnodup).2.2 t ht t (by simp) rfl
    rw [List.map_cons, validateFinalCitations, if_neg hfresh, h.streamedSource hs detached]
    have hmatch : ¬ (¬ sameSnapshot (snapshotFromRow detached s).payload s.payload = true ∨
        ((snapshotFromRow detached s).payload.documentId ≠ s.payload.documentId ∧
          (snapshotFromRow detached s).payload.documentId ≠ none) ∨
        ((snapshotFromRow detached s).payload.chunkId ≠ s.payload.chunkId ∧
          (snapshotFromRow detached s).payload.chunkId ≠ none) ∨
        (snapshotFromRow detached s).payload.sourceAvailable ≠
          (snapshotFromRow detached s).payload.documentId.isSome) := by
      simp only [sameSnapshot, snapshotFromRow, ChatSourceSnapshot.payload]
      by_cases hd : s.rank ∈ detached.documents <;> by_cases hc : s.rank ∈ detached.chunks <;>
        simp [hd, hc]
    have hrest := validateFinalCitations_ok h detached (cited ++ [s]) rest
      (by simpa using hmem) (by simpa using hnodup)
    show (if _ then _ else _) = _
    rw [if_neg hmatch]
    simpa using hrest

/-- An answer with valid citations: the sources it names, each once. -/
theorem validatedSourceRanks_some {answer : String} {cited : List ChatSourceSnapshot}
    (h : validatedSourceRanks answer sources = some cited) :
    answer ≠ "" ∧ (∀ s ∈ cited, s ∈ sources) ∧ cited.Nodup := by
  have hsupplied : ∀ label s, supplied sources label = some s → s ∈ sources ∧ s.label = label := by
    intro label s hs
    exact ⟨List.mem_reverse.mp (List.mem_of_find?_eq_some hs), by simpa using List.find?_some hs⟩
  unfold validatedSourceRanks at h
  split at h
  · exact absurd h (by simp)
  next hanswer =>
    split at h
    · exact absurd h (by simp)
    · split at h
      · exact absurd h (by simp)
      · obtain rfl := Option.some.inj h
        refine ⟨fun he => hanswer (Or.inl he), fun s hs => ?_, ?_⟩
        · obtain ⟨label, _, hlabel⟩ := List.mem_filterMap.mp hs
          exact (hsupplied label s hlabel).1
        · refine (nodup_eraseDups _).filterMap fun a b s ha hb => ?_
          exact (hsupplied a s ha).2.symm.trans (hsupplied b s hb).2

end Sources

end LocalRag.Stream
