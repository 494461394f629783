import LocalRag.Chat.Turns
import LocalRag.Ingest.Steps

/-!
# The chat system — its calls, and every way a call changes a chat

`ChatCall` adds the functions of `Chat.Turns` to the calls of the rest of the
system. Those reach the chat tables only through `turn_sources`: a chunk that
goes takes the reference of the sources that cite it along, and
`v4_admin_delete_document` freezes what the owner may read (`SourcesStep`).

`ChatStep db call chat` is for the four chat tables what `Ingest.ContentStep` is
for documents: one constructor per write, with what the function checked first.
The invariant of the turns has one case per constructor (`Chat.Machine`).
-/

namespace LocalRag.Chat

open LocalRag.Core Access Library Storage Ingest

/-! ## The rest of the system -/

/-- `ON DELETE SET NULL` of a source's chunk. -/
def unlinkedSource (isGone : ChunkId → Bool) (s : TurnSource) : TurnSource :=
  { s with chunkId := if s.chunkId.any isGone then none else s.chunkId }

/-- What a call outside this file does to the stored sources. -/
inductive SourcesStep (db : Db) : IngestCall → List TurnSource → Prop where
  | same {call : IngestCall} : SourcesStep db call db.chat.sources
  /-- Chunks go. -/
  | unlink {call : IngestCall} (isGone : ChunkId → Bool) :
      SourcesStep db call (db.chat.sources.map (unlinkedSource isGone))
  /-- A document goes; no source of it is left without a disposition. -/
  | delete {token : Option HexText} {d : DocumentId} {deletionId : DeletionId}
      (disposed : ∀ s ∈ db.chat.sources, s.documentId = some d →
        (frozenSource db d s).ownerAuthorizedAtDeletion ≠ none) :
      SourcesStep db (.library (.deleteDocument token d deletionId))
        ((db.chat.sources.map (frozenSource db d)).map (detachedSource d db.content.chunks))

/-- The chat tables after such a call. -/
def Elsewhere (db : Db) (call : IngestCall) (chat : ChatStore) : Prop :=
  ∃ sources, SourcesStep db call sources ∧ chat = { db.chat with sources := sources }

variable {db : Db}

variable {call : IngestCall} {chat : ChatStore}

theorem Elsewhere.same (h : chat = db.chat) : Elsewhere db call chat :=
  ⟨db.chat.sources, .same, h⟩

theorem Elsewhere.unlink (isGone : ChunkId → Bool)
    (h : chat = { db.chat with sources := db.chat.sources.map (unlinkedSource isGone) }) :
    Elsewhere db call chat :=
  ⟨_, .unlink isGone, h⟩

variable {db' : Db}

/-- The deletion found a disposition for every source of the document. -/
theorem v4AdminDeleteDocument_disposed {token : Option HexText} {d : DocumentId}
    {deletionId : DeletionId} {r : Unit}
    (h : v4AdminDeleteDocument db token d deletionId = .ok (db', r)) :
    ∀ s ∈ db.chat.sources, s.documentId = some d →
      (frozenSource db d s).ownerAuthorizedAtDeletion ≠ none := by
  unfold v4AdminDeleteDocument at h
  split at h
  · cases h
  split at h
  · cases h
  simp only [ite_error_eq_ok] at h
  obtain ⟨_, _, _, _, hnone, _⟩ := h
  intro s hs hd hnull
  refine hnone ?_
  rw [List.any_eq_true]
  exact ⟨s, hs, by simpa using ⟨hd, hnull⟩⟩

variable {ρ : Type}

variable {res : Except SqlError (Db × ρ)}

/-- The commit of a transaction is such a call if every way it returns is. -/
theorem elsewhere_commit (h : ∀ db' r, res = .ok (db', r) → Elsewhere db call db'.chat) :
    Elsewhere db call (LocalRag.Core.commit db res).chat :=
  commit_inv (fun db' : Db => Elsewhere db call db'.chat) (.same rfl) h

/-- A library call leaves the chats alone, unless it deletes a document. -/
theorem step_elsewhere (db : Db) (call : Call) :
    Elsewhere db (.library call) (step db call).chat := by
  have heffect := step_effect db call
  generalize step db call = after at heffect
  cases heffect with
  | applyAcl performed =>
    obtain ⟨_, _, _, _, _, _, rfl⟩ := applyOperation_ok (fun _ => True) performed
    exact .same rfl
  | deleteDocument done =>
    have hdisposed := v4AdminDeleteDocument_disposed done
    obtain ⟨document, _, _, _, rfl, _, _, _, _, rfl⟩ := v4AdminDeleteDocument_ok done
    exact ⟨_, .delete hdisposed, rfl⟩
  | same | tick | sessions | activate | reset | setUser | createFolder | rename | deleteFolder
  | previewAcl | createChildren | stored | upload => exact .same rfl

/-- A worker's call leaves the chats alone, unless it replaces chunks. -/
theorem jobStep_elsewhere (db : Db) (call : JobCall) :
    Elsewhere db (.job call) (jobStep db call).chat := by
  have heffect := jobStep_effect db call
  generalize jobStep db call = after at heffect
  cases heffect with
  | commit => exact .unlink _ rfl
  | same | tick | claim | heartbeat | progress | requeue | poison => exact .same rfl

/-- Every call of the ingestion system reaches the chats through the sources only. -/
theorem ingestStep_elsewhere (db : Db) (call : IngestCall) :
    Elsewhere db call (ingestStep db call).chat := by
  cases call with
  | library call => exact step_elsewhere db call
  | job call => exact jobStep_elsewhere db call
  | maintenanceRequeue =>
    refine elsewhere_commit fun db' r h => ?_
    rcases v4MaintenanceRequeueDocument_ok h with rfl | ⟨_, _, _, _, _, rfl⟩
    · exact .same rfl
    · exact .unlink _ rfl
  | documentReingest =>
    refine elsewhere_commit fun db' r h => ?_
    rcases v4CommitDocumentReingest_ok h with rfl | ⟨_, _, _, _, _, _, rfl⟩
    · exact .same rfl
    · exact .unlink _ rfl
  | previewReprocessing =>
    refine elsewhere_commit fun db' r h => ?_
    obtain ⟨_, rfl⟩ := v10AdminPreviewReprocessing_ok h
    exact .same rfl
  | issueGrant =>
    refine elsewhere_commit fun db' r h => ?_
    obtain ⟨_, rfl⟩ := v10AdminIssueReprocessingGrant_ok h
    exact .same rfl
  | startReprocessing =>
    refine elsewhere_commit fun db' r h => ?_
    obtain ⟨_, _, _, _, hstarted, rfl⟩ := v10AdminStartReprocessing_ok h
    cases hstarted with
    | reindex => exact .same rfl
    | reingestion => exact .same rfl
  | pause =>
    refine elsewhere_commit fun db' r h => ?_
    obtain rfl := v10AdminPauseReprocessing_ok h
    exact .same rfl
  | resume =>
    refine elsewhere_commit fun db' r h => ?_
    obtain rfl := v10AdminResumeReprocessing_ok h
    exact .same rfl
  | cancel =>
    refine elsewhere_commit fun db' r h => ?_
    rcases v10AdminCancelReprocessing_ok h with rfl | ⟨_, _, _, _, _, rfl⟩
    · exact .same rfl
    · exact .same rfl
  | retry =>
    refine elsewhere_commit fun db' r h => ?_
    rcases v10AdminRetryReprocessing_ok h with rfl | ⟨operation, _, _, _, rfl⟩
    · exact .same rfl
    · exact .same (retriedWork_untouched db operation).2.2.2.1
  | rollbackEmbedding =>
    refine elsewhere_commit fun db' r h => ?_
    rcases v10AdminRollbackEmbeddingGeneration_ok h with ⟨rfl, _⟩ | ⟨_, _, _, _, rfl, _⟩
    · exact .same rfl
    · exact .same rfl
  | cleanupGeneration =>
    refine elsewhere_commit fun db' r h => ?_
    rcases v10AdminCleanupGeneration_ok h with rfl | ⟨_, _, rfl⟩ | ⟨_, _, rfl⟩
    · exact .same rfl
    · exact .same rfl
    · exact .unlink _ rfl

/-! ## The calls -/

inductive ChatCall where
  | system (call : IngestCall)
  | createChat (token : Option HexText) (chatId : ChatId) (title scopeMode : String)
  | deleteChat (token : Option HexText) (chatId : ChatId)
  | replaceChatScope (token : Option HexText) (chatId : ChatId) (nodeIds : List NodeId)
  | beginTurn (token : Option HexText) (chatId : ChatId) (question : String)
      (generationToken : Option LeaseToken) (autoTitle : String) (turnId : TurnId)
  | storeTurnSources (token : Option HexText) (turnId : TurnId)
      (generationToken : Option LeaseToken) (sources : List SourceRequest)
  | failTurn (token : Option HexText) (turnId : TurnId) (generationToken : Option LeaseToken)
      (error : String)
  | retryTurn (token : Option HexText) (chatId : ChatId) (turnId : TurnId)
      (generationToken : Option LeaseToken)
  | interruptTurn (token : Option HexText) (chatId : ChatId) (turnId : TurnId)
      (generationToken : Option LeaseToken)
  | markTurnLengthLimited (token : Option HexText) (chatId : ChatId) (turnId : TurnId)
      (generationToken : Option LeaseToken) (partialAnswer : Option String)
  | markTurnCitationFailed (token : Option HexText) (chatId : ChatId) (turnId : TurnId)
      (generationToken : Option LeaseToken) (partialAnswer : Option String)
  | markTurnAccessRevoked (token : Option HexText) (turnId : TurnId)
      (generationToken : Option LeaseToken)
  | markTurnAccessRevokedTrusted (turnId : TurnId) (generationToken : Option LeaseToken)
  | finalizeTurn (token : Option HexText) (turnId : TurnId)
      (generationToken : Option LeaseToken) (finalAnswer : Option String)
      (insufficientContext : Bool) (sourceRanks : List Nat)
  | repairInterruptedTurns
deriving Repr, DecidableEq

/-- One transaction, or one advance of the clock. -/
def chatStep (db : Db) : ChatCall → Db
  | .system call => ingestStep db call
  | .createChat token chatId title scopeMode =>
    commit db (v4CreateChat db token chatId title scopeMode)
  | .deleteChat token chatId => commit db (v4DeleteChat db token chatId)
  | .replaceChatScope token chatId nodeIds =>
    commit db (v4ReplaceChatScope db token chatId nodeIds)
  | .beginTurn token chatId question generationToken autoTitle turnId =>
    commit db (v4BeginTurn db token chatId question generationToken autoTitle turnId)
  | .storeTurnSources token turnId generationToken sources =>
    commit db (v4StoreTurnSources db token turnId generationToken sources)
  | .failTurn token turnId generationToken error =>
    commit db (v4FailTurn db token turnId generationToken error)
  | .retryTurn token chatId turnId generationToken =>
    commit db (v4RetryTurn db token chatId turnId generationToken)
  | .interruptTurn token chatId turnId generationToken =>
    commit db (v4InterruptTurn db token chatId turnId generationToken)
  | .markTurnLengthLimited token chatId turnId generationToken partialAnswer =>
    commit db (v4MarkTurnLengthLimited db token chatId turnId generationToken partialAnswer)
  | .markTurnCitationFailed token chatId turnId generationToken partialAnswer =>
    commit db (v4MarkTurnCitationFailed db token chatId turnId generationToken partialAnswer)
  | .markTurnAccessRevoked token turnId generationToken =>
    commit db (v4MarkTurnAccessRevoked db token turnId generationToken)
  | .markTurnAccessRevokedTrusted turnId generationToken =>
    commit db (v4MarkTurnAccessRevokedTrusted db turnId generationToken)
  | .finalizeTurn token turnId generationToken finalAnswer insufficientContext sourceRanks =>
    commit db (v4FinalizeTurn db token turnId generationToken finalAnswer insufficientContext
      sourceRanks)
  | .repairInterruptedTurns => commit db (v4RepairInterruptedTurns db)

/-- The turn a call acts on and the token it presents for it. -/
def ChatCall.presented : ChatCall → Option (TurnId × Option LeaseToken)
  | .storeTurnSources _ turnId generationToken _ => some (turnId, generationToken)
  | .failTurn _ turnId generationToken _ => some (turnId, generationToken)
  | .interruptTurn _ _ turnId generationToken => some (turnId, generationToken)
  | .markTurnLengthLimited _ _ turnId generationToken _ => some (turnId, generationToken)
  | .markTurnCitationFailed _ _ turnId generationToken _ => some (turnId, generationToken)
  | .markTurnAccessRevoked _ turnId generationToken => some (turnId, generationToken)
  | .markTurnAccessRevokedTrusted turnId generationToken => some (turnId, generationToken)
  | .finalizeTurn _ turnId generationToken _ _ _ => some (turnId, generationToken)
  | _ => none

/-- The token a call draws for a new attempt. -/
def ChatCall.drawn : ChatCall → Option LeaseToken
  | .beginTurn _ _ _ generationToken _ _ => generationToken
  | .retryTurn _ _ _ generationToken => generationToken
  | _ => none

/-! ## Every write -/

/-- The chat tables without a chat and everything under it. -/
def withoutChat (chat : ChatStore) (chatId : ChatId) : ChatStore :=
  let isGone (turnId : TurnId) : Bool :=
    chat.turns.any fun t => t.chatId = chatId ∧ t.id = turnId
  { chats := deleteWhere (fun c => c.id = chatId) chat.chats
    turns := deleteWhere (fun t => t.chatId = chatId) chat.turns
    sources := deleteWhere (fun s => isGone s.turnId) chat.sources
    citations := deleteWhere (fun c => isGone c.turnId) chat.citations }

/-- `call` takes the chat tables of `db` to these by one of these writes. -/
inductive ChatStep (db : Db) : ChatCall → ChatStore → Prop where
  /-- A call that changes nothing. -/
  | same {call : ChatCall} : ChatStep db call db.chat
  /-- A call of the rest of the system. -/
  | elsewhere {call : IngestCall} {chat : ChatStore} (step : Elsewhere db call chat) :
      ChatStep db (.system call) chat
  | create {call : ChatCall} {chatId : ChatId} (actor : UserId)
      (fresh : ∀ c ∈ db.chat.chats, c.id ≠ chatId) :
      ChatStep db call { db.chat with
        chats := db.chat.chats ++
          [{ id := chatId, ownerUserId := actor, scopeVersion := 1, nextTurnOrdinal := 1 }] }
  | delete {token : Option HexText} {chatId : ChatId} :
      ChatStep db (.deleteChat token chatId) (withoutChat db.chat chatId)
  | scope {call : ChatCall} (chatId : ChatId) :
      ChatStep db call { db.chat with
        chats := updateWhere (fun c => c.id = chatId)
          (fun c => { c with scopeVersion := c.scopeVersion + 1 }) db.chat.chats }
  /-- A turn begins at the chat's next ordinal, with no other one generating. -/
  | beginTurn {token : Option HexText} {question autoTitle : String} {drawn : LeaseToken}
      {turnId : TurnId} {chat : Chat} (mem : chat ∈ db.chat.chats)
      (consistent : statusConsistent (begunTurn db chat turnId question drawn) = true)
      (fresh : ∀ t ∈ db.chat.turns, t.id ≠ turnId)
      (idle : ∀ t ∈ db.chat.turns, t.chatId = chat.id → t.status ≠ .generating) :
      ChatStep db (.beginTurn token chat.id question (some drawn) autoTitle turnId) { db.chat with
        turns := db.chat.turns ++ [begunTurn db chat turnId question drawn]
        chats := updateWhere (fun c => c.id = chat.id)
          (fun c => { c with nextTurnOrdinal := c.nextTurnOrdinal + 1 }) db.chat.chats }
  /-- Sources of a held turn that its owner can read. -/
  | store {call : ChatCall} {rows : List TurnSource}
      (attached : ∀ s ∈ rows, s.documentId ≠ none) :
      ChatStep db call { db.chat with sources := db.chat.sources ++ rows }
  /-- An attempt under its token ends without an answer. -/
  | ended {call : ChatCall} {turn : ChatTurn} {status : TurnStatus}
      {partialAnswer error : Option String} (mem : turn ∈ db.chat.turns)
      (generating : turn.status = .generating) (unanswered : status ≠ .complete)
      (stopped : status ≠ .generating)
      (consistent : statusConsistent (endedTurn status partialAnswer error turn) = true) :
      ChatStep db call (setTurn db.chat (endedTurn status partialAnswer error turn))
  /-- The last turn of an idle chat starts again. -/
  | retry {token : Option HexText} {chatId : ChatId} {drawn : LeaseToken} {chat : Chat}
      {turn : ChatTurn} (mem : turn ∈ db.chat.turns) (retryable : isRetryable turn = true)
      (idle : ∀ t ∈ db.chat.turns, t.chatId = turn.chatId → t.status ≠ .generating)
      (consistent : statusConsistent (retriedTurn chat drawn turn) = true) :
      ChatStep db (.retryTurn token chatId turn.id (some drawn))
        (setTurn (clearedSources db turn).chat (retriedTurn chat drawn turn))
  /-- An attempt under its token is answered, with every source authorized. -/
  | finalize {token : Option HexText} {generationToken : Option LeaseToken} {answer : String}
      {insufficientContext : Bool} {sourceRanks : List Nat} {turn : ChatTurn}
      (held : heldTurn db token turn.id generationToken = some turn)
      (authorized : hasRevokedSource db token turn.id = false)
      (stored : ∀ k ∈ sourceRanks, ∃ s ∈ db.chat.sources, s.turnId = turn.id ∧ s.rank = k)
      (consistent : statusConsistent (completeTurn db.now answer insufficientContext turn) = true) :
      ChatStep db (.finalizeTurn token turn.id generationToken (some answer) insufficientContext
          sourceRanks)
        (setTurn
          { db.chat with citations := db.chat.citations ++ citationRows turn.id sourceRanks }
          (completeTurn db.now answer insufficientContext turn))
  | repair {call : ChatCall} :
      ChatStep db call { db.chat with
        turns := updateWhere (fun t => t.status = .generating)
          (endedTurn .interrupted none (some "generation interrupted by stopped service"))
          db.chat.turns }

/-! ## Each call makes one of them -/

/-- The commit of a transaction takes a step if every way it returns does. -/
theorem chatStep_commit {call : ChatCall}
    (h : ∀ db' r, res = .ok (db', r) → ChatStep db call db'.chat) :
    ChatStep db call (LocalRag.Core.commit db res).chat :=
  commit_inv (fun db' : Db => ChatStep db call db'.chat) .same h

variable {turnId : TurnId} {generationToken : Option LeaseToken}

/-- An end of an attempt is a step of any call. -/
theorem Ended.chatStep (h : Ended db turnId generationToken db') (call : ChatCall) :
    ChatStep db call db'.chat := by
  obtain ⟨turn, hmem, status, partialAnswer, error, _, hholds, hstopped, hanswer, hconsistent,
    rfl⟩ := h
  exact .ended hmem (holdsToken_generating hholds) hanswer hstopped hconsistent

theorem chatStep_ended {call : ChatCall}
    (h : ∀ db' r, res = .ok (db', r) → db' = db ∨ Ended db turnId generationToken db') :
    ChatStep db call (LocalRag.Core.commit db res).chat := by
  refine chatStep_commit fun db' r heq => ?_
  rcases h db' r heq with rfl | hended
  · exact .same
  · exact hended.chatStep call

/-- A requested source is stored with its document, and nothing is said of a deletion yet. -/
theorem sourceRows_attached {token : Option HexText} {sources : List SourceRequest} :
    ∀ s ∈ sourceRows db token turnId sources,
      s.documentId ≠ none ∧ s.ownerAuthorizedAtDeletion = none := by
  intro s hs
  simp only [sourceRows, List.mem_flatMap, List.mem_map] at hs
  obtain ⟨_, _, _, _, _, _, document, _, _, _, rfl⟩ := hs
  exact ⟨Option.some_ne_none document.id, rfl⟩

/-- Every call of the system takes one step on the chat tables. -/
theorem chatStep_chat (db : Db) (call : ChatCall) : ChatStep db call (chatStep db call).chat := by
  cases call with
  | system call => exact .elsewhere (ingestStep_elsewhere db call)
  | createChat =>
    refine chatStep_commit fun db' r h => ?_
    obtain ⟨actor, hfresh, rfl⟩ := v4CreateChat_ok h
    exact .create actor hfresh
  | deleteChat token chatId =>
    refine chatStep_commit fun db' r h => ?_
    unfold v4DeleteChat at h
    split at h
    · obtain rfl := left_of_ok h
      exact .same
    · obtain rfl := left_of_ok h
      exact .delete
  | replaceChatScope token chatId nodeIds =>
    refine chatStep_commit fun db' r h => ?_
    unfold v4ReplaceChatScope at h
    split at h
    · cases h
    · rw [ite_error_eq_ok] at h
      obtain rfl := left_of_ok h.2
      exact .scope chatId
  | beginTurn =>
    refine chatStep_commit fun db' r h => ?_
    obtain ⟨chat, drawn, hchat, rfl, hinsert, rfl⟩ := v4BeginTurn_ok h
    obtain ⟨hmem, rfl⟩ := ownedChat_some hchat
    obtain ⟨hconsistent, hfresh, hidle, _⟩ := insertTurn_ok hinsert
    refine .beginTurn hmem hconsistent hfresh fun t ht hown hgen => ?_
    have hother := hidle rfl
    rw [anotherGenerates, List.any_eq_false] at hother
    exact hother t ht (by simpa using ⟨hfresh t ht, hown, hgen⟩)
  | storeTurnSources =>
    refine chatStep_commit fun db' r h => ?_
    obtain ⟨_, _, rfl⟩ := v4StoreTurnSources_ok h
    exact .store fun s hs => (sourceRows_attached s hs).1
  | failTurn => exact chatStep_ended fun _ _ h => v4FailTurn_ok h
  | retryTurn =>
    refine chatStep_commit fun db' r h => ?_
    rcases v4RetryTurn_ok h with
      rfl | ⟨chat, drawn, turn, hmem, rfl, rfl, rfl, _, hretryable, hidle, hconsistent, rfl⟩
    · exact .same
    · exact .retry hmem hretryable hidle hconsistent
  | interruptTurn => exact chatStep_ended fun _ _ h => endTurn_ok (by decide) (by decide) h
  | markTurnLengthLimited => exact chatStep_ended fun _ _ h => v4MarkTurnLengthLimited_ok h
  | markTurnCitationFailed => exact chatStep_ended fun _ _ h => v4MarkTurnCitationFailed_ok h
  | markTurnAccessRevoked => exact chatStep_ended fun _ _ h => v4MarkTurnAccessRevoked_ok h
  | markTurnAccessRevokedTrusted =>
    exact chatStep_ended fun _ _ h => v4MarkTurnAccessRevokedTrusted_ok h
  | finalizeTurn =>
    refine chatStep_commit fun db' r h => ?_
    rcases v4FinalizeTurn_ok h with
      rfl | hended | ⟨answer, turn, rfl, hheld, hauthorized, hstored, hconsistent, rfl⟩
    · exact .same
    · exact hended.chatStep _
    · obtain rfl := (heldTurn_some hheld).2.1
      exact .finalize hheld hauthorized hstored hconsistent
  | repairInterruptedTurns => exact .repair

/-! ## What the calls on chats leave alone -/

/-- What a call on the chats does to the stored sources. -/
inductive KeepsSources (sources : List TurnSource) : List TurnSource → Prop where
  | fewer {rest : List TurnSource} (sub : rest.Sublist sources) : KeepsSources sources rest
  | more {rows : List TurnSource} (keyed : Keyed (fun s => (s.turnId, s.rank)) (sources ++ rows))
      (attached : ∀ s ∈ rows, s.documentId ≠ none ∧ s.ownerAuthorizedAtDeletion = none) :
      KeepsSources sources (sources ++ rows)

/-- Only the chat tables are written, and no stored source is rewritten. -/
def OnlyChats (db db' : Db) : Prop :=
  ∃ chat, db' = { db with chat := chat } ∧ KeepsSources db.chat.sources chat.sources

theorem OnlyChats.of_sources (h : db' = { db with chat := chat })
    (hsources : chat.sources = db.chat.sources) : OnlyChats db db' :=
  ⟨chat, h, .fewer (hsources ▸ List.Sublist.refl _)⟩

theorem Ended.onlyChats (h : db' = db ∨ Ended db turnId generationToken db') :
    OnlyChats db db' := by
  rcases h with rfl | ⟨_, _, _, _, _, _, _, _, _, _, rfl⟩
  · exact .of_sources rfl rfl
  · exact .of_sources rfl rfl

/-- The calls that are not the rest of the system's write the chat tables only. -/
theorem chatStep_onlyChats (db : Db) {call : ChatCall} (hother : ∀ c, call ≠ .system c) :
    OnlyChats db (chatStep db call) := by
  have hcommit : ∀ {ρ : Type} {res : Except SqlError (Db × ρ)},
      (∀ db' r, res = .ok (db', r) → OnlyChats db db') →
      OnlyChats db (LocalRag.Core.commit db res) :=
    commit_inv (OnlyChats db) (.of_sources rfl rfl)
  cases call with
  | system call => exact absurd rfl (hother call)
  | createChat =>
    refine hcommit fun db' r heq => ?_
    obtain ⟨_, _, rfl⟩ := v4CreateChat_ok heq
    exact .of_sources rfl rfl
  | deleteChat token chatId =>
    refine hcommit fun db' r heq => ?_
    unfold v4DeleteChat at heq
    split at heq
    · obtain rfl := left_of_ok heq
      exact .of_sources rfl rfl
    · obtain rfl := left_of_ok heq
      exact ⟨_, rfl, .fewer List.filter_sublist⟩
  | replaceChatScope token chatId nodeIds =>
    refine hcommit fun db' r heq => ?_
    unfold v4ReplaceChatScope at heq
    split at heq
    · cases heq
    · rw [ite_error_eq_ok] at heq
      obtain rfl := left_of_ok heq.2
      exact .of_sources rfl rfl
  | beginTurn =>
    refine hcommit fun db' r heq => ?_
    obtain ⟨_, _, _, _, _, rfl⟩ := v4BeginTurn_ok heq
    exact .of_sources rfl rfl
  | storeTurnSources =>
    refine hcommit fun db' r heq => ?_
    obtain ⟨_, hkeyed, rfl⟩ := v4StoreTurnSources_ok heq
    exact ⟨_, rfl, .more hkeyed sourceRows_attached⟩
  | failTurn => exact hcommit fun _ _ heq => Ended.onlyChats (v4FailTurn_ok heq)
  | retryTurn =>
    refine hcommit fun db' r heq => ?_
    rcases v4RetryTurn_ok heq with rfl | ⟨_, _, turn, _, _, _, _, _, _, _, _, rfl⟩
    · exact .of_sources rfl rfl
    · refine ⟨_, rfl, .fewer ?_⟩
      show (clearedSources db turn).chat.sources.Sublist _
      unfold clearedSources
      split
      · exact List.Sublist.refl _
      · exact List.filter_sublist
  | interruptTurn =>
    exact hcommit fun _ _ heq => Ended.onlyChats (endTurn_ok (by decide) (by decide) heq)
  | markTurnLengthLimited =>
    exact hcommit fun _ _ heq => Ended.onlyChats (v4MarkTurnLengthLimited_ok heq)
  | markTurnCitationFailed =>
    exact hcommit fun _ _ heq => Ended.onlyChats (v4MarkTurnCitationFailed_ok heq)
  | markTurnAccessRevoked =>
    exact hcommit fun _ _ heq => Ended.onlyChats (v4MarkTurnAccessRevoked_ok heq)
  | markTurnAccessRevokedTrusted =>
    exact hcommit fun _ _ heq => Ended.onlyChats (v4MarkTurnAccessRevokedTrusted_ok heq)
  | finalizeTurn =>
    refine hcommit fun db' r heq => ?_
    rcases v4FinalizeTurn_ok heq with rfl | hended | ⟨_, _, _, _, _, _, _, rfl⟩
    · exact .of_sources rfl rfl
    · exact Ended.onlyChats (Or.inr hended)
    · exact .of_sources rfl rfl
  | repairInterruptedTurns => exact .of_sources rfl rfl

end LocalRag.Chat
