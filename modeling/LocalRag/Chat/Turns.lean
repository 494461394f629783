import LocalRag.Storage.Uploads

/-!
# Chats and turns — the functions that write them

`v4_create_chat`, `v4_delete_chat`, `v4_replace_chat_scope`, `v4_begin_turn`,
`v4_fail_turn`, `v4_retry_turn`, `v4_interrupt_turn`,
`v4_mark_turn_length_limited`, `v4_mark_turn_citation_failed`,
`v4_mark_turn_access_revoked` and its trusted form, `v4_finalize_turn` and
`v4_repair_interrupted_turns` of `0001_v4_baseline`, and
`v4_store_turn_sources` as `0002` replaces it.

A turn is worked on under a generation token: whoever begins or retries it draws
a new one, and every function that ends an attempt asks for it. The three ends
that report back by name differ in a status and a text and are one definition
(`endTurn`).

Mirroring notes. `updateTurn` and `insertTurn` are the two ways a row of
`chat_turns` is written, with the constraints that can fail: the check on the
status, the key, and the partial index that allows one generating turn per
chat. A row's positive numbers and the copied columns of a source satisfy their
CHECKs by where they come from. Titles, scope nodes and scores are validated as
in the source and not stored; nothing here reads them back.
-/

namespace LocalRag.Chat

open LocalRag.Core Access Library Storage

/-- `btrim(text)`, which strips blanks only. -/
def btrim (s : String) : String :=
  String.ofList (((s.toList.dropWhile (· = ' ')).reverse.dropWhile (· = ' ')).reverse)

/-! ## The two tables -/

/-- `ck_chat_turns_status_consistency`. -/
def statusConsistent (t : ChatTurn) : Bool :=
  match t.status with
  | .generating =>
    t.generationToken ≠ none ∧ t.finalAnswer = none ∧ t.error = none ∧
      t.partialAnswer.all (fun p => 0 < p.length) ∧ t.completedAt = none ∧
      t.insufficientContext = false
  | .complete =>
    t.generationToken = none ∧ t.finalAnswer.any (fun a => 0 < a.length) ∧
      t.partialAnswer = none ∧ t.error = none ∧ t.completedAt ≠ none
  | .lengthLimited =>
    t.generationToken = none ∧ t.finalAnswer = none ∧
      t.partialAnswer.any (fun p => 0 < p.length) ∧ t.completedAt = none ∧
      t.error = some "response reached generation limit" ∧ t.insufficientContext = false
  | .citationFailed =>
    t.generationToken = none ∧ t.finalAnswer = none ∧
      t.partialAnswer.any (fun p => 0 < p.length) ∧ t.completedAt = none ∧
      t.error = some "citation validation failed" ∧ t.insufficientContext = false
  | .failed | .interrupted | .accessRevoked =>
    t.generationToken = none ∧ t.finalAnswer = none ∧ t.partialAnswer = none ∧
      t.completedAt = none ∧ t.error.any (fun e => 1 ≤ e.length ∧ e.length ≤ 500) ∧
      t.insufficientContext = false

/-- `ck_turn_sources_deleted_disposition`. -/
def isDisposed (s : TurnSource) : Bool :=
  s.documentId ≠ none ∨ s.ownerAuthorizedAtDeletion ≠ none

/-- Another turn of the chat is generating: `uq_chat_turns_one_generating`. -/
def anotherGenerates (db : Db) (turn : ChatTurn) : Bool :=
  db.chat.turns.any fun t => t.id ≠ turn.id ∧ t.chatId = turn.chatId ∧ t.status = .generating

/-- `INSERT INTO chat_turns`. -/
def insertTurn (db : Db) (turn : ChatTurn) : Except SqlError Db :=
  if ¬ statusConsistent turn then .error (checkViolation "ck_chat_turns_status_consistency")
  else if db.chat.turns.any fun t => t.id = turn.id then
    .error (uniqueViolation "chat_turns_pkey")
  else if db.chat.turns.any fun t => t.chatId = turn.chatId ∧ t.ordinal = turn.ordinal then
    .error (uniqueViolation "uq_chat_turns_chat_ordinal")
  else if turn.status = .generating ∧ anotherGenerates db turn then
    .error (uniqueViolation "uq_chat_turns_one_generating")
  else .ok { db with chat.turns := db.chat.turns ++ [turn] }

/-- `UPDATE chat_turns … WHERE id = …`, with the row it leaves. -/
def updateTurn (db : Db) (turn : ChatTurn) : Except SqlError Db :=
  if ¬ statusConsistent turn then .error (checkViolation "ck_chat_turns_status_consistency")
  else if turn.status = .generating ∧ anotherGenerates db turn then
    .error (uniqueViolation "uq_chat_turns_one_generating")
  else
    .ok { db with
      chat.turns := updateWhere (fun t => t.id = turn.id) (fun _ => turn) db.chat.turns }

/-- The chat, if the session's actor owns it. -/
def ownedChat (db : Db) (token : Option HexText) (chatId : ChatId) : Option Chat :=
  db.chat.chats.find? fun c => c.id = chatId ∧ v4CurrentActorId db token = some c.ownerUserId

/-- `status = 'generating' AND generation_token = p_generation_token`. -/
def holdsToken (generationToken : Option LeaseToken) (t : ChatTurn) : Bool :=
  t.status = .generating ∧ generationToken ≠ none ∧ t.generationToken = generationToken

/-- The turn under its current token, in a chat of the actor. -/
def heldTurn (db : Db) (token : Option HexText) (turnId : TurnId)
    (generationToken : Option LeaseToken) : Option ChatTurn :=
  db.chat.turns.find? fun t =>
    t.id = turnId ∧ (ownedChat db token t.chatId).isSome ∧ holdsToken generationToken t

/-! ## Chats -/

/-- `v4_create_chat`. -/
def v4CreateChat (db : Db) (token : Option HexText) (chatId : ChatId) (title scopeMode : String) :
    Except SqlError (Db × ChatId) :=
  match v4CurrentActorId db token with
  | none => .error ⟨"22023", "invalid chat creation"⟩
  | some actor =>
    if scopeMode ∉ ["all_ready", "selected"] ∨
        ¬ (1 ≤ (btrim title).length ∧ (btrim title).length ≤ 255) then
      .error ⟨"22023", "invalid chat creation"⟩
    else if db.chat.chats.any fun c => c.id = chatId then .error (uniqueViolation "chats_pkey")
    else
      .ok ({ db with
        chat.chats := db.chat.chats ++
          [{ id := chatId, ownerUserId := actor, scopeVersion := 1, nextTurnOrdinal := 1 }] },
        chatId)

/-- `v4_delete_chat`: turns, sources and citations go with the chat. -/
def v4DeleteChat (db : Db) (token : Option HexText) (chatId : ChatId) :
    Except SqlError (Db × Bool) :=
  match ownedChat db token chatId with
  | none => .ok (db, false)
  | some _ =>
    let isGone (turnId : TurnId) : Bool :=
      db.chat.turns.any fun t => t.chatId = chatId ∧ t.id = turnId
    .ok ({ db with
      chat :=
        { chats := deleteWhere (fun c => c.id = chatId) db.chat.chats
          turns := deleteWhere (fun t => t.chatId = chatId) db.chat.turns
          sources := deleteWhere (fun s => isGone s.turnId) db.chat.sources
          citations := deleteWhere (fun c => isGone c.turnId) db.chat.citations } }, true)

/-- `v4_replace_chat_scope`. -/
def v4ReplaceChatScope (db : Db) (token : Option HexText) (chatId : ChatId)
    (nodeIds : List NodeId) : Except SqlError (Db × Nat) :=
  match ownedChat db token chatId with
  | none => .error ⟨"42501", "chat scope is inaccessible"⟩
  | some chat =>
    if nodeIds.any fun i => ¬ canViewLibraryNode db (v4CurrentActorId db token) i then
      .error ⟨"42501", "chat scope is inaccessible"⟩
    else
      .ok ({ db with
        chat.chats := updateWhere (fun c => c.id = chatId)
          (fun c => { c with scopeVersion := c.scopeVersion + 1 }) db.chat.chats },
        chat.scopeVersion + 1)

/-! ## Begin and store sources -/

/-- The row `v4_begin_turn` inserts. -/
def begunTurn (db : Db) (chat : Chat) (turnId : TurnId) (question : String)
    (generationToken : LeaseToken) : ChatTurn :=
  { id := turnId
    chatId := chat.id
    ordinal := chat.nextTurnOrdinal
    question := btrim question
    status := .generating
    attempt := 1
    scopeVersion := chat.scopeVersion
    embeddingGenerationId := db.reprocessing.activeEmbeddingGeneration
    generationToken := some generationToken
    finalAnswer := none
    partialAnswer := none
    insufficientContext := false
    error := none
    completedAt := none }

/-- `v4_begin_turn`: the turn's id, ordinal and scope version. -/
def v4BeginTurn (db : Db) (token : Option HexText) (chatId : ChatId) (question : String)
    (generationToken : Option LeaseToken) (autoTitle : String) (turnId : TurnId) :
    Except SqlError (Db × (TurnId × Nat × Nat)) :=
  match ownedChat db token chatId, generationToken with
  | none, _ => .error noDataFound
  | some _, none => .error ⟨"22023", "invalid turn"⟩
  | some chat, some generationToken =>
    if ¬ (1 ≤ (btrim question).length ∧ (btrim question).length ≤ 2000) ∨
        ¬ (1 ≤ (btrim autoTitle).length ∧ (btrim autoTitle).length ≤ 255) then
      .error ⟨"22023", "invalid turn"⟩
    else
      match insertTurn db (begunTurn db chat turnId question generationToken) with
      | .error e => .error e
      | .ok begun =>
        .ok ({ begun with
          chat.chats := updateWhere (fun c => c.id = chatId)
            (fun c => { c with nextTurnOrdinal := c.nextTurnOrdinal + 1 }) begun.chat.chats },
          (turnId, chat.nextTurnOrdinal, chat.scopeVersion))

/-- An element of `p_sources`. -/
structure SourceRequest where
  rank : Option Nat
  chunkId : Option ChunkId
deriving Repr, DecidableEq

/-- The checks on `p_sources`. -/
def isInvalidSources (sources : List SourceRequest) : Bool :=
  8 < sources.length ∨ sources.any (fun r => ¬ r.rank.any fun k => 1 ≤ k ∧ k ≤ 8) ∨
    sources.any (fun r => r.chunkId = none) ∨ ¬ (sources.map (·.rank)).Nodup ∨
    ¬ (sources.map (·.chunkId)).Nodup

/-- The row inserted for a requested chunk of a document at its node. -/
def sourceRow (db : Db) (turnId : TurnId) (rank : Nat) (chunk : Chunk) (document : Document)
    (node : LibraryNode) : TurnSource :=
  { turnId := turnId
    rank := rank
    documentId := some document.id
    chunkId := some chunk.id
    documentIdSnapshot := document.id
    chunkIdSnapshot := chunk.id
    originalFilename := document.originalFilename
    displayName := node.name
    logicalPath := logicalPath db.library.nodes node.id
    pageStart := chunk.pageStart
    pageEnd := chunk.pageEnd
    sectionName := chunk.sectionName
    sourceSha256 := chunk.sourceSha256
    textSha256 := chunk.textSha256
    snapshotText := chunk.text
    highlightAnchor := chunk.highlightAnchor
    tokenCount := chunk.tokenCount
    ownerAuthorizedAtDeletion := none }

/-- The `SELECT` of the insert: the requested chunks that can be read. -/
def sourceRows (db : Db) (token : Option HexText) (turnId : TurnId)
    (sources : List SourceRequest) : List TurnSource :=
  sources.flatMap fun r => r.rank.toList.flatMap fun rank =>
    (db.content.chunks.filter fun c => r.chunkId = some c.id).flatMap fun chunk =>
      (db.content.documents.filter fun d => d.id = chunk.documentId ∧ d.state = .ready ∧
        v4CanReadDocument db token d.id).flatMap fun document =>
        (db.library.nodes.filter fun n => n.documentId = some document.id).map fun node =>
          sourceRow db turnId rank chunk document node

/-- `v4_store_turn_sources`. -/
def v4StoreTurnSources (db : Db) (token : Option HexText) (turnId : TurnId)
    (generationToken : Option LeaseToken) (sources : List SourceRequest) :
    Except SqlError (Db × Nat) :=
  match heldTurn db token turnId generationToken with
  | none => .error ⟨"22023", "invalid turn sources"⟩
  | some _ =>
    if isInvalidSources sources then .error ⟨"22023", "invalid turn sources"⟩
    else
      let rows := sourceRows db token turnId sources
      if ¬ Keyed (fun s => (s.turnId, s.rank)) (db.chat.sources ++ rows) then
        .error (uniqueViolation "turn_sources_pkey")
      else if rows.length ≠ sources.length then
        .error ⟨"42501", "turn source access changed"⟩
      else .ok ({ db with chat.sources := db.chat.sources ++ rows }, rows.length)

/-! ## The ends of an attempt -/

/-- The columns every end without an answer writes. -/
def endedTurn (status : TurnStatus) (partialAnswer error : Option String) (t : ChatTurn) :
    ChatTurn :=
  { t with
    status := status
    generationToken := none
    finalAnswer := none
    partialAnswer := partialAnswer
    insufficientContext := false
    error := error
    completedAt := none }

/-- `v4_fail_turn`. -/
def v4FailTurn (db : Db) (token : Option HexText) (turnId : TurnId)
    (generationToken : Option LeaseToken) (error : String) : Except SqlError (Db × Bool) :=
  match heldTurn db token turnId generationToken with
  | none => .ok (db, false)
  | some turn =>
    if ¬ (1 ≤ (btrim error).length ∧ (btrim error).length ≤ 500) then .ok (db, false)
    else
      match updateTurn db (endedTurn .failed none
          (some (String.ofList ((btrim error).toList.take 500))) turn) with
      | .error e => .error e
      | .ok failed => .ok (failed, true)

/-- `v4_mark_turn_access_revoked`. -/
def v4MarkTurnAccessRevoked (db : Db) (token : Option HexText) (turnId : TurnId)
    (generationToken : Option LeaseToken) : Except SqlError (Db × Bool) :=
  match heldTurn db token turnId generationToken with
  | none => .ok (db, false)
  | some turn =>
    match updateTurn db (endedTurn .accessRevoked none (some "access_revoked") turn) with
    | .error e => .error e
    | .ok revoked => .ok (revoked, true)

/-- What the functions that answer by name return. -/
inductive TurnResult where
  | notFound
  | alreadyInterrupted
  | alreadyLimited
  | alreadyFailed
  | alreadyTerminal
  | stale
  | interrupted
  | lengthLimited
  | citationFailed
  | updated
deriving Repr, DecidableEq

/-- `v4_mark_turn_access_revoked_trusted`, which asks for no owner. -/
def v4MarkTurnAccessRevokedTrusted (db : Db) (turnId : TurnId)
    (generationToken : Option LeaseToken) : Except SqlError (Db × TurnResult) :=
  match db.chat.turns.find? fun t => t.id = turnId with
  | none => .ok (db, .notFound)
  | some turn =>
    if turn.status ≠ .generating then .ok (db, .alreadyTerminal)
    else if ¬ holdsToken generationToken turn then .ok (db, .stale)
    else
      match updateTurn db (endedTurn .accessRevoked none (some "access_revoked") turn) with
      | .error e => .error e
      | .ok revoked => .ok (revoked, .updated)

/-- The body of the three ends that answer by name. -/
def endTurn (db : Db) (token : Option HexText) (chatId : ChatId) (turnId : TurnId)
    (generationToken : Option LeaseToken) (status : TurnStatus) (partialAnswer : Option String)
    (error : String) (already done : TurnResult) : Except SqlError (Db × TurnResult) :=
  match ownedChat db token chatId with
  | none => .ok (db, .notFound)
  | some _ =>
    match db.chat.turns.find? fun t => t.id = turnId ∧ t.chatId = chatId with
    | none => .ok (db, .notFound)
    | some turn =>
      if turn.status = status then .ok (db, already)
      else if ¬ holdsToken generationToken turn then .ok (db, .stale)
      else
        match updateTurn db (endedTurn status partialAnswer (some error) turn) with
        | .error e => .error e
        | .ok ended => .ok (ended, done)

/-- `v4_interrupt_turn`. -/
def v4InterruptTurn (db : Db) (token : Option HexText) (chatId : ChatId) (turnId : TurnId)
    (generationToken : Option LeaseToken) : Except SqlError (Db × TurnResult) :=
  endTurn db token chatId turnId generationToken .interrupted none "generation cancelled"
    .alreadyInterrupted .interrupted

/-- `p_partial_answer IS NULL OR char_length(btrim(p_partial_answer)) = 0`. -/
def lacksPartialAnswer (partialAnswer : Option String) : Bool :=
  ¬ partialAnswer.any fun p => (btrim p).length ≠ 0

/-- `v4_mark_turn_length_limited`. -/
def v4MarkTurnLengthLimited (db : Db) (token : Option HexText) (chatId : ChatId)
    (turnId : TurnId) (generationToken : Option LeaseToken) (partialAnswer : Option String) :
    Except SqlError (Db × TurnResult) :=
  if lacksPartialAnswer partialAnswer then .error ⟨"22023", "partial answer is required"⟩
  else
    endTurn db token chatId turnId generationToken .lengthLimited (partialAnswer.map btrim)
      "response reached generation limit" .alreadyLimited .lengthLimited

/-- `v4_mark_turn_citation_failed`. -/
def v4MarkTurnCitationFailed (db : Db) (token : Option HexText) (chatId : ChatId)
    (turnId : TurnId) (generationToken : Option LeaseToken) (partialAnswer : Option String) :
    Except SqlError (Db × TurnResult) :=
  if lacksPartialAnswer partialAnswer then .error ⟨"22023", "partial answer is required"⟩
  else
    endTurn db token chatId turnId generationToken .citationFailed (partialAnswer.map btrim)
      "citation validation failed" .alreadyFailed .citationFailed

/-- `v4_repair_interrupted_turns`. -/
def v4RepairInterruptedTurns (db : Db) : Except SqlError (Db × Nat) :=
  .ok ({ db with
    chat.turns := updateWhere (fun t => t.status = .generating)
      (endedTurn .interrupted none (some "generation interrupted by stopped service"))
      db.chat.turns }, (db.chat.turns.filter fun t => t.status = .generating).length)

/-! ## Retry -/

inductive RetryStatus where
  | notFound
  | notLatest
  | notRetryable
  | retried
deriving Repr, DecidableEq

/-- `status IN ('failed', 'interrupted', 'length_limited', 'citation_failed')`. -/
def isRetryable (t : ChatTurn) : Bool :=
  t.status = .failed ∨ t.status = .interrupted ∨ t.status = .lengthLimited ∨
    t.status = .citationFailed

/-- The row after a retry; an answer that was cut off is kept and continued. -/
def retriedTurn (chat : Chat) (generationToken : LeaseToken) (t : ChatTurn) : ChatTurn :=
  { t with
    status := .generating
    generationToken := some generationToken
    attempt := t.attempt + 1
    finalAnswer := none
    partialAnswer := if t.status = .lengthLimited then t.partialAnswer else none
    scopeVersion := if t.status = .lengthLimited then t.scopeVersion else chat.scopeVersion
    insufficientContext := false
    error := none
    completedAt := none }

/-- `DELETE FROM turn_citations` and `turn_sources`, unless the answer is continued. -/
def clearedSources (db : Db) (turn : ChatTurn) : Db :=
  if turn.status = .lengthLimited then db
  else
    { db with
      chat.citations := deleteWhere (fun c => c.turnId = turn.id) db.chat.citations
      chat.sources := deleteWhere (fun s => s.turnId = turn.id) db.chat.sources }

/-- `v4_retry_turn`: the status and the turn row its other columns come from. -/
def v4RetryTurn (db : Db) (token : Option HexText) (chatId : ChatId) (turnId : TurnId)
    (generationToken : Option LeaseToken) :
    Except SqlError (Db × (RetryStatus × Option ChatTurn)) :=
  match ownedChat db token chatId with
  | none => .ok (db, (.notFound, none))
  | some chat =>
    match db.chat.turns.find? fun t => t.id = turnId ∧ t.chatId = chatId with
    | none => .ok (db, (.notFound, none))
    | some turn =>
      if db.chat.turns.any fun t => t.chatId = chatId ∧ turn.ordinal < t.ordinal then
        .ok (db, (.notLatest, some turn))
      else
        match generationToken with
        | none => .ok (db, (.notRetryable, some turn))
        | some generationToken =>
          if ¬ isRetryable turn ∨
              db.chat.turns.any fun t => t.chatId = chatId ∧ t.status = .generating then
            .ok (db, (.notRetryable, some turn))
          else
            let new := retriedTurn chat generationToken turn
            match updateTurn (clearedSources db turn) new with
            | .error e => .error e
            | .ok retried => .ok (retried, (.retried, some new))

/-! ## Finalize -/

/-- `NOT (document_id IS NULL AND owner_authorized_at_deletion = true OR …)` is true. -/
def isRevoked (db : Db) (token : Option HexText) (s : TurnSource) : Bool :=
  match s.documentId with
  | none => s.ownerAuthorizedAtDeletion = some false
  | some d => ¬ v4CanReadDocument db token d

/-- Some source of the turn is revoked. -/
def hasRevokedSource (db : Db) (token : Option HexText) (turnId : TurnId) : Bool :=
  db.chat.sources.any fun s => s.turnId = turnId ∧ isRevoked db token s

/-- The row after a turn is finalized. -/
def completeTurn (now : Time) (finalAnswer : String) (insufficientContext : Bool)
    (t : ChatTurn) : ChatTurn :=
  { t with
    status := .complete
    generationToken := none
    finalAnswer := some finalAnswer
    partialAnswer := none
    insufficientContext := insufficientContext
    error := none
    completedAt := some now }

/-- `unnest(p_source_ranks) WITH ORDINALITY`. -/
def citationRows (turnId : TurnId) (ranks : List Nat) : List TurnCitation :=
  (ranks.zipIdx 1).map fun p => ⟨turnId, p.2, p.1⟩

/-- `INSERT INTO turn_citations`. -/
def insertCitations (db : Db) (rows : List TurnCitation) : Except SqlError Db :=
  if ¬ Keyed (fun c => (c.turnId, c.ordinal)) (db.chat.citations ++ rows) then
    .error (uniqueViolation "turn_citations_pkey")
  else if ¬ Keyed (fun c => (c.turnId, c.sourceRank)) (db.chat.citations ++ rows) then
    .error (uniqueViolation "uq_turn_citations_turn_source")
  else if rows.any fun c => ¬ db.chat.sources.any fun s =>
      s.turnId = c.turnId ∧ s.rank = c.sourceRank then
    .error (foreignKeyViolation "fk_turn_citations_source")
  else .ok { db with chat.citations := db.chat.citations ++ rows }

/-- `v4_finalize_turn`. -/
def v4FinalizeTurn (db : Db) (token : Option HexText) (turnId : TurnId)
    (generationToken : Option LeaseToken) (finalAnswer : Option String)
    (insufficientContext : Bool) (sourceRanks : List Nat) : Except SqlError (Db × Bool) :=
  match finalAnswer with
  | none => .error ⟨"22023", "invalid turn finalization"⟩
  | some answer =>
    if (btrim answer).length = 0 ∨ 8 < sourceRanks.length ∨
        sourceRanks.any (fun k => ¬ (1 ≤ k ∧ k ≤ 8)) ∨ ¬ sourceRanks.Nodup then
      .error ⟨"22023", "invalid turn finalization"⟩
    else
      match heldTurn db token turnId generationToken with
      | none => .ok (db, false)
      | some turn =>
        if hasRevokedSource db token turnId then
          match updateTurn db (endedTurn .accessRevoked none (some "access_revoked") turn) with
          | .error e => .error e
          | .ok revoked => .ok (revoked, false)
        else
          match insertCitations db (citationRows turnId sourceRanks) with
          | .error e => .error e
          | .ok cited =>
            match updateTurn cited (completeTurn db.now answer insufficientContext turn) with
            | .error e => .error e
            | .ok completed => .ok (completed, true)

/-! ## What each call can do -/

/-- The chat tables with one turn's row replaced. -/
def setTurn (chat : ChatStore) (turn : ChatTurn) : ChatStore :=
  { chat with turns := updateWhere (fun t => t.id = turn.id) (fun _ => turn) chat.turns }

variable {db db' : Db}

variable {turn : ChatTurn}

theorem updateTurn_ok (h : updateTurn db turn = .ok db') :
    statusConsistent turn = true ∧ db' = { db with chat := setTurn db.chat turn } := by
  unfold updateTurn at h
  simp only [ite_error_eq_ok] at h
  obtain ⟨hconsistent, _, h⟩ := h
  exact ⟨by simpa using hconsistent, (Except.ok.inj h).symm⟩

/-- An inserted turn passed the check, both keys and the partial index. -/
theorem insertTurn_ok (h : insertTurn db turn = .ok db') :
    statusConsistent turn = true ∧ (∀ t ∈ db.chat.turns, t.id ≠ turn.id) ∧
      (turn.status = .generating → anotherGenerates db turn = false) ∧
      db' = { db with chat.turns := db.chat.turns ++ [turn] } := by
  unfold insertTurn at h
  simp only [ite_error_eq_ok] at h
  obtain ⟨hconsistent, hid, _, hidle, h⟩ := h
  refine ⟨by simpa using hconsistent, by simpa using hid, ?_, (Except.ok.inj h).symm⟩
  intro hgen
  simpa [hgen] using hidle

variable {token : Option HexText} {chatId : ChatId}

theorem ownedChat_some {chat : Chat} (h : ownedChat db token chatId = some chat) :
    chat ∈ db.chat.chats ∧ chat.id = chatId := by
  have hfound := List.find?_some h
  simp only [decide_eq_true_eq] at hfound
  exact ⟨List.mem_of_find?_eq_some h, hfound.1⟩

variable {turnId : TurnId} {generationToken : Option LeaseToken}

theorem heldTurn_some (h : heldTurn db token turnId generationToken = some turn) :
    turn ∈ db.chat.turns ∧ turn.id = turnId ∧ (ownedChat db token turn.chatId).isSome ∧
      holdsToken generationToken turn = true := by
  have hfound := List.find?_some h
  simp only [Bool.decide_and, Bool.decide_eq_true, Bool.and_eq_true, decide_eq_true_eq] at hfound
  exact ⟨List.mem_of_find?_eq_some h, hfound⟩

theorem holdsToken_generating {t : ChatTurn} (h : holdsToken generationToken t = true) :
    t.status = .generating := by
  simp only [holdsToken, decide_eq_true_eq] at h
  exact h.1

/-- An attempt of this turn, held under the token, ended without an answer. -/
def Ended (db : Db) (turnId : TurnId) (generationToken : Option LeaseToken) (db' : Db) : Prop :=
  ∃ turn ∈ db.chat.turns, ∃ status partialAnswer error,
    turn.id = turnId ∧ holdsToken generationToken turn = true ∧
    status ≠ .generating ∧ status ≠ .complete ∧
    statusConsistent (endedTurn status partialAnswer error turn) = true ∧
    db' = { db with chat := setTurn db.chat (endedTurn status partialAnswer error turn) }

theorem v4CreateChat_ok {title scopeMode : String} {r : ChatId}
    (h : v4CreateChat db token chatId title scopeMode = .ok (db', r)) :
    ∃ actor, (∀ c ∈ db.chat.chats, c.id ≠ chatId) ∧ db' = { db with
      chat.chats := db.chat.chats ++
        [{ id := chatId, ownerUserId := actor, scopeVersion := 1, nextTurnOrdinal := 1 }] } := by
  unfold v4CreateChat at h
  split at h
  · cases h
  next actor _ =>
    simp only [ite_error_eq_ok] at h
    obtain ⟨_, hfresh, h⟩ := h
    exact ⟨actor, by simpa using hfresh, (left_of_ok h).symm⟩

/-- A begun turn was inserted, and the chat counts it. -/
theorem v4BeginTurn_ok {question autoTitle : String} {r : TurnId × Nat × Nat}
    (h : v4BeginTurn db token chatId question generationToken autoTitle turnId = .ok (db', r)) :
    ∃ chat drawn, ownedChat db token chatId = some chat ∧ generationToken = some drawn ∧
      insertTurn db (begunTurn db chat turnId question drawn) =
        .ok { db with
          chat.turns := db.chat.turns ++ [begunTurn db chat turnId question drawn] } ∧
      db' = { db with
        chat.turns := db.chat.turns ++ [begunTurn db chat turnId question drawn]
        chat.chats := updateWhere (fun c => c.id = chatId)
          (fun c => { c with nextTurnOrdinal := c.nextTurnOrdinal + 1 }) db.chat.chats } := by
  unfold v4BeginTurn at h
  split at h
  · cases h
  · cases h
  next chat drawn hchat =>
    rw [ite_error_eq_ok] at h
    obtain ⟨_, h⟩ := h
    split at h
    · cases h
    next begun hbegun =>
      obtain ⟨_, _, _, rfl⟩ := insertTurn_ok hbegun
      exact ⟨chat, drawn, hchat, rfl, hbegun, (left_of_ok h).symm⟩

theorem v4StoreTurnSources_ok {sources : List SourceRequest} {r : Nat}
    (h : v4StoreTurnSources db token turnId generationToken sources = .ok (db', r)) :
    (∃ turn, heldTurn db token turnId generationToken = some turn) ∧
      Keyed (fun s => (s.turnId, s.rank))
        (db.chat.sources ++ sourceRows db token turnId sources) ∧
      db' = { db with
        chat.sources := db.chat.sources ++ sourceRows db token turnId sources } := by
  unfold v4StoreTurnSources at h
  split at h
  · cases h
  next turn hheld =>
    simp only [ite_error_eq_ok] at h
    obtain ⟨_, hkeyed, _, h⟩ := h
    exact ⟨⟨turn, hheld⟩, by simpa using hkeyed, (left_of_ok h).symm⟩

variable {r : Bool}

theorem v4FailTurn_ok {error : String}
    (h : v4FailTurn db token turnId generationToken error = .ok (db', r)) :
    db' = db ∨ Ended db turnId generationToken db' := by
  unfold v4FailTurn at h
  split at h
  · exact Or.inl (left_of_ok h).symm
  next turn hheld =>
    split at h
    · exact Or.inl (left_of_ok h).symm
    split at h
    · cases h
    next failed hfailed =>
      obtain ⟨hmem, hid, _, hholds⟩ := heldTurn_some hheld
      obtain ⟨hconsistent, rfl⟩ := updateTurn_ok hfailed
      exact Or.inr ⟨turn, hmem, _, _, _, hid, hholds, by decide, by decide, hconsistent,
        (left_of_ok h).symm⟩

theorem v4MarkTurnAccessRevoked_ok
    (h : v4MarkTurnAccessRevoked db token turnId generationToken = .ok (db', r)) :
    db' = db ∨ Ended db turnId generationToken db' := by
  unfold v4MarkTurnAccessRevoked at h
  split at h
  · exact Or.inl (left_of_ok h).symm
  next turn hheld =>
    split at h
    · cases h
    next revoked hrevoked =>
      obtain ⟨hmem, hid, _, hholds⟩ := heldTurn_some hheld
      obtain ⟨hconsistent, rfl⟩ := updateTurn_ok hrevoked
      exact Or.inr ⟨turn, hmem, _, _, _, hid, hholds, by decide, by decide, hconsistent,
        (left_of_ok h).symm⟩

theorem v4MarkTurnAccessRevokedTrusted_ok {r : TurnResult}
    (h : v4MarkTurnAccessRevokedTrusted db turnId generationToken = .ok (db', r)) :
    db' = db ∨ Ended db turnId generationToken db' := by
  unfold v4MarkTurnAccessRevokedTrusted at h
  split at h
  · exact Or.inl (left_of_ok h).symm
  next turn hfind =>
    split at h
    · exact Or.inl (left_of_ok h).symm
    split at h
    · exact Or.inl (left_of_ok h).symm
    next hholds =>
      split at h
      · cases h
      next revoked hrevoked =>
        obtain ⟨hconsistent, rfl⟩ := updateTurn_ok hrevoked
        exact Or.inr ⟨turn, List.mem_of_find?_eq_some hfind, _, _, _,
          by simpa using List.find?_some hfind, by simpa using hholds, by decide, by decide,
          hconsistent, (left_of_ok h).symm⟩

variable {partialAnswer : Option String}

/-- The three ends that answer by name end the attempt or change nothing. -/
theorem endTurn_ok {status : TurnStatus} {error : String} {already done r : TurnResult}
    (hgenerating : status ≠ .generating) (hcomplete : status ≠ .complete)
    (h : endTurn db token chatId turnId generationToken status partialAnswer error already done =
      .ok (db', r)) : db' = db ∨ Ended db turnId generationToken db' := by
  unfold endTurn at h
  split at h
  · exact Or.inl (left_of_ok h).symm
  split at h
  · exact Or.inl (left_of_ok h).symm
  next turn hfind =>
    split at h
    · exact Or.inl (left_of_ok h).symm
    split at h
    · exact Or.inl (left_of_ok h).symm
    next hholds =>
      split at h
      · cases h
      next ended hended =>
        obtain ⟨hconsistent, rfl⟩ := updateTurn_ok hended
        have hid := List.find?_some hfind
        simp only [decide_eq_true_eq] at hid
        exact Or.inr ⟨turn, List.mem_of_find?_eq_some hfind, _, _, _, hid.1, by simpa using hholds,
          hgenerating, hcomplete, hconsistent, (left_of_ok h).symm⟩

theorem v4MarkTurnLengthLimited_ok {r : TurnResult}
    (h : v4MarkTurnLengthLimited db token chatId turnId generationToken partialAnswer =
      .ok (db', r)) : db' = db ∨ Ended db turnId generationToken db' := by
  unfold v4MarkTurnLengthLimited at h
  rw [ite_error_eq_ok] at h
  exact endTurn_ok (by decide) (by decide) h.2

theorem v4MarkTurnCitationFailed_ok {r : TurnResult}
    (h : v4MarkTurnCitationFailed db token chatId turnId generationToken partialAnswer =
      .ok (db', r)) : db' = db ∨ Ended db turnId generationToken db' := by
  unfold v4MarkTurnCitationFailed at h
  rw [ite_error_eq_ok] at h
  exact endTurn_ok (by decide) (by decide) h.2

/-- A retried turn was the last of its chat, had stopped, and none was generating. -/
theorem v4RetryTurn_ok {r : RetryStatus × Option ChatTurn}
    (h : v4RetryTurn db token chatId turnId generationToken = .ok (db', r)) :
    db' = db ∨ ∃ chat drawn, ∃ turn ∈ db.chat.turns, generationToken = some drawn ∧
      turn.id = turnId ∧ turn.chatId = chatId ∧
      (∀ t ∈ db.chat.turns, t.chatId = chatId → t.ordinal ≤ turn.ordinal) ∧
      isRetryable turn = true ∧
      (∀ t ∈ db.chat.turns, t.chatId = chatId → t.status ≠ .generating) ∧
      statusConsistent (retriedTurn chat drawn turn) = true ∧
      db' = { db with
        chat := setTurn (clearedSources db turn).chat (retriedTurn chat drawn turn) } := by
  unfold v4RetryTurn at h
  split at h
  · exact Or.inl (left_of_ok h).symm
  next chat _ =>
    split at h
    · exact Or.inl (left_of_ok h).symm
    next turn hfind =>
      have hid := List.find?_some hfind
      simp only [decide_eq_true_eq] at hid
      split at h
      · exact Or.inl (left_of_ok h).symm
      next hlatest =>
        split at h
        · exact Or.inl (left_of_ok h).symm
        next drawn =>
          split at h
          · exact Or.inl (left_of_ok h).symm
          next hretry =>
            dsimp only at h
            split at h
            · cases h
            next retried hretried =>
              obtain ⟨hconsistent, rfl⟩ := updateTurn_ok hretried
              obtain ⟨hretryable, hidle⟩ := not_or.mp hretry
              refine Or.inr ⟨chat, drawn, turn, List.mem_of_find?_eq_some hfind, rfl, hid.1,
                hid.2, by simpa using hlatest, by simpa using hretryable, by simpa using hidle,
                hconsistent, ?_⟩
              obtain rfl := left_of_ok h
              unfold clearedSources
              split <;> rfl

theorem insertCitations_ok {rows : List TurnCitation} (h : insertCitations db rows = .ok db') :
    (∀ c ∈ rows, ∃ s ∈ db.chat.sources, s.turnId = c.turnId ∧ s.rank = c.sourceRank) ∧
      db' = { db with chat.citations := db.chat.citations ++ rows } := by
  unfold insertCitations at h
  simp only [ite_error_eq_ok] at h
  obtain ⟨_, _, hstored, h⟩ := h
  refine ⟨?_, (Except.ok.inj h).symm⟩
  simpa using hstored

/-- A finalization finds a revoked source and ends the attempt, or stores the answer
with its citations. -/
theorem v4FinalizeTurn_ok {finalAnswer : Option String} {insufficientContext : Bool}
    {sourceRanks : List Nat}
    (h : v4FinalizeTurn db token turnId generationToken finalAnswer insufficientContext
      sourceRanks = .ok (db', r)) :
    db' = db ∨ Ended db turnId generationToken db' ∨ ∃ answer turn,
      finalAnswer = some answer ∧ heldTurn db token turnId generationToken = some turn ∧
      hasRevokedSource db token turnId = false ∧
      (∀ k ∈ sourceRanks, ∃ s ∈ db.chat.sources, s.turnId = turnId ∧ s.rank = k) ∧
      statusConsistent (completeTurn db.now answer insufficientContext turn) = true ∧
      db' = { db with
        chat := setTurn
          { db.chat with citations := db.chat.citations ++ citationRows turnId sourceRanks }
          (completeTurn db.now answer insufficientContext turn) } := by
  unfold v4FinalizeTurn at h
  split at h
  · cases h
  next answer =>
    rw [ite_error_eq_ok] at h
    obtain ⟨_, h⟩ := h
    split at h
    · exact Or.inl (left_of_ok h).symm
    next turn hheld =>
      obtain ⟨hmem, hid, _, hholds⟩ := heldTurn_some hheld
      split at h
      · split at h
        · cases h
        next revoked hrevoked =>
          obtain ⟨hconsistent, rfl⟩ := updateTurn_ok hrevoked
          exact Or.inr (Or.inl ⟨turn, hmem, _, _, _, hid, hholds, by decide, by decide,
            hconsistent, (left_of_ok h).symm⟩)
      next hauthorized =>
        split at h
        · cases h
        next cited hcited =>
          split at h
          · cases h
          next completed hcompleted =>
            obtain ⟨hstored, rfl⟩ := insertCitations_ok hcited
            obtain ⟨hconsistent, rfl⟩ := updateTurn_ok hcompleted
            refine Or.inr (Or.inr ⟨answer, turn, rfl, hheld, by simpa using hauthorized, ?_,
              hconsistent, (left_of_ok h).symm⟩)
            intro k hk
            obtain ⟨i, hi⟩ := List.getElem?_of_mem hk
            refine hstored ⟨turnId, i + 1, k⟩ ?_
            refine List.mem_map.mpr ⟨(k, i + 1), ?_, rfl⟩
            rw [List.mk_mem_zipIdx_iff_le_and_getElem?_sub]
            exact ⟨by omega, by simpa using hi⟩

end LocalRag.Chat
