import LocalRag.Chat.Index

/-!
# Redaction — what the owner of a chat sees of an answer

The views `v4_chat_history`, `v4_authorized_turn_sources` and
`v4_authorized_turn_citations` (`0001_v4_baseline`) hide a turn with one source its
owner may no longer read, and `v5_citation_evidence` (`0002`) shows the text behind one
citation. All four ask again at every read. For a document that is gone there is nothing
left to ask, and they take the answer `v4_admin_delete_document` froze in the source's row.

The freeze has no disjunct for the uploader, so `ownerHadAccess` is what a source of a
deleted document is judged by: the role or an access row, as they were just before. The
evidence function asks for its own source only, so it goes on showing a source of an answer
that is hidden because of another one. `redaction_run`: in every state of a run the views
show a turn exactly if every source of it is authorized so, the evidence is of an authorized
source, and no call decides a deleted source again.

Mirroring notes. `created_at` and `updated_at` of a turn are left out. A source's label is
`'S' || rank`, a column computed from the rank. What the owner could read just before a
deletion is nowhere in the database afterwards: `Observed` keeps it beside the tables, by
the key of the source.
-/

namespace LocalRag.Chat

open LocalRag.Core Access Library Storage Ingest

/-! ## The views -/

/-- A row of `v4_chat_history`. -/
structure HistoryRow where
  id : TurnId
  chatId : ChatId
  ordinal : Nat
  question : String
  status : TurnStatus
  attempt : Nat
  scopeVersion : Nat
  generationToken : Option LeaseToken
  finalAnswer : Option String
  partialAnswer : Option String
  insufficientContext : Bool
  error : Option String
  redacted : Bool
  completedAt : Option Time
deriving Repr, DecidableEq

/-- The columns of the view for a turn. -/
def historyRow (redacted : Bool) (t : ChatTurn) : HistoryRow :=
  { id := t.id
    chatId := t.chatId
    ordinal := t.ordinal
    question := t.question
    status := t.status
    attempt := t.attempt
    scopeVersion := t.scopeVersion
    generationToken := t.generationToken
    finalAnswer := if redacted then none else t.finalAnswer
    partialAnswer := if redacted then none else t.partialAnswer
    insufficientContext := t.insufficientContext
    error := t.error
    redacted := redacted
    completedAt := t.completedAt }

/-- `JOIN chats … WHERE chat.owner_user_id = v4_current_actor_id()`. -/
def ownTurns (db : Db) (token : Option HexText) : List ChatTurn :=
  db.chat.turns.filter fun t => (ownedChat db token t.chatId).isSome

/-- The turn's row is one of them. -/
def isOwnTurn (db : Db) (token : Option HexText) (turnId : TurnId) : Bool :=
  (ownTurns db token).any fun t => t.id = turnId

/-- `v4_chat_history`. -/
def v4ChatHistory (db : Db) (token : Option HexText) : List HistoryRow :=
  (ownTurns db token).map fun t => historyRow (hasRevokedSource db token t.id) t

/-- `v4_authorized_turn_sources`. -/
def v4AuthorizedTurnSources (db : Db) (token : Option HexText) : List TurnSource :=
  db.chat.sources.filter fun s => isOwnTurn db token s.turnId ∧ ¬ hasRevokedSource db token s.turnId

/-- `v4_authorized_turn_citations`. -/
def v4AuthorizedTurnCitations (db : Db) (token : Option HexText) : List TurnCitation :=
  db.chat.citations.filter fun c =>
    isOwnTurn db token c.turnId ∧ ¬ hasRevokedSource db token c.turnId

/-! ## The evidence of a citation -/

structure CitationEvidence where
  label : String
  rank : Nat
  documentId : Option DocumentId
  displayName : String
  logicalPath : String
  pageStart : Nat
  pageEnd : Nat
  sectionName : Option String
  parseMethod : ParseMethod
  snapshotText : String
  highlightAnchor : String
  sourceSha256 : HexText
  textSha256 : HexText
deriving Repr, DecidableEq

/-- The columns of the result for a source and its chunk. -/
def evidenceRow (s : TurnSource) (chunk : Chunk) : CitationEvidence :=
  { label := "S" ++ toString s.rank
    rank := s.rank
    documentId := s.documentId
    displayName := s.displayName
    logicalPath := s.logicalPath
    pageStart := s.pageStart
    pageEnd := s.pageEnd
    sectionName := s.sectionName
    parseMethod := chunk.parseMethod
    snapshotText := s.snapshotText
    highlightAnchor := s.highlightAnchor
    sourceSha256 := s.sourceSha256
    textSha256 := s.textSha256 }

/-- The document of the source that can be shown for it. -/
def evidenceDocument (db : Db) (token : Option HexText) (s : TurnSource) : Option Document :=
  db.content.documents.find? fun d =>
    s.documentId = some d.id ∧ s.documentIdSnapshot = d.id ∧ d.state = .ready ∧
      v4CanReadDocument db token d.id

/-- The chunk of the source, if it is still what was cited. -/
def evidenceChunk (db : Db) (s : TurnSource) (document : Document) : Option Chunk :=
  db.content.chunks.find? fun c =>
    s.chunkId = some c.id ∧ s.chunkIdSnapshot = c.id ∧ c.documentId = document.id ∧
      c.sourceSha256 = s.sourceSha256 ∧ c.textSha256 = s.textSha256

/-- The source of this rank, cited in a complete turn of the actor's chat. -/
def citedSource (db : Db) (token : Option HexText) (chatId : ChatId) (turnId : TurnId)
    (rank : Nat) : Option TurnSource :=
  db.chat.sources.find? fun s =>
    s.turnId = turnId ∧ s.rank = rank ∧
      (db.chat.citations.any fun c => c.turnId = turnId ∧ c.sourceRank = rank) ∧
      (ownTurns db token).any fun t => t.id = turnId ∧ t.chatId = chatId ∧ t.status = .complete

/-- `v5_citation_evidence`; every join is on a key, so its `LIMIT 1` cuts nothing off. -/
def v5CitationEvidence (db : Db) (token : Option HexText) (chatId : ChatId) (turnId : TurnId)
    (rank : Nat) : Option CitationEvidence :=
  (citedSource db token chatId turnId rank).bind fun s =>
    (evidenceDocument db token s).bind fun document =>
      (evidenceChunk db s document).map (evidenceRow s)

/-! ## What should be shown -/

/-- The database, and for each source of a deleted document whether the owner of its chat
had access to the document in the state just before. -/
structure Observed where
  db : Db
  hadAccess : TurnId × Nat → Option Bool

/-- Where a source stands. -/
def sourceKey (s : TurnSource) : TurnId × Nat := (s.turnId, s.rank)

/-- The owner of the chat the turn is in. -/
def ownerOf (db : Db) (turnId : TurnId) : Option UserId :=
  (db.chat.turns.find? fun t => t.id = turnId).bind fun turn =>
    (db.chat.chats.find? fun c => c.id = turn.chatId).map (·.ownerUserId)

/-- The owner is an active administrator or has a current access row. -/
def ownerHadAccess (db : Db) (owner : UserId) (d : DocumentId) : Bool :=
  ((userById db.accounts.users owner).any fun account =>
    account.role = .admin ∧ User.isActive account) || hasCurrentAccess db owner d

/-- A source is authorized: its document is there and the owner can read it, or it was
deleted and the owner had access. -/
def isAuthorizedFor (s : Observed) (owner : UserId) (x : TurnSource) : Bool :=
  match x.documentId with
  | some d => canReadDocument s.db (some owner) d
  | none => s.hadAccess (sourceKey x) = some true

/-- Every source of the turn is. -/
def allAuthorized (s : Observed) (owner : UserId) (turnId : TurnId) : Bool :=
  s.db.chat.sources.all fun x => x.turnId = turnId → isAuthorizedFor s owner x

/-- What the views show the owner is right. -/
structure RedactionExact (s : Observed) (token : Option HexText) (owner : UserId) : Prop where
  history : v4ChatHistory s.db token =
    (ownTurns s.db token).map fun t => historyRow (!allAuthorized s owner t.id) t
  sources : v4AuthorizedTurnSources s.db token = s.db.chat.sources.filter fun x =>
    isOwnTurn s.db token x.turnId ∧ allAuthorized s owner x.turnId
  citations : v4AuthorizedTurnCitations s.db token = s.db.chat.citations.filter fun c =>
    isOwnTurn s.db token c.turnId ∧ allAuthorized s owner c.turnId
  evidence : ∀ chatId turnId rank,
    (v5CitationEvidence s.db token chatId turnId rank).isSome = true → ∃ x ∈ s.db.chat.sources, sourceKey x = (turnId, rank) ∧ x.documentId ≠ none ∧
      isAuthorizedFor s owner x = true

/-- A deletion, among the calls of the system. -/
@[match_pattern]
abbrev deletion (token : Option HexText) (d : DocumentId) (deletionId : DeletionId) : SystemCall :=
  .chat (.system (.library (.deleteDocument token d deletionId)))

/-- A deletion that goes through observes who has access to the document. -/
def observe (s : Observed) : SystemCall → TurnId × Nat → Option Bool
  | deletion token d deletionId, key =>
    if (v4AdminDeleteDocument s.db token d deletionId).toBool ∧
        s.db.chat.sources.any (fun x => sourceKey x = key ∧ x.documentId = some d) then
      (ownerOf s.db key.1).map fun owner => ownerHadAccess s.db owner d
    else s.hadAccess key
  | _, key => s.hadAccess key

def redactionStep (s : Observed) (call : SystemCall) : Observed :=
  ⟨systemStep s.db call, observe s call⟩

/-! ## What a call does to the sources -/

/-- A row where a detached one stood is decided as that one was. -/
def SameVerdicts (s s' : Observed) : Prop :=
  ∀ x ∈ s.db.chat.sources, x.documentId = none → ∀ x' ∈ s'.db.chat.sources,
    sourceKey x' = sourceKey x → ∀ owner, isAuthorizedFor s' owner x' = isAuthorizedFor s owner x

variable {s s' : Observed} {db : Db}

/-- An attached source has no disposition yet, a detached one the one that was observed. -/
def Settled (s : Observed) (x : TurnSource) : Prop :=
  match x.documentId with
  | some _ => x.ownerAuthorizedAtDeletion = none
  | none => ∃ could,
    x.ownerAuthorizedAtDeletion = some could ∧ s.hadAccess (sourceKey x) = some could

variable {x : TurnSource}

theorem settled_iff (hattached : x.documentId ≠ none) :
    Settled s x ↔ x.ownerAuthorizedAtDeletion = none := by
  obtain ⟨d, hd⟩ := Option.ne_none_iff_exists'.mp hattached
  simp only [Settled, hd]

/-- What a run keeps. -/
structure RedactionInv (s : Observed) : Prop where
  keyed : Keyed sourceKey s.db.chat.sources
  settled : ∀ x ∈ s.db.chat.sources, Settled s x

theorem RedactionInv.open (h : RedactionInv s) (hx : x ∈ s.db.chat.sources)
    (hattached : x.documentId ≠ none) : x.ownerAuthorizedAtDeletion = none :=
  (settled_iff hattached).mp (h.settled x hx)

/-- The rows are rewritten where they stand, then some come or go: a detached row is as it
was, an attached one settled. -/
structure Moved (s s' : Observed) (f : TurnSource → TurnSource) : Prop where
  keeps : KeepsSources (s.db.chat.sources.map f) s'.db.chat.sources
  key : ∀ x, sourceKey (f x) = sourceKey x
  attached : ∀ x ∈ s.db.chat.sources, x.documentId ≠ none → Settled s' (f x)
  detached : ∀ x ∈ s.db.chat.sources, x.documentId = none → (f x).documentId = none ∧
    (f x).ownerAuthorizedAtDeletion = x.ownerAuthorizedAtDeletion ∧
    s'.hadAccess (sourceKey x) = s.hadAccess (sourceKey x)

/-- Rows that come or go, with no verdict changed. -/
theorem RedactionInv.moved (h : RedactionInv s)
    (hkeeps : KeepsSources s.db.chat.sources s'.db.chat.sources)
    (hverdicts : s'.hadAccess = s.hadAccess) : Moved s s' (fun x => x) where
  keeps := by
    rw [List.map_id']
    exact hkeeps
  key _ := rfl
  attached _ hx hattached := (settled_iff hattached).mpr (h.open hx hattached)
  detached _ _ hgone := ⟨hgone, rfl, congrFun hverdicts _⟩

theorem keepsSources_rows {rows rows' : List TurnSource} (h : KeepsSources rows rows')
    (hkeyed : Keyed sourceKey rows) : Keyed sourceKey rows' ∧ ∀ x' ∈ rows',
      (x' ∈ rows ∨ x'.documentId ≠ none ∧ x'.ownerAuthorizedAtDeletion = none) ∧
      ∀ x ∈ rows, sourceKey x' = sourceKey x → x' = x := by
  cases h with
  | fewer sub =>
    exact ⟨(sub.map sourceKey).nodup hkeyed, fun x' hx' =>
      ⟨Or.inl (sub.subset hx'), fun x hx hkey => hkeyed.eq (sub.subset hx') hx hkey⟩⟩
  | more keyed attached =>
    exact ⟨keyed, fun x' hx' => ⟨(List.mem_append.mp hx').imp_right (attached x'),
      fun x hx hkey => keyed.eq hx' (List.mem_append_left _ hx) hkey⟩⟩

theorem Moved.kept {f : TurnSource → TurnSource} (hmoved : Moved s s' f) (h : RedactionInv s) :
    RedactionInv s' ∧ SameVerdicts s s' := by
  have hkeyed : Keyed sourceKey (s.db.chat.sources.map f) := by
    have hkeys : sourceKey ∘ f = sourceKey := funext hmoved.key
    rw [Keyed, List.map_map, hkeys]
    exact h.keyed
  obtain ⟨hkeyed', hrows⟩ := keepsSources_rows hmoved.keeps hkeyed
  refine ⟨⟨hkeyed', fun x' hx' => ?_⟩, fun x hx hgone x' hx' hkey owner => ?_⟩
  · rcases (hrows x' hx').1 with hold | hnew
    · obtain ⟨x, hx, rfl⟩ := List.mem_map.mp hold
      by_cases hgone : x.documentId = none
      · obtain ⟨hnone, hflag, hverdict⟩ := hmoved.detached x hx hgone
        have hsettled := h.settled x hx
        simp only [Settled, hgone] at hsettled
        simp only [Settled, hnone, hflag, hmoved.key, hverdict]
        exact hsettled
      · exact hmoved.attached x hx hgone
    · exact (settled_iff hnew.1).mpr hnew.2
  · obtain ⟨hnone, -, hverdict⟩ := hmoved.detached x hx hgone
    obtain rfl := (hrows x' hx').2 (f x) (List.mem_map_of_mem hx) (hkey.trans (hmoved.key x).symm)
    simp only [isAuthorizedFor, hnone, hgone, hmoved.key, hverdict]

/-! ## The deletion -/

/-- What the deletion freezes is what is observed. -/
theorem ownerAuthorized_some {d : DocumentId} {turnId : TurnId} {could : Bool}
    (h : ownerAuthorized db d turnId = some could) :
    (ownerOf db turnId).map (fun owner => ownerHadAccess db owner d) = some could := by
  obtain ⟨turn, hturn, h⟩ := Option.bind_eq_some_iff.mp h
  obtain ⟨chat, hchat, h⟩ := Option.bind_eq_some_iff.mp h
  obtain ⟨account, haccount, rfl⟩ := Option.map_eq_some_iff.mp h
  rw [ownerOf, hturn, Option.bind_some, hchat, Option.map_some, Option.map_some, ownerHadAccess,
    haccount, Option.any_some]

/-- A deletion leaves every source of the document with the verdict that was observed. -/
theorem moved_delete (h : RedactionInv s) {token : Option HexText} {d : DocumentId}
    {deletionId : DeletionId} : ∃ f, Moved s (redactionStep s (deletion token d deletionId)) f := by
  cases hresult : v4AdminDeleteDocument s.db token d deletionId with
  | error e =>
    refine ⟨_, h.moved ?_ ?_⟩
    · show KeepsSources _ (commit s.db (v4AdminDeleteDocument s.db token d deletionId)).chat.sources
      rw [hresult]
      exact .fewer (List.Sublist.refl _)
    · funext key
      show observe s (deletion token d deletionId) key = _
      rw [observe, hresult, if_neg]
      exact fun hboth => Bool.false_ne_true hboth.1
  | ok p =>
    obtain ⟨db', _⟩ := p
    have hdisposed := v4AdminDeleteDocument_disposed hresult
    obtain ⟨document, _, node, _, hid, _, _, _, _, hdb⟩ := v4AdminDeleteDocument_ok hresult
    have hobserved : ∀ key, observe s (deletion token d deletionId) key =
        if s.db.chat.sources.any (fun x => sourceKey x = key ∧ x.documentId = some d) then
          (ownerOf s.db key.1).map fun owner => ownerHadAccess s.db owner d
        else s.hadAccess key := by
      intro key
      rw [observe, hresult]
      exact if_congr (and_iff_right rfl) rfl rfl
    refine ⟨fun x => detachedSource d s.db.content.chunks (frozenSource s.db d x), ?_, ?_, ?_, ?_⟩
    · show KeepsSources _ (commit s.db (v4AdminDeleteDocument s.db token d deletionId)).chat.sources
      rw [hresult, hdb, ← hid]
      show KeepsSources _ (List.map _ (List.map _ _))
      rw [List.map_map]
      exact .fewer (List.Sublist.refl _)
    · intro x
      unfold frozenSource
      split <;> rfl
    · intro x hx hattached
      have hopen := h.open hx hattached
      by_cases hd : x.documentId = some d
      · -- the document goes: the row says what the freeze found, the ghost what was true
        cases hfrozen : ownerAuthorized s.db d x.turnId with
        | none =>
          refine absurd ?_ (hdisposed x hx hd)
          rw [frozenSource, if_pos ⟨hd, hopen⟩, hfrozen]
        | some could =>
          simp only [Settled, detachedSource, frozenSource, hd, hopen, and_self, if_true, hfrozen,
            sourceKey]
          refine ⟨could, rfl, ?_⟩
          show observe s (deletion token d deletionId) (sourceKey x) = some could
          rw [hobserved, if_pos (List.any_eq_true.mpr ⟨x, hx, decide_eq_true ⟨rfl, hd⟩⟩)]
          exact ownerAuthorized_some hfrozen
      · obtain ⟨d', hd'⟩ := Option.ne_none_iff_exists'.mp hattached
        rw [hd'] at hd
        simp only [Settled, detachedSource, frozenSource, hd', hd, false_and, if_false, hopen]
    · intro x hx hgone
      have hkept : frozenSource s.db d x = x := by
        rw [frozenSource, if_neg (by simp [hgone])]
      refine ⟨by simp [hkept, detachedSource, hgone], by rw [hkept]; rfl, ?_⟩
      show observe s (deletion token d deletionId) (sourceKey x) = _
      rw [hobserved, if_neg]
      -- no source of the document stands where a detached one does
      intro hany
      obtain ⟨y, hy, hrow⟩ := List.any_eq_true.mp hany
      obtain ⟨hkey, hd⟩ := of_decide_eq_true hrow
      rw [h.keyed.eq hy hx hkey, hgone] at hd
      cases hd

/-! ## One step -/

/-- Rows that a call left where they were. -/
theorem RedactionInv.unlinked (h : RedactionInv s) (hverdicts : s'.hadAccess = s.hadAccess)
    (isGone : ChunkId → Bool)
    (hsources : s'.db.chat.sources = s.db.chat.sources.map (unlinkedSource isGone)) :
    Moved s s' (unlinkedSource isGone) where
  keeps := hsources ▸ .fewer (List.Sublist.refl _)
  key _ := rfl
  attached _ hx hattached := (settled_iff hattached).mpr (h.open hx hattached)
  detached _ _ hgone := ⟨hgone, rfl, congrFun hverdicts _⟩

/-- The workers that embed a reindex leave the chats alone. -/
theorem systemStep_chat (db : Db) {call : SystemCall} (hother : ∀ c, call ≠ .chat c) :
    (systemStep db call).chat = db.chat := by
  have hcommit : ∀ {ρ : Type} {res : Except SqlError (Db × ρ)},
      (∀ db' r, res = .ok (db', r) → db'.chat = db.chat) →
      (LocalRag.Core.commit db res).chat = db.chat :=
    commit_inv (fun db' : Db => db'.chat = db.chat) rfl
  cases call with
  | chat call => exact absurd rfl (hother call)
  | claimTasks =>
    refine hcommit fun db' r heq => ?_
    obtain ⟨rfl, -⟩ := claimReindexTasksAt_ok heq
    rfl
  | commitTask =>
    refine hcommit fun db' r heq => ?_
    rcases v10CommitReindexTask_ok heq with rfl | ⟨_, _, _, _, _, _, rfl⟩ <;> rfl
  | failTask =>
    refine hcommit fun db' r heq => ?_
    rcases v10FailReindexTask_ok heq with rfl | ⟨_, _, _, rfl⟩ <;> rfl
  | claimQualification =>
    refine hcommit fun db' r heq => ?_
    rcases v10ClaimReindexQualification_ok heq with rfl | ⟨_, rfl⟩ <;> rfl
  | completeQualification =>
    refine hcommit fun db' r heq => ?_
    rcases v10CompleteReindexQualification_ok heq with
      rfl | ⟨_, _, _, _, _, _, _, rfl | rfl⟩ <;> rfl

theorem redactionStep_moved (h : RedactionInv s) (call : SystemCall) :
    ∃ f, Moved s (redactionStep s call) f := by
  by_cases hdelete : ∃ token d deletionId, call = deletion token d deletionId
  · obtain ⟨token, d, deletionId, rfl⟩ := hdelete
    exact moved_delete h
  -- nothing else is observed
  have hverdicts : observe s call = s.hadAccess := by
    funext key
    unfold observe
    split
    · exact absurd ⟨_, _, _, rfl⟩ hdelete
    · rfl
  by_cases hchat : ∃ c, call = .chat c
  · obtain ⟨call, rfl⟩ := hchat
    by_cases hsystem : ∃ c, call = .system c
    · obtain ⟨call, rfl⟩ := hsystem
      obtain ⟨sources, hsources, hrows⟩ := ingestStep_elsewhere s.db call
      have hrows : (systemStep s.db (.chat (.system call))).chat.sources = sources :=
        congrArg ChatStore.sources hrows
      cases hsources with
      | same => exact ⟨_, h.moved (hrows.symm ▸ .fewer (List.Sublist.refl _)) hverdicts⟩
      | unlink isGone => exact ⟨_, h.unlinked hverdicts isGone hrows⟩
      | delete => exact absurd ⟨_, _, _, rfl⟩ hdelete
    · obtain ⟨chat, heq, hkeeps⟩ := chatStep_onlyChats s.db fun c heq => hsystem ⟨c, heq⟩
      refine ⟨_, h.moved ?_ hverdicts⟩
      show KeepsSources _ (chatStep s.db call).chat.sources
      rw [heq]
      exact hkeeps
  · refine ⟨_, h.moved ?_ hverdicts⟩
    show KeepsSources _ (systemStep s.db call).chat.sources
    rw [systemStep_chat s.db fun c heq => hchat ⟨c, heq⟩]
    exact .fewer (List.Sublist.refl _)

/-! ## What is shown -/

variable {token : Option HexText} {owner : UserId}

/-- A settled source is revoked if and only if it is not authorized. -/
theorem isRevoked_eq (hsettled : Settled s x) (hactor : v4CurrentActorId s.db token = some owner) :
    isRevoked s.db token x = !isAuthorizedFor s owner x := by
  unfold isRevoked isAuthorizedFor v4CanReadDocument
  rw [hactor]
  cases hd : x.documentId with
  | some d => simp only [Bool.not_eq_true, Bool.decide_eq_false]
  | none =>
    simp only [Settled, hd] at hsettled
    obtain ⟨could, hflag, hverdict⟩ := hsettled
    simp only [hflag, hverdict]
    cases could <;> rfl

theorem hasRevokedSource_eq (h : RedactionInv s)
    (hactor : v4CurrentActorId s.db token = some owner) (turnId : TurnId) :
    hasRevokedSource s.db token turnId = !allAuthorized s owner turnId := by
  rw [hasRevokedSource, allAuthorized, List.not_all_eq_any_not]
  rw [Bool.eq_iff_iff, List.any_eq_true, List.any_eq_true]
  refine exists_congr fun x => and_congr_right fun hx => ?_
  rw [isRevoked_eq (h.settled x hx) hactor]
  by_cases hturn : x.turnId = turnId
  · simp only [hturn, true_and, forall_const, Bool.decide_eq_true]
  · simp only [hturn, false_and, false_imp_iff, decide_true, decide_false, Bool.not_true]

/-- Evidence is shown of a stored source that can be read. -/
theorem v5CitationEvidence_source (hactor : v4CurrentActorId s.db token = some owner)
    {chatId : ChatId} {turnId : TurnId} {rank : Nat}
    (h : (v5CitationEvidence s.db token chatId turnId rank).isSome = true) :
    ∃ x ∈ s.db.chat.sources, sourceKey x = (turnId, rank) ∧ x.documentId ≠ none ∧
      isAuthorizedFor s owner x = true := by
  obtain ⟨evidence, h⟩ := Option.isSome_iff_exists.mp h
  obtain ⟨x, hx, h⟩ := Option.bind_eq_some_iff.mp h
  obtain ⟨document, hdocument, -⟩ := Option.bind_eq_some_iff.mp h
  have hplace := List.find?_some hx
  have hrow := List.find?_some hdocument
  obtain ⟨hturn, hrank, -⟩ := of_decide_eq_true hplace
  obtain ⟨hd, -, -, hread⟩ := of_decide_eq_true hrow
  refine ⟨x, List.mem_of_find?_eq_some hx, by rw [sourceKey, hturn, hrank], by simp [hd], ?_⟩
  rw [v4CanReadDocument, hactor] at hread
  simp only [isAuthorizedFor, hd, hread]

theorem redactionExact_of_inv (h : RedactionInv s)
    (hactor : v4CurrentActorId s.db token = some owner) : RedactionExact s token owner := by
  have hrevoked := hasRevokedSource_eq h hactor
  constructor
  · simp only [v4ChatHistory, hrevoked]
  · simp [v4AuthorizedTurnSources, hrevoked]
  · simp [v4AuthorizedTurnCitations, hrevoked]
  · exact fun _ _ _ hshown => v5CitationEvidence_source hactor hshown

/-! ## Runs -/

/-- Before anything was deleted. -/
def unobserved (db : Db) : Observed := ⟨db, fun _ => none⟩

/-- In every state of a run from a database without chats, the views show an owner the
answers, sources and citations of exactly the turns whose sources are all authorized, and
the evidence of an authorized source only; and no call decides a deleted source again. -/
theorem redaction_run (hchat : db.chat = ⟨[], [], [], []⟩) (calls : List SystemCall) :
    (∀ token owner,
      v4CurrentActorId (run redactionStep (unobserved db) calls).db token = some owner →
      RedactionExact (run redactionStep (unobserved db) calls) token owner) ∧
    ∀ call, SameVerdicts (run redactionStep (unobserved db) calls)
      (redactionStep (run redactionStep (unobserved db) calls) call) := by
  have hstart : RedactionInv (unobserved db) := by
    refine ⟨?_, fun x hx => ?_⟩
    · show Keyed sourceKey db.chat.sources
      rw [hchat]
      exact .nil _
    · change x ∈ db.chat.sources at hx
      rw [hchat] at hx
      cases hx
  have hinv : RedactionInv (run redactionStep (unobserved db) calls) :=
    run_inv_of_step RedactionInv (fun s call hinv => ((redactionStep_moved hinv call).choose_spec.kept
      hinv).1) calls hstart
  refine ⟨fun _ _ hactor => redactionExact_of_inv hinv hactor, fun call => ?_⟩
  obtain ⟨f, hmoved⟩ := redactionStep_moved hinv call
  exact (hmoved.kept hinv).2

/-- An answer drawn from a document. -/
def answeredCalls : List SystemCall :=
  let asked : List ChatCall :=
    [.createChat (some (.digest 1)) 1 "Why?" "all_ready",
      .beginTurn (some (.digest 1)) 1 "Why?" (some 7) "Why?" 1,
      .storeTurnSources (some (.digest 1)) 1 (some 7) [⟨some 1, some 0⟩],
      .finalizeTurn (some (.digest 1)) 1 (some 7) (some "So.") false [1]]
  (servedCalls.map ChatCall.system ++ asked).map .chat

/-- The document is deleted, and the answer is still shown. -/
theorem redaction_run_answered :
    RedactionExact (run redactionStep (unobserved sampleDb)
      (answeredCalls ++ [deletion (some (.digest 1)) 30 70])) (some (.digest 1)) 1 ∧
    ((v4ChatHistory (run redactionStep (unobserved sampleDb)
      (answeredCalls ++ [deletion (some (.digest 1)) 30 70])).db (some (.digest 1))).map
        (·.finalAnswer)) = [some "So."] :=
  ⟨(redaction_run rfl _).1 _ _ (by decide +kernel), by decide +kernel⟩

end LocalRag.Chat
