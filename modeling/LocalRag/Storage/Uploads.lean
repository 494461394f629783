import LocalRag.Access.Acl
import LocalRag.Library.Folders

/-!
# Uploads — reserve, commit, delete

`v4_admin_upload_preflight`, `v4_admin_commit_upload` and
`v4_admin_delete_document` of `0001_v4_baseline`, with the triggers of `0010`
that give a new document its first generation and its job that generation as
target.

An upload is two transactions around the object put: the preflight reserves the
content-addressed key for fifteen minutes, the commit turns the reservation into
a document, a file node, its grants and an ingestion job. A document's deletion
records in each stored turn source whether the chat's owner was allowed to read
the document, hands the object key to the deletion outbox and removes the
document with everything that cascades from it.

Mirroring notes. The grants of one commit get consecutive ids from the one the
call draws. A foreign key violation that cannot arise (a file node as the parent
of a node or of a reservation) is still an error here, not an assumption.
-/

namespace LocalRag.Storage

open LocalRag.Core Access Library

/-- The arguments `v4_admin_upload_preflight` and `v4_admin_commit_upload` share. -/
structure UploadRequest where
  sha256 : HexText
  objectKey : ObjectKey
  metadata : UploadMetadata
  parentId : Option NodeId
  selectedTeamIds : List TeamId
deriving Repr, DecidableEq

/-- `invalid canonical upload metadata`. -/
def isInvalidUpload (request : UploadRequest) : Bool :=
  let m := request.metadata
  ¬ request.sha256.wellFormed ∨ request.objectKey ≠ canonicalObjectKey request.sha256 ∨
    m.mimeType ≠ "application/pdf" ∨ m.byteSize ≤ 0 ∨ m.filename ≠ btrim m.filename ∨
    m.filename.length = 0 ∨ 512 < m.filename.length ∨
    m.displayName.length = 0 ∨ 255 < m.displayName.length ∨
    m.nameKey.length = 0 ∨ 1024 < m.nameKey.length ∨
    m.parserVersion.length = 0 ∨ 64 < m.parserVersion.length ∨
    m.chunkingVersion.length = 0 ∨ 64 < m.chunkingVersion.length ∨
    m.embeddingVersion.length = 0 ∨ 128 < m.embeddingVersion.length

/-- The caller is a member of the team and the team is active. -/
def isActiveTeamOf (acc : Accounts) (actor : UserId) (t : TeamId) : Bool :=
  (acc.teamMembers.any fun m => m.teamId = t ∧ m.userId = actor) && teamIsActive acc.teams t

/-- `invalid upload team selection`: a repeated team, a team the caller does not
share through, or none although there is one. -/
def isInvalidTeamSelection (acc : Accounts) (actor : UserId) (selected : List TeamId) : Bool :=
  selected.dedup.length ≠ selected.length ∨
    (selected.any fun t => ¬ isActiveTeamOf acc actor t) ∨
    ((acc.teamMembers.any fun m => m.userId = actor ∧ teamIsActive acc.teams m.teamId) ∧
      selected.length = 0)

/-- A reservation of the key that is neither consumed nor expired. -/
def isActiveReservation (now : Time) (key : ObjectKey) (r : UploadReservation) : Bool :=
  r.objectKey = key ∧ r.consumedAt = none ∧ now < r.expiresAt

/-- The state of a reservation after its expiry was noticed. -/
def expiredReservation (now : Time) (r : UploadReservation) : UploadReservation :=
  { r with consumedAt := some now, outcome := some .expired }

/-- `UPDATE upload_reservations SET … 'expired' WHERE object_key = …`. -/
def expireReservationsOf (db : Db) (key : ObjectKey) : Db :=
  { db with
    storage.reservations := updateWhere
      (fun r => r.objectKey = key ∧ r.consumedAt = none ∧ r.expiresAt ≤ db.now)
      (expiredReservation db.now) db.storage.reservations }

/-- The document with this content and its file node. -/
def existingUpload (db : Db) (sha256 : HexText) : Option (Document × LibraryNode) :=
  db.content.documents.findSome? fun d =>
    if d.sha256 = sha256 then
      (db.library.nodes.find? fun n => n.documentId = some d.id).map fun n => (d, n)
    else none

/-- `ORDER BY created_at DESC, id DESC LIMIT 1` over the document's jobs. -/
def latestJob (db : Db) (d : DocumentId) : Option JobId :=
  (pickFirst (fun a b => b.createdAt < a.createdAt ∨ (a.createdAt = b.createdAt ∧ b.id < a.id))
    (db.content.jobs.filter fun j => j.documentId = d)).map (·.id)

/-- Where an upload went: the columns of a `duplicate` or `created` row. -/
structure UploadLocation where
  documentId : DocumentId
  jobId : Option JobId
  nodeId : NodeId
  parentId : Option NodeId
  displayName : String
  logicalPath : String
deriving Repr, DecidableEq

/-- The location of the document that is already there. -/
def existingLocation (db : Db) (existing : Document × LibraryNode) : UploadLocation :=
  { documentId := existing.1.id
    jobId := latestJob db existing.1.id
    nodeId := existing.2.id
    parentId := existing.2.parentId
    displayName := existing.2.name
    logicalPath := logicalPath db.library.nodes existing.2.id }

inductive PreflightResult where
  | pendingDeletion
  | duplicateForbidden
  | duplicate (location : UploadLocation)
  | reservationActive
  | parentNotFound
  | uploadRequired (reservationId : ReservationId) (expiresAt : Time)
deriving Repr, DecidableEq

/-- The outbox still holds the key. -/
def isPendingDeletion (db : Db) (key : ObjectKey) : Bool :=
  db.storage.deletions.any fun o => o.objectKey = key

/-- The target folder exists and the caller can read it. -/
def isReadableFolder (db : Db) (actor : UserId) (p : NodeId) : Bool :=
  isFolder db.library.nodes p && canReadFolder db (some actor) p

/-- The reservation the preflight inserts. -/
def newReservation (db : Db) (actor : UserId) (reservationId : ReservationId)
    (request : UploadRequest) : UploadReservation :=
  { id := reservationId
    actorUserId := actor
    sha256 := request.sha256
    objectKey := request.objectKey
    parentId := request.parentId
    selectedTeamIds := request.selectedTeamIds
    metadataDigest := request.metadata
    expiresAt := db.now + 15 * minute
    consumedAt := none
    outcome := none }

/-- The preflight once the caller and the arguments are checked and expired
reservations of the key are marked. -/
def reserveUpload (db : Db) (actor : UserId) (reservationId : ReservationId)
    (request : UploadRequest) : Except SqlError (Db × PreflightResult) :=
  if isPendingDeletion db request.objectKey then .ok (db, .pendingDeletion)
  else
    match existingUpload db request.sha256 with
    | some existing =>
      if ¬ canReadDocument db (some actor) existing.1.id then .ok (db, .duplicateForbidden)
      else .ok (db, .duplicate (existingLocation db existing))
    | none =>
      match db.storage.reservations.find? (isActiveReservation db.now request.objectKey) with
      | some active =>
        if active.actorUserId = actor ∧ active.parentId = request.parentId ∧
            active.selectedTeamIds = request.selectedTeamIds ∧
            active.metadataDigest = request.metadata then
          .ok (db, .uploadRequired active.id active.expiresAt)
        else .ok (db, .reservationActive)
      | none =>
        if request.parentId.any fun p => ¬ isReadableFolder db actor p then
          .ok (db, .parentNotFound)
        else if db.storage.reservations.any fun r => r.id = reservationId then
          .error (uniqueViolation "upload_reservations_pkey")
        else if db.storage.reservations.any fun r =>
            r.objectKey = request.objectKey ∧ r.consumedAt = none then
          .error (uniqueViolation "uq_upload_reservations_active_object")
        else
          .ok ({ db with
            storage.reservations := db.storage.reservations ++
              [newReservation db actor reservationId request] },
            .uploadRequired reservationId (db.now + 15 * minute))

/-- `v4_admin_upload_preflight`. -/
def v4AdminUploadPreflight (db : Db) (token : Option HexText) (reservationId : ReservationId)
    (request : UploadRequest) : Except SqlError (Db × PreflightResult) :=
  match requireActor db token with
  | .error e => .error e
  | .ok actor =>
    if isInvalidUpload request then .error ⟨"22023", "invalid canonical upload metadata"⟩
    else if isInvalidTeamSelection db.accounts actor request.selectedTeamIds then
      .error ⟨"22023", "invalid upload team selection"⟩
    else if ¬ actorIsAdmin db (some actor) ∧ request.parentId = none then
      .error ⟨"22023", "members must upload into a folder"⟩
    else
      reserveUpload (expireReservationsOf db request.objectKey) actor reservationId request

/-! ## Commit -/

/-- The ids a commit draws: the caller's three and those of the server. -/
structure CommitIds where
  documentId : DocumentId
  jobId : JobId
  nodeId : NodeId
  generationId : GenerationId
  grantId : GrantId
deriving Repr, DecidableEq

inductive CommitResult where
  | invalidReservation
  | pendingDeletion
  | duplicateForbidden
  | duplicate (location : UploadLocation)
  | parentNotFound
  | created (location : UploadLocation)
deriving Repr, DecidableEq

/-- The reservation is the caller's, unspent, unexpired and for this upload. -/
def reservationMatches (db : Db) (actor : UserId) (request : UploadRequest)
    (r : UploadReservation) : Bool :=
  r.actorUserId = actor ∧ r.consumedAt = none ∧ db.now < r.expiresAt ∧
    r.sha256 = request.sha256 ∧ r.objectKey = request.objectKey ∧
    r.parentId = request.parentId ∧ r.selectedTeamIds = request.selectedTeamIds ∧
    r.metadataDigest = request.metadata

/-- `UPDATE upload_reservations SET consumed_at, outcome WHERE id = …`. -/
def consumeReservation (db : Db) (reservationId : ReservationId) (outcome : ReservationOutcome) :
    Db :=
  { db with
    storage.reservations := updateWhere (fun r => r.id = reservationId)
      (fun r => { r with consumedAt := some db.now, outcome := some outcome })
      db.storage.reservations }

/-- The document row of the upload. -/
def uploadedDocument (ids : CommitIds) (request : UploadRequest) : Document :=
  { id := ids.documentId
    sha256 := request.sha256
    originalFilename := request.metadata.filename
    mimeType := request.metadata.mimeType
    byteSize := request.metadata.byteSize
    objectKey := request.objectKey
    state := .uploaded
    error := none
    parserVersion := request.metadata.parserVersion
    chunkingVersion := request.metadata.chunkingVersion
    embeddingVersion := request.metadata.embeddingVersion
    pageCount := none
    chunkCount := 0
    activeGenerationId := ids.generationId }

/-- The generation the document's triggers add. -/
def uploadedGeneration (ids : CommitIds) (request : UploadRequest) : DocumentGeneration :=
  { id := ids.generationId
    documentId := ids.documentId
    operationId := none
    parserVersion := request.metadata.parserVersion
    chunkingVersion := request.metadata.chunkingVersion
    state := .building
    pageCount := none
    chunkCount := 0
    error := none
    readyAt := none
    retiredAt := none }

/-- The job of the upload, bound to that generation. -/
def uploadedJob (now : Time) (ids : CommitIds) : IngestionJob :=
  { id := ids.jobId
    documentId := ids.documentId
    targetGenerationId := ids.generationId
    reprocessingOperationId := none
    status := .queued
    stage := .uploaded
    attempt := 0
    completedUnits := 0
    totalUnits := none
    availableAt := now
    leaseExpiresAt := none
    leaseToken := none
    leaseOwner := none
    fencingToken := 0
    error := none
    createdAt := now }

/-- The inserts into `documents`, `document_generations` and `ingestion_jobs`. -/
def insertDocument (db : Db) (ids : CommitIds) (request : UploadRequest) :
    Except SqlError Content :=
  if db.content.documents.any fun d => d.id = ids.documentId then
    .error (uniqueViolation "documents_pkey")
  else if db.content.documents.any fun d => d.objectKey = request.objectKey then
    .error (uniqueViolation "uq_documents_object_key")
  else if db.content.documents.any fun d => d.sha256 = request.sha256 then
    .error (uniqueViolation "uq_documents_sha256")
  else if db.content.generations.any fun g => g.id = ids.generationId then
    .error (uniqueViolation "document_generations_pkey")
  else if db.content.jobs.any fun j => j.id = ids.jobId then
    .error (uniqueViolation "ingestion_jobs_pkey")
  else
    .ok { db.content with
      documents := db.content.documents ++ [uploadedDocument ids request]
      generations := db.content.generations ++ [uploadedGeneration ids request]
      jobs := db.content.jobs ++ [uploadedJob db.now ids] }

/-- The file node of the upload. -/
def fileNode (actor : UserId) (ids : CommitIds) (request : UploadRequest) : LibraryNode :=
  { id := ids.nodeId, parentId := request.parentId, kind := .file,
    name := request.metadata.displayName, nameKey := request.metadata.nameKey,
    documentId := some ids.documentId, uploaderUserId := some actor, accessBoundary := false }

/-- The uploader's grant and one grant for each selected team. -/
def uploadGrants (actor : UserId) (ids : CommitIds) (request : UploadRequest) :
    List AccessGrant :=
  { id := ids.grantId, nodeId := ids.nodeId, userId := some actor, teamId := none } ::
    request.selectedTeamIds.mapIdx fun i t =>
      { id := ids.grantId + 1 + i, nodeId := ids.nodeId, userId := none, teamId := some t }

/-- The inserts of a creating commit, then the rebuild. -/
def createUpload (db : Db) (actor : UserId) (reservationId : ReservationId) (ids : CommitIds)
    (request : UploadRequest) : Except SqlError (Db × CommitResult) :=
  match insertDocument db ids request with
  | .error e => .error e
  | .ok content =>
    match insertNode db.library.nodes (fileNode actor ids request) with
    | .error e => .error e
    | .ok nodes =>
      let grants := uploadGrants actor ids request
      if db.library.accessGrants.any fun g => grants.any fun g' => g.id = g'.id then
        .error (uniqueViolation "access_grants_pkey")
      else
        let inserted : Db := { db with
          content := content
          library.nodes := nodes
          library.accessGrants := db.library.accessGrants ++ grants }
        let rebuilt := v4RebuildEffectiveDocumentAccess inserted
        .ok (consumeReservation rebuilt reservationId .created,
          .created {
            documentId := ids.documentId
            jobId := some ids.jobId
            nodeId := ids.nodeId
            parentId := request.parentId
            displayName := request.metadata.displayName
            logicalPath := logicalPath rebuilt.library.nodes ids.nodeId })

/-- The commit once the reservation is known to be good. -/
def commitReserved (db : Db) (actor : UserId) (reservationId : ReservationId) (ids : CommitIds)
    (request : UploadRequest) : Except SqlError (Db × CommitResult) :=
  match existingUpload db request.sha256 with
  | some existing =>
    let consumed := consumeReservation db reservationId .duplicate
    if ¬ canReadDocument db (some actor) existing.1.id then .ok (consumed, .duplicateForbidden)
    else .ok (consumed, .duplicate (existingLocation db existing))
  | none =>
    if isInvalidTeamSelection db.accounts actor request.selectedTeamIds then
      .error ⟨"22023", "invalid upload team selection"⟩
    else if ¬ actorIsAdmin db (some actor) ∧ request.parentId = none then
      .error ⟨"22023", "members must upload into a folder"⟩
    else if request.parentId.any fun p => ¬ isReadableFolder db actor p then
      .ok (db, .parentNotFound)
    else createUpload db actor reservationId ids request

/-- `v4_admin_commit_upload`. -/
def v4AdminCommitUpload (db : Db) (token : Option HexText) (reservationId : ReservationId)
    (ids : CommitIds) (request : UploadRequest) : Except SqlError (Db × CommitResult) :=
  match requireActor db token with
  | .error e => .error e
  | .ok actor =>
    if isInvalidUpload request then .error ⟨"22023", "invalid canonical upload metadata"⟩
    else
      match db.storage.reservations.find? fun r => r.id = reservationId with
      | none => .ok (db, .invalidReservation)
      | some reservation =>
        if ¬ reservationMatches db actor request reservation then .ok (db, .invalidReservation)
        else if isPendingDeletion db request.objectKey then .ok (db, .pendingDeletion)
        else commitReserved db actor reservationId ids request

/-! ## Delete -/

/-- What `v4_admin_delete_document` records for a stored source: an active
administrator, or a current effective access row. The uploader is not asked. -/
def ownerAuthorized (db : Db) (d : DocumentId) (turnId : TurnId) : Option Bool :=
  (db.chat.turns.find? fun t => t.id = turnId).bind fun turn =>
    (db.chat.chats.find? fun c => c.id = turn.chatId).bind fun chat =>
      (userById db.accounts.users chat.ownerUserId).map fun account =>
        (account.role = .admin ∧ User.isActive account : Bool) ||
          hasCurrentAccess db chat.ownerUserId d

/-- The source row after the deletion's `UPDATE turn_sources`. -/
def frozenSource (db : Db) (d : DocumentId) (s : TurnSource) : TurnSource :=
  if s.documentId = some d ∧ s.ownerAuthorizedAtDeletion = none then
    { s with ownerAuthorizedAtDeletion := ownerAuthorized db d s.turnId }
  else s

/-- The source row after `ON DELETE SET NULL` of its document and its chunk. -/
def detachedSource (d : DocumentId) (chunks : List Chunk) (s : TurnSource) : TurnSource :=
  { s with
    documentId := if s.documentId = some d then none else s.documentId
    chunkId := if chunks.any fun c => c.documentId = d ∧ s.chunkId = some c.id then none
      else s.chunkId }

/-- `DELETE FROM documents WHERE id = …` with everything that cascades. -/
def deleteDocumentRows (db : Db) (d : DocumentId) (node : LibraryNode) : Db :=
  let isGone (c : ChunkId) : Bool := db.content.chunks.any fun k => k.documentId = d ∧ k.id = c
  { db with
    library := { deleteNode db.library node.id with
      effectiveAccess := deleteWhere (fun row => row.documentId = d)
        db.library.effectiveAccess }
    content := {
      documents := deleteWhere (fun x => x.id = d) db.content.documents
      generations := deleteWhere (fun x => x.documentId = d) db.content.generations
      chunks := deleteWhere (fun x => x.documentId = d) db.content.chunks
      jobs := deleteWhere (fun x => x.documentId = d) db.content.jobs }
    reprocessing := { db.reprocessing with
      chunkEmbeddings := deleteWhere (fun x => isGone x.chunkId) db.reprocessing.chunkEmbeddings
      reindexTasks := deleteWhere (fun x => isGone x.chunkId) db.reprocessing.reindexTasks }
    chat := { db.chat with
      sources := (db.chat.sources.map (frozenSource db d)).map
        (detachedSource d db.content.chunks) } }

/-- The row `INSERT INTO object_deletions (id, object_key)` leaves. -/
def newDeletion (now : Time) (deletionId : DeletionId) (key : ObjectKey) : ObjectDeletion :=
  { id := deletionId, objectKey := key, status := .queued, attempt := 0, availableAt := now,
    leaseExpiresAt := none, leaseToken := none, leaseOwner := none, fencingToken := 0,
    lastError := none, createdAt := now }

/-- The document and node a deletion acts on, if the caller may delete them. -/
def deletableDocument (db : Db) (actor : UserId) (d : DocumentId) :
    Option (Document × LibraryNode) :=
  (db.content.documents.find? fun x => x.id = d).bind fun document =>
    (db.library.nodes.find? fun n => n.documentId = some d ∧
      (actorIsAdmin db (some actor) ∨ (n.kind = .file ∧ n.uploaderUserId = some actor))).map
      fun node => (document, node)

/-- `v4_admin_delete_document`. -/
def v4AdminDeleteDocument (db : Db) (token : Option HexText) (d : DocumentId)
    (deletionId : DeletionId) : Except SqlError (Db × Unit) :=
  match requireActor db token with
  | .error e => .error e
  | .ok actor =>
    match deletableDocument db actor d with
    | none => .error noDataFound
    | some (document, node) =>
      if db.storage.deletions.any fun o => o.id = deletionId then
        .error (uniqueViolation "object_deletions_pkey")
      else if isPendingDeletion db document.objectKey then
        .error (uniqueViolation "uq_object_deletions_object_key")
      else if db.library.nodes.any fun n => n.parentId = some node.id then
        .error (foreignKeyViolation "library_nodes_parent_id_fkey")
      else if db.storage.reservations.any fun r => r.parentId = some node.id then
        .error (foreignKeyViolation "upload_reservations_parent_id_fkey")
      else if db.chat.sources.any fun s => s.documentId = some d ∧
          (frozenSource db d s).ownerAuthorizedAtDeletion = none then
        .error (checkViolation "ck_turn_sources_deleted_disposition")
      else
        let queued : Db := { deleteDocumentRows db d node with
          storage.deletions := db.storage.deletions ++
            [newDeletion db.now deletionId document.objectKey] }
        .ok (v4RebuildEffectiveDocumentAccess queued, ())

/-! ## What each call can do -/

/-- A reservation was inserted: nothing held the key and the folder was there. -/
structure ReservedFresh (db : Db) (reservationId : ReservationId) (request : UploadRequest) :
    Prop where
  valid : isInvalidUpload request = false
  notPending : isPendingDeletion db request.objectKey = false
  noDocument : existingUpload db request.sha256 = none
  freshId : ∀ r ∈ db.storage.reservations, r.id ≠ reservationId
  noOpen : ∀ r ∈ db.storage.reservations, r.objectKey = request.objectKey → r.consumedAt ≠ none

variable {db : Db} {token : Option HexText} {request : UploadRequest}

variable {db' : Db}

/-- The preflight marks the key's expired reservations and adds at most one. -/
theorem v4AdminUploadPreflight_ok {reservationId : ReservationId} {r : PreflightResult}
    (h : v4AdminUploadPreflight db token reservationId request = .ok (db', r)) :
    db' = expireReservationsOf db request.objectKey ∨
    ∃ actor, ReservedFresh (expireReservationsOf db request.objectKey) reservationId request ∧
      db' = { expireReservationsOf db request.objectKey with
        storage.reservations :=
          (expireReservationsOf db request.objectKey).storage.reservations ++
            [newReservation (expireReservationsOf db request.objectKey) actor reservationId
              request] } := by
  unfold v4AdminUploadPreflight at h
  split at h
  · cases h
  next actor _ =>
    simp only [ite_error_eq_ok] at h
    obtain ⟨hvalid, _, _, h⟩ := h
    unfold reserveUpload at h
    split at h
    · exact Or.inl (left_of_ok h).symm
    next hpending =>
      split at h
      next existing _ =>
        split at h <;> exact Or.inl (left_of_ok h).symm
      next hnone =>
        split at h
        · split at h <;> exact Or.inl (left_of_ok h).symm
        · split at h
          · exact Or.inl (left_of_ok h).symm
          · simp only [ite_error_eq_ok] at h
            obtain ⟨hid, hopen, h⟩ := h
            refine Or.inr ⟨actor, ⟨by simpa using hvalid, by simpa using hpending, hnone,
              by simpa using hid, ?_⟩, (left_of_ok h).symm⟩
            intro x hx hk hc
            refine hopen ?_
            rw [List.any_eq_true]
            exact ⟨x, hx, by simp [hk, hc]⟩

/-- The document insert passed its unique constraints. -/
theorem insertDocument_ok {ids : CommitIds} {content : Content}
    (h : insertDocument db ids request = .ok content) :
    content = { db.content with
      documents := db.content.documents ++ [uploadedDocument ids request]
      generations := db.content.generations ++ [uploadedGeneration ids request]
      jobs := db.content.jobs ++ [uploadedJob db.now ids] } ∧
    (∀ d ∈ db.content.documents, d.id ≠ ids.documentId) ∧
    (∀ d ∈ db.content.documents, d.objectKey ≠ request.objectKey) ∧
    (∀ d ∈ db.content.documents, d.sha256 ≠ request.sha256) ∧
    (∀ g ∈ db.content.generations, g.id ≠ ids.generationId) ∧
    (∀ j ∈ db.content.jobs, j.id ≠ ids.jobId) := by
  unfold insertDocument at h
  simp only [ite_error_eq_ok] at h
  obtain ⟨hid, hkey, hsha, hgen, hjob, h⟩ := h
  exact ⟨(Except.ok.inj h).symm, by simpa using hid, by simpa using hkey, by simpa using hsha,
    by simpa using hgen, by simpa using hjob⟩

/-- The reservation a successful commit was made under. -/
structure CommittedUnder (db : Db) (actor : UserId) (reservationId : ReservationId)
    (request : UploadRequest) (reservation : UploadReservation) : Prop where
  valid : isInvalidUpload request = false
  mem : reservation ∈ db.storage.reservations
  id : reservation.id = reservationId
  live : reservationMatches db actor request reservation = true
  notPending : isPendingDeletion db request.objectKey = false

/-- The database a creating commit leaves. -/
def createdDb (db : Db) (actor : UserId) (reservationId : ReservationId) (ids : CommitIds)
    (request : UploadRequest) (content : Content) (nodes : List LibraryNode) : Db :=
  consumeReservation (v4RebuildEffectiveDocumentAccess { db with
    content := content
    library.nodes := nodes
    library.accessGrants := db.library.accessGrants ++ uploadGrants actor ids request })
    reservationId .created

/-- The commit changes nothing, spends its reservation on a duplicate, or
creates the document. -/
theorem v4AdminCommitUpload_ok {reservationId : ReservationId} {ids : CommitIds}
    {r : CommitResult} (h : v4AdminCommitUpload db token reservationId ids request = .ok (db', r)) :
    db' = db ∨ ∃ actor reservation, CommittedUnder db actor reservationId request reservation ∧
      (((∃ existing, existingUpload db request.sha256 = some existing) ∧
        db' = consumeReservation db reservationId .duplicate) ∨
      ∃ content nodes, existingUpload db request.sha256 = none ∧
        insertDocument db ids request = .ok content ∧
        insertNode db.library.nodes (fileNode actor ids request) = .ok nodes ∧
        (∀ p, request.parentId = some p → isFolder db.library.nodes p = true) ∧
        db' = createdDb db actor reservationId ids request content nodes) := by
  unfold v4AdminCommitUpload at h
  split at h
  · cases h
  next actor _ =>
    rw [ite_error_eq_ok] at h
    obtain ⟨hvalid, h⟩ := h
    split at h
    · exact Or.inl (left_of_ok h).symm
    next reservation hfind =>
      split at h
      · exact Or.inl (left_of_ok h).symm
      next hlive =>
        split at h
        · exact Or.inl (left_of_ok h).symm
        next hpending =>
          have hunder : CommittedUnder db actor reservationId request reservation :=
            ⟨by simpa using hvalid, List.mem_of_find?_eq_some hfind,
              by simpa using List.find?_some hfind, by simpa using hlive,
              by simpa using hpending⟩
          unfold commitReserved at h
          split at h
          next existing hex =>
            refine Or.inr ⟨actor, reservation, hunder, Or.inl ⟨⟨existing, hex⟩, ?_⟩⟩
            split at h <;> exact (left_of_ok h).symm
          next hnone =>
            simp only [ite_error_eq_ok] at h
            obtain ⟨_, _, h⟩ := h
            split at h
            · exact Or.inl (left_of_ok h).symm
            next hparent =>
              unfold createUpload at h
              split at h
              · cases h
              next content hdoc =>
                split at h
                · cases h
                next nodes hnode =>
                  rw [ite_error_eq_ok] at h
                  obtain ⟨_, h⟩ := h
                  refine Or.inr ⟨actor, reservation, hunder, Or.inr ⟨content, nodes, hnone, hdoc,
                    hnode, ?_, (left_of_ok h).symm⟩⟩
                  intro p hp
                  rw [hp] at hparent
                  simp only [Option.any_some, decide_eq_true_eq, Decidable.not_not,
                    isReadableFolder, Bool.and_eq_true] at hparent
                  exact hparent.1

/-- The database a document deletion leaves. -/
def deletedDb (db : Db) (document : Document) (node : LibraryNode) (deletionId : DeletionId) :
    Db :=
  v4RebuildEffectiveDocumentAccess { deleteDocumentRows db document.id node with
    storage.deletions := db.storage.deletions ++
      [newDeletion db.now deletionId document.objectKey] }

/-- A deletion found the document and its node, and nothing referred to them. -/
theorem v4AdminDeleteDocument_ok {d : DocumentId} {deletionId : DeletionId}
    (h : v4AdminDeleteDocument db token d deletionId = .ok (db', ())) :
    ∃ document ∈ db.content.documents, ∃ node ∈ db.library.nodes,
      document.id = d ∧ node.documentId = some d ∧
      (∀ o ∈ db.storage.deletions, o.id ≠ deletionId) ∧
      isPendingDeletion db document.objectKey = false ∧
      (∀ n ∈ db.library.nodes, n.parentId ≠ some node.id) ∧
      db' = deletedDb db document node deletionId := by
  unfold v4AdminDeleteDocument at h
  split at h
  · cases h
  split at h
  · cases h
  next document node hfind =>
    unfold deletableDocument at hfind
    obtain ⟨document', hdoc, hfind⟩ := Option.bind_eq_some_iff.mp hfind
    obtain ⟨node', hnode, heq⟩ := Option.map_eq_some_iff.mp hfind
    obtain ⟨rfl, rfl⟩ : document' = document ∧ node' = node := by simpa using heq
    have hid : document'.id = d := by simpa using List.find?_some hdoc
    have hnd : node'.documentId = some d := by
      have := List.find?_some hnode
      simp only [decide_eq_true_eq] at this
      exact this.1
    simp only [ite_error_eq_ok] at h
    obtain ⟨hfresh, hpending, hchild, _, _, h⟩ := h
    refine ⟨document', List.mem_of_find?_eq_some hdoc, node', List.mem_of_find?_eq_some hnode,
      hid, hnd, by simpa using hfresh, by simpa using hpending, by simpa using hchild, ?_⟩
    rw [deletedDb, hid]
    exact (left_of_ok h).symm

end LocalRag.Storage
