import Mathlib.Algebra.Order.Ring.Int

/-!
# The database — rows, tables and the clock

The PostgreSQL schema of `apps/api/alembic/versions` after its last revision:
`0001_v4_baseline` (accounts, library, uploads, chats), `0004` (create-children
grants) and `0010` (document and embedding generations, reprocessing). One
structure per table, one field per column that some modelled function reads or
writes, and `Db` holds the tables in the order the migrations create them.

Mirroring notes.
* Identifiers are the `uuid` columns; `gen_random_uuid()` is an argument of the
  function that calls it, so a collision is possible and is a primary key
  violation.
* `now` is `statement_timestamp()`, in microseconds.
* A `varchar(64)` that the schema holds to `^[0-9a-f]{64}$` is a `HexText`, the
  digits as the number they spell or any other text; a SHA-256 that the code
  computes over several fields is the tuple of those fields, that is, a digest
  without collisions.
* A column that a CHECK ties to another (`documents.stage = documents.state`)
  is one field here.
* `created_at`/`updated_at` stand only where an `ORDER BY` or a comparison reads
  them.
-/

namespace LocalRag

abbrev Time := Nat
abbrev UserId := Nat
abbrev SessionId := Nat
abbrev TeamId := Nat
abbrev NodeId := Nat
abbrev DocumentId := Nat
abbrev GrantId := Nat
abbrev PreviewId := Nat
abbrev ReservationId := Nat
abbrev DeletionId := Nat
abbrev LeaseToken := Nat
abbrev GenerationId := Nat
abbrev JobId := Nat
abbrev OperationId := Nat
abbrev ChunkId := Nat
abbrev ChatId := Nat
abbrev TurnId := Nat

/-- `interval '1 second'`. -/
def second : Time := 1000000

/-- `interval '1 minute'`. -/
def minute : Time := 60 * second

/-- A failed statement: its `SQLSTATE` and the message or constraint it names. -/
structure SqlError where
  sqlstate : String
  message : String
deriving Repr, DecidableEq

/-- `unique_violation`. -/
def uniqueViolation (constraint : String) : SqlError := ⟨"23505", constraint⟩

/-- `foreign_key_violation`. -/
def foreignKeyViolation (constraint : String) : SqlError := ⟨"23503", constraint⟩

/-- `check_violation`. -/
def checkViolation (constraint : String) : SqlError := ⟨"23514", constraint⟩

/-- A `SELECT … INTO STRICT` that found no row. -/
def noDataFound : SqlError := ⟨"P0002", "query returned no rows"⟩

/-- A text the schema expects to be 64 hexadecimal digits: the digits as a
number, or whatever else the caller sent. -/
inductive HexText where
  | digest (value : Nat)
  | other (text : String)
deriving Repr, DecidableEq

/-- `p ~ '^[0-9a-f]{64}$'`. -/
def HexText.wellFormed : HexText → Bool
  | .digest _ => true
  | .other _ => false

/-- `p ~ '[a-z0-9]'`, of one character. -/
def isLowerAlnum (c : Char) : Bool := ('a' ≤ c ∧ c ≤ 'z') ∨ ('0' ≤ c ∧ c ≤ '9')

/-- An object key: the content address of an original, or any other text. -/
inductive ObjectKey where
  | original (sha256 : Nat)
  | other (text : String)
deriving Repr, DecidableEq

/-- `'originals/' || left(sha, 2) || '/' || sha || '.pdf'`; two digests never
share a key. -/
def canonicalObjectKey : HexText → ObjectKey
  | .digest value => .original value
  | .other text => .other ("originals/" ++ text ++ ".pdf")

/-! ## Accounts -/

inductive Role where
  | admin
  | member
deriving Repr, DecidableEq

inductive UserStatus where
  | pendingActivation
  | active
  | disabled
  | deleted
deriving Repr, DecidableEq

structure User where
  id : UserId
  role : Role
  status : UserStatus
  passwordHash : Option String
  authenticationVersion : Nat
  deletedAt : Option Time
deriving Repr, DecidableEq

structure Session where
  id : SessionId
  userId : UserId
  tokenHash : HexText
  issuedAuthenticationVersion : Nat
  issuedAuthenticationEpoch : Nat
  issuedSessionEpoch : Nat
  idleExpiresAt : Time
  absoluteExpiresAt : Time
  revokedAt : Option Time
deriving Repr, DecidableEq

structure PreAuthChallenge where
  userId : UserId
  tokenHash : HexText
  expiresAt : Time
  consumedAt : Option Time
  revokedAt : Option Time
deriving Repr, DecidableEq

structure Team where
  id : TeamId
  isActive : Bool
deriving Repr, DecidableEq

structure TeamMember where
  teamId : TeamId
  userId : UserId
deriving Repr, DecidableEq

structure SecurityEpochs where
  authenticationVersion : Nat
  authorizationVersion : Nat
  sessionEpoch : Nat
deriving Repr, DecidableEq

structure Accounts where
  users : List User
  sessions : List Session
  challenges : List PreAuthChallenge
  teams : List Team
  teamMembers : List TeamMember
  epochs : SecurityEpochs
deriving Repr, DecidableEq

/-! ## Library -/

inductive NodeKind where
  | folder
  | file
deriving Repr, DecidableEq

structure LibraryNode where
  id : NodeId
  parentId : Option NodeId
  kind : NodeKind
  name : String
  nameKey : String
  documentId : Option DocumentId
  uploaderUserId : Option UserId
  accessBoundary : Bool
deriving Repr, DecidableEq

structure AccessGrant where
  id : GrantId
  nodeId : NodeId
  userId : Option UserId
  teamId : Option TeamId
deriving Repr, DecidableEq

structure FolderCreateGrant where
  id : GrantId
  folderId : NodeId
  userId : Option UserId
  teamId : Option TeamId
deriving Repr, DecidableEq

structure EffectiveAccess where
  userId : UserId
  documentId : DocumentId
  authorizationVersion : Nat
deriving Repr, DecidableEq

/-- The `operation` document of an ACL preview, one constructor per `kind`. -/
inductive AclOperation where
  | setGrant (nodeId : NodeId) (userId : Option UserId) (teamId : Option TeamId) (present : Bool)
  | setMembership (teamId : TeamId) (userId : UserId) (present : Bool)
  | setBoundary (nodeId : NodeId) (enabled : Bool)
  | setTeamActive (teamId : TeamId) (active : Bool)
  | moveNode (nodeId : NodeId) (parentId : Option NodeId)
  | setCreateChildrenGrant (folderId : NodeId) (userId : Option UserId)
      (teamId : Option TeamId) (present : Bool)
deriving Repr, DecidableEq

/-- The document `v4_acl_impact` returns; its digest is the document itself. -/
structure AclImpact where
  operation : AclOperation
  userIds : List UserId
  nodeIds : List NodeId
  documentIds : List DocumentId
  userCount : Nat
  nodeCount : Nat
  documentCount : Nat
deriving Repr, DecidableEq

structure AclPreview where
  id : PreviewId
  actorUserId : UserId
  operation : AclOperation
  impactDigest : AclImpact
  authorizationVersion : Nat
  expiresAt : Time
  consumedAt : Option Time
deriving Repr, DecidableEq

structure Library where
  nodes : List LibraryNode
  accessGrants : List AccessGrant
  folderCreateGrants : List FolderCreateGrant
  effectiveAccess : List EffectiveAccess
  aclPreviews : List AclPreview
deriving Repr, DecidableEq

/-! ## Uploads and the deletion outbox -/

/-- The fields `v4_upload_metadata_digest` hashes. -/
structure UploadMetadata where
  filename : String
  displayName : String
  nameKey : String
  mimeType : String
  byteSize : Int
  parserVersion : String
  chunkingVersion : String
  embeddingVersion : String
deriving Repr, DecidableEq

inductive ReservationOutcome where
  | created
  | duplicate
  | expired
deriving Repr, DecidableEq

structure UploadReservation where
  id : ReservationId
  actorUserId : UserId
  sha256 : HexText
  objectKey : ObjectKey
  parentId : Option NodeId
  selectedTeamIds : List TeamId
  metadataDigest : UploadMetadata
  expiresAt : Time
  consumedAt : Option Time
  outcome : Option ReservationOutcome
deriving Repr, DecidableEq

inductive DeletionStatus where
  | queued
  | leased
  | failed
deriving Repr, DecidableEq

structure ObjectDeletion where
  id : DeletionId
  objectKey : ObjectKey
  status : DeletionStatus
  attempt : Nat
  availableAt : Time
  leaseExpiresAt : Option Time
  leaseToken : Option LeaseToken
  leaseOwner : Option String
  fencingToken : Nat
  lastError : Option String
  createdAt : Time
deriving Repr, DecidableEq

structure Storage where
  reservations : List UploadReservation
  deletions : List ObjectDeletion
deriving Repr, DecidableEq

/-! ## Documents, generations, chunks and jobs -/

/-- The `state`/`stage` column of `documents` and `stage` of `ingestion_jobs`. -/
inductive DocumentState where
  | uploaded
  | parsing
  | chunking
  | embedding
  | indexing
  | ready
  | failed
deriving Repr, DecidableEq

structure Document where
  id : DocumentId
  sha256 : HexText
  originalFilename : String
  mimeType : String
  byteSize : Int
  objectKey : ObjectKey
  state : DocumentState
  error : Option String
  parserVersion : String
  chunkingVersion : String
  embeddingVersion : String
  pageCount : Option Nat
  chunkCount : Nat
  activeGenerationId : GenerationId
deriving Repr, DecidableEq

inductive GenerationState where
  | building
  | ready
  | failed
  | retained
  | abandoned
deriving Repr, DecidableEq

structure DocumentGeneration where
  id : GenerationId
  documentId : DocumentId
  operationId : Option OperationId
  parserVersion : String
  chunkingVersion : String
  state : GenerationState
  pageCount : Option Nat
  chunkCount : Nat
  error : Option String
  readyAt : Option Time
  retiredAt : Option Time
deriving Repr, DecidableEq

inductive ParseMethod where
  | direct
  | ocr
deriving Repr, DecidableEq

structure Chunk where
  id : ChunkId
  documentId : DocumentId
  documentGenerationId : GenerationId
  ordinal : Nat
  pageStart : Nat
  pageEnd : Nat
  sectionName : Option String
  text : String
  tokenCount : Nat
  textSha256 : HexText
  sourceSha256 : HexText
  parseMethod : ParseMethod
  parserVersion : String
  chunkingVersion : String
  embeddingVersion : String
  schemaVersion : String
  /-- The text of the JSON anchor. -/
  highlightAnchor : String
deriving Repr, DecidableEq

inductive JobStatus where
  | queued
  | running
  | completed
  | failed
  | interrupted
deriving Repr, DecidableEq

structure IngestionJob where
  id : JobId
  documentId : DocumentId
  targetGenerationId : GenerationId
  reprocessingOperationId : Option OperationId
  status : JobStatus
  stage : DocumentState
  attempt : Nat
  completedUnits : Nat
  totalUnits : Option Nat
  availableAt : Time
  leaseExpiresAt : Option Time
  leaseToken : Option LeaseToken
  leaseOwner : Option String
  fencingToken : Nat
  error : Option String
  createdAt : Time
deriving Repr, DecidableEq

structure Content where
  documents : List Document
  generations : List DocumentGeneration
  chunks : List Chunk
  jobs : List IngestionJob
deriving Repr, DecidableEq

/-! ## Embedding generations and reprocessing -/

inductive OperationType where
  | reindex
  | reingestion
deriving Repr, DecidableEq

/-- The fields the `impact_digest` of a reprocessing preview hashes. -/
structure ReprocessingImpact where
  operationType : OperationType
  targetProfileId : String
  sourceParserVersion : Option String
  targetParserVersion : Option String
  targetChunkingVersion : Option String
  targetEmbeddingVersion : Option String
  targetDimension : Option Nat
  documentCount : Nat
  chunkCount : Nat
  estimatedBytes : Int
deriving Repr, DecidableEq

structure ReprocessingPreview where
  id : PreviewId
  actorUserId : UserId
  sessionId : SessionId
  impact : ReprocessingImpact
  expiresAt : Time
  consumedAt : Option Time
deriving Repr, DecidableEq

/-- A `start_reprocessing` row of `system_reauthentication_grants`. -/
structure ReauthenticationGrant where
  tokenHash : HexText
  actorUserId : UserId
  sessionId : SessionId
  impact : ReprocessingImpact
  expiresAt : Time
  consumedAt : Option Time
deriving Repr, DecidableEq

inductive OperationState where
  | running
  | paused
  | qualifying
  | succeeded
  | failed
  | cancelled
deriving Repr, DecidableEq

structure ReprocessingOperation where
  id : OperationId
  previewId : PreviewId
  operationType : OperationType
  state : OperationState
  sourceParserVersion : Option String
  targetParserVersion : Option String
  targetChunkingVersion : Option String
  operationGenerationId : Option GenerationId
  totalDocuments : Nat
  completedDocuments : Nat
  failedDocuments : Nat
  totalChunks : Nat
  completedChunks : Nat
  reasonCode : Option String
  leaseOwner : Option String
  leaseToken : Option LeaseToken
  leaseExpiresAt : Option Time
  fencingToken : Nat
deriving Repr, DecidableEq

inductive EmbeddingState where
  | building
  | qualified
  | active
  | retained
  | abandoned
deriving Repr, DecidableEq

structure EmbeddingGeneration where
  id : GenerationId
  operationId : Option OperationId
  embeddingVersion : String
  dimension : Nat
  state : EmbeddingState
  retiredAt : Option Time
  sourceGenerationId : Option GenerationId
deriving Repr, DecidableEq

structure ChunkEmbedding where
  embeddingGenerationId : GenerationId
  chunkId : ChunkId
  documentGenerationId : GenerationId
  dimension : Nat
  textSha256 : HexText
  /-- `provenance_sha256`: the hash of chunk, text hash, generation and version. -/
  provenance : ChunkId × HexText × GenerationId × String
deriving Repr, DecidableEq

inductive TaskState where
  | queued
  | running
  | completed
  | failed
deriving Repr, DecidableEq

structure ReindexTask where
  operationId : OperationId
  generationId : GenerationId
  chunkId : ChunkId
  state : TaskState
  attempt : Nat
  leaseOwner : Option String
  leaseToken : Option LeaseToken
  leaseExpiresAt : Option Time
  fencingToken : Nat
  error : Option String
  createdAt : Time
deriving Repr, DecidableEq

structure Reprocessing where
  previews : List ReprocessingPreview
  reauthenticationGrants : List ReauthenticationGrant
  /-- `verified_at` of the restore verifications of succeeded backup runs. -/
  backupVerifications : List Time
  operations : List ReprocessingOperation
  embeddingGenerations : List EmbeddingGeneration
  /-- `embedding_generation_state.active_generation_id`. -/
  activeEmbeddingGeneration : GenerationId
  chunkEmbeddings : List ChunkEmbedding
  reindexTasks : List ReindexTask
deriving Repr, DecidableEq

/-! ## Chats -/

inductive TurnStatus where
  | generating
  | complete
  | failed
  | interrupted
  | lengthLimited
  | citationFailed
  | accessRevoked
deriving Repr, DecidableEq

structure Chat where
  id : ChatId
  ownerUserId : UserId
  scopeVersion : Nat
  nextTurnOrdinal : Nat
deriving Repr, DecidableEq

structure ChatTurn where
  id : TurnId
  chatId : ChatId
  ordinal : Nat
  question : String
  status : TurnStatus
  attempt : Nat
  scopeVersion : Nat
  /-- `embedding_generation_id`, bound by a trigger on insert. -/
  embeddingGenerationId : GenerationId
  generationToken : Option LeaseToken
  finalAnswer : Option String
  partialAnswer : Option String
  insufficientContext : Bool
  error : Option String
  completedAt : Option Time
deriving Repr, DecidableEq

structure TurnSource where
  turnId : TurnId
  rank : Nat
  documentId : Option DocumentId
  chunkId : Option ChunkId
  documentIdSnapshot : DocumentId
  chunkIdSnapshot : ChunkId
  originalFilename : String
  displayName : String
  logicalPath : String
  pageStart : Nat
  pageEnd : Nat
  sectionName : Option String
  sourceSha256 : HexText
  textSha256 : HexText
  snapshotText : String
  highlightAnchor : String
  tokenCount : Nat
  ownerAuthorizedAtDeletion : Option Bool
deriving Repr, DecidableEq

structure TurnCitation where
  turnId : TurnId
  ordinal : Nat
  sourceRank : Nat
deriving Repr, DecidableEq

structure ChatStore where
  chats : List Chat
  turns : List ChatTurn
  sources : List TurnSource
  citations : List TurnCitation
deriving Repr, DecidableEq

/-- The database and the time its statements see. -/
structure Db where
  now : Time
  accounts : Accounts
  library : Library
  storage : Storage
  content : Content
  reprocessing : Reprocessing
  chat : ChatStore
deriving Repr, DecidableEq

end LocalRag
