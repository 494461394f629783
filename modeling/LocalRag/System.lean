import LocalRag.Storage.Outbox

/-!
# The library system — its calls and one step

`Call` has one constructor for each database function through which accounts,
the library, uploads and the deletion outbox change, and one for the clock.
Each call is one transaction: `step` keeps what the function returned, or the
old database if it raised. Every result about "any sequence of operations" in
`Access`, `Library` and `Storage` is about `run step`.

The arguments are the ones the API or a worker passes, plus the identifiers the
function draws at random.
-/

namespace LocalRag

open LocalRag.Core Access Library Storage

inductive Call where
  | tick (elapsed : Time)
  | issueLoginSession (sessionId : SessionId) (userId : UserId) (expectedVersion : Nat)
      (sessionTokenHash csrfTokenHash : HexText) (idleExpiresAt absoluteExpiresAt : Time)
  | logout (sessionTokenHash : HexText)
  | consumeActivation (sessionId : SessionId) (activationTokenHash : HexText)
      (passwordHash : String) (sessionTokenHash csrfTokenHash : HexText)
      (idleExpiresAt absoluteExpiresAt : Time)
  | resetUser (token : Option HexText) (userId : UserId) (challengeTokenHash : HexText)
      (expiresAt : Time)
  | setUser (token : Option HexText) (userId : UserId) (role : Role) (status : UserStatus)
  | createFolder (token : Option HexText) (nodeId : NodeId) (parentId : Option NodeId)
      (name nameKey : String)
  | renameNode (token : Option HexText) (nodeId : NodeId) (name nameKey : String)
  | deleteFolder (token : Option HexText) (nodeId : NodeId)
  | previewAcl (token : Option HexText) (previewId : PreviewId) (op : AclOperation)
  | applyAcl (token : Option HexText) (grantId : GrantId) (previewId : PreviewId)
      (impactDigest : AclImpact)
  | uploadPreflight (token : Option HexText) (reservationId : ReservationId)
      (request : UploadRequest)
  | commitUpload (token : Option HexText) (reservationId : ReservationId) (ids : CommitIds)
      (request : UploadRequest)
  | deleteDocument (token : Option HexText) (documentId : DocumentId) (deletionId : DeletionId)
  | queueOrphans (deletionId : DeletionId) (graceSeconds : Nat)
  | claimDeletion (owner : String) (leaseSeconds : Nat) (leaseToken : LeaseToken)
      (locked : List DeletionId)
  | heartbeatDeletion (deletionId : DeletionId) (leaseToken : LeaseToken) (fencingToken : Nat)
      (leaseSeconds : Nat)
  | finishDeletion (deletionId : DeletionId) (leaseToken : LeaseToken) (fencingToken : Nat)
      (success : Bool) (error : Option String)
deriving Repr, DecidableEq

/-- One transaction, or one advance of the clock. -/
def step (db : Db) : Call → Db
  | .tick elapsed => { db with now := db.now + elapsed }
  | .issueLoginSession sessionId userId version tokenHash csrfHash idle absolute =>
    commit db (v4IssueLoginSession db sessionId userId version tokenHash csrfHash idle absolute)
  | .logout tokenHash => commit db (v4Logout db tokenHash)
  | .consumeActivation sessionId activationHash passwordHash tokenHash csrfHash idle absolute =>
    commit db (v4ConsumeActivation db sessionId activationHash passwordHash tokenHash csrfHash
      idle absolute)
  | .resetUser token userId challengeHash expiresAt =>
    commit db (v4AdminResetUser db token userId challengeHash expiresAt)
  | .setUser token userId role status => commit db (v4AdminSetUser db token userId role status)
  | .createFolder token nodeId parentId name nameKey =>
    commit db (v4CreateFolder db token nodeId parentId name nameKey)
  | .renameNode token nodeId name nameKey =>
    commit db (v4AdminRenameLibraryNode db token nodeId name nameKey)
  | .deleteFolder token nodeId => commit db (v4AdminDeleteFolder db token nodeId)
  | .previewAcl token previewId op => commit db (v4AdminPreviewAcl db token previewId op)
  | .applyAcl token grantId previewId impactDigest =>
    commit db (v4AdminApplyAcl db token grantId previewId impactDigest)
  | .uploadPreflight token reservationId request =>
    commit db (v4AdminUploadPreflight db token reservationId request)
  | .commitUpload token reservationId ids request =>
    commit db (v4AdminCommitUpload db token reservationId ids request)
  | .deleteDocument token documentId deletionId =>
    commit db (v4AdminDeleteDocument db token documentId deletionId)
  | .queueOrphans deletionId graceSeconds =>
    commit db (v4QueueExpiredUploadOrphans db deletionId graceSeconds)
  | .claimDeletion owner leaseSeconds leaseToken locked =>
    commit db (v4ClaimObjectDeletion db owner leaseSeconds leaseToken locked)
  | .heartbeatDeletion deletionId leaseToken fencingToken leaseSeconds =>
    commit db (v4HeartbeatObjectDeletion db deletionId leaseToken fencingToken leaseSeconds)
  | .finishDeletion deletionId leaseToken fencingToken success error =>
    commit db (v4FinishObjectDeletion db deletionId leaseToken fencingToken success error)

/-- A database after installation: accounts, teams and memberships as they may
be, and nothing uploaded, granted or queued yet. -/
structure Installed (db : Db) : Prop where
  users : Keyed (·.id) db.accounts.users
  nodes : db.library.nodes = []
  accessGrants : db.library.accessGrants = []
  folderCreateGrants : db.library.folderCreateGrants = []
  effectiveAccess : db.library.effectiveAccess = []
  reservations : db.storage.reservations = []
  deletions : db.storage.deletions = []
  documents : db.content.documents = []

/-! ## An installation -/

/-- An active account. -/
def sampleUser (id : UserId) (role : Role) : User :=
  { id := id
    role := role
    status := .active
    passwordHash := some "$argon2id$"
    authenticationVersion := 1
    deletedAt := none }

/-- A session of the account, with the account's id as its token. -/
def sampleSession (userId : UserId) : Session :=
  { id := userId
    userId := userId
    tokenHash := .digest userId
    issuedAuthenticationVersion := 1
    issuedAuthenticationEpoch := 1
    issuedSessionEpoch := 1
    idleExpiresAt := 30 * minute
    absoluteExpiresAt := 30 * minute
    revokedAt := none }

/-- An installation: the administrator `1` and the member `2`, both logged in. -/
def sampleDb : Db where
  now := 0
  accounts :=
    { users := [sampleUser 1 .admin, sampleUser 2 .member]
      sessions := [sampleSession 1, sampleSession 2]
      challenges := []
      teams := []
      teamMembers := []
      epochs := ⟨1, 1, 1⟩ }
  library := ⟨[], [], [], [], []⟩
  storage := ⟨[], []⟩
  content := ⟨[], [], [], []⟩
  reprocessing :=
    { previews := []
      reauthenticationGrants := []
      backupVerifications := []
      operations := []
      embeddingGenerations := [⟨1, none, "embedding-v1", 8, .active, none, none⟩]
      activeEmbeddingGeneration := 1
      chunkEmbeddings := []
      reindexTasks := [] }
  chat := ⟨[], [], [], []⟩

theorem installed_sampleDb : Installed sampleDb :=
  ⟨by decide, rfl, rfl, rfl, rfl, rfl, rfl, rfl⟩

/-- An upload of the content `sha256` into a folder. -/
def sampleUpload (sha256 : Nat) (parentId : Option NodeId) (nameKey : String) : UploadRequest :=
  { sha256 := .digest sha256
    objectKey := .original sha256
    metadata :=
      { filename := "a.pdf"
        displayName := "a.pdf"
        nameKey := nameKey
        mimeType := "application/pdf"
        byteSize := 1
        parserVersion := "p1"
        chunkingVersion := "c1"
        embeddingVersion := "embedding-v1" }
    parentId := parentId
    selectedTeamIds := [] }

end LocalRag
