import LocalRag.Library.Tree
import LocalRag.System

/-!
# The effects — everything one call of the system can do

`Effect db call db'` says how a call can take `db` to `db'`: by no write, or by
the write of its function after what the function checked first. The functions
are taken apart here and nowhere else; an invariant of the system has one case
per constructor. What the outbox and the uploads write to the storage tables is
told apart in `Storage.StorageStep`.
-/

namespace LocalRag

open LocalRag.Core Access Library Storage

/-- The calls of the uploads and the outbox. -/
def storesObjects : Call → Bool
  | .uploadPreflight .. | .commitUpload .. | .deleteDocument .. | .queueOrphans .. => true
  | .claimDeletion .. | .heartbeatDeletion .. | .finishDeletion .. => true
  | _ => false

inductive Effect (db : Db) : Call → Db → Prop where
  /-- The function raised, or found nothing to do. -/
  | same {call : Call} : Effect db call db
  | tick (elapsed : Time) : Effect db (.tick elapsed) { db with now := db.now + elapsed }
  /-- A login or a logout. -/
  | sessions {call : Call} (sessions : List Session) :
      Effect db call { db with accounts.sessions := sessions }
  | activate {sessionId userId : Nat} {activationHash : HexText} {passwordHash : String}
      {tokenHash csrfHash : HexText} {idle absolute : Time}
      (challenged : activationUser db activationHash = some userId) (sessions : List Session)
      (challenges : List PreAuthChallenge) :
      Effect db (.consumeActivation sessionId activationHash passwordHash tokenHash csrfHash idle
        absolute) { db with
          accounts.users := updateWhere (fun a => a.id = userId) (activated passwordHash)
            db.accounts.users
          accounts.sessions := sessions
          accounts.challenges := challenges }
  | reset {token : Option HexText} {userId : UserId} {challengeHash : HexText} {expiresAt : Time}
      (sessions : List Session) (challenges : List PreAuthChallenge) :
      Effect db (.resetUser token userId challengeHash expiresAt) { db with
        accounts.users := updateWhere (fun a => a.id = userId ∧ a.deletedAt = none) resetPending
          db.accounts.users
        accounts.sessions := sessions
        accounts.challenges := challenges }
  | setUser {token : Option HexText} {userId : UserId} {role : Role} {status : UserStatus}
      (sessions : List Session) (members : List TeamMember) (grants : List AccessGrant)
      (createGrants : List FolderCreateGrant) :
      Effect db (.setUser token userId role status) (v4RebuildEffectiveDocumentAccess { db with
        accounts.users := updateWhere (fun a => a.id = userId) (userSet db.now role status)
          db.accounts.users
        accounts.sessions := sessions
        accounts.teamMembers := members
        library.accessGrants := grants
        library.folderCreateGrants := createGrants })
  | createFolder {token : Option HexText} {nodeId : NodeId} {parentId : Option NodeId}
      {name nameKey : String} {nodes : List LibraryNode}
      (inserted : insertNode db.library.nodes (folderNode nodeId parentId name nameKey) = .ok nodes)
      (parent : ∀ p, parentId = some p →
        isFolder db.library.nodes p = true ∧ cappedDepth db.library.nodes p < 256)
      (few : db.library.nodes.length < 10000) :
      Effect db (.createFolder token nodeId parentId name nameKey)
        { db with library.nodes := nodes }
  | rename {token : Option HexText} {name nameKey : String} {node : LibraryNode}
      (mem : node ∈ db.library.nodes)
      (free : siblingNameTaken db.library.nodes node.id node.parentId nameKey = false) :
      Effect db (.renameNode token node.id name nameKey) { db with
        library.nodes := updateWhere (fun n => n.id = node.id)
          (fun n => { n with name := name, nameKey := nameKey }) db.library.nodes }
  | deleteFolder {token : Option HexText} {node : LibraryNode} (mem : node ∈ db.library.nodes)
      (folder : node.kind = .folder) (leaf : ∀ n ∈ db.library.nodes, n.parentId ≠ some node.id) :
      Effect db (.deleteFolder token node.id) { db with library := deleteNode db.library node.id }
  | previewAcl {token : Option HexText} {previewId : PreviewId} {op : AclOperation}
      (new : AclPreview) : Effect db (.previewAcl token previewId op)
        { db with library.aclPreviews := db.library.aclPreviews ++ [new] }
  /-- The apply that moves the version past every row. -/
  | createChildren {token : Option HexText} {grantId : GrantId} {previewId : PreviewId}
      {impactDigest : AclImpact} {preview : AclPreview} {folderId : NodeId}
      {userId : Option UserId} {teamId : Option TeamId} {present : Bool}
      (found : (db.library.aclPreviews.find? fun p => p.id = previewId) = some preview)
      (kind : preview.operation = .setCreateChildrenGrant folderId userId teamId present)
      (createGrants : List FolderCreateGrant) :
      Effect db (.applyAcl token grantId previewId impactDigest) (consumePreview { db with
        library.folderCreateGrants := createGrants
        accounts.epochs.authorizationVersion :=
          db.accounts.epochs.authorizationVersion + 1 } preview.id)
  /-- Any other apply. -/
  | applyAcl {token : Option HexText} {grantId : GrantId} {previewId : PreviewId}
      {impactDigest : AclImpact} {preview : AclPreview} {applied : Db}
      (performed : applyOperation db grantId preview.operation = .ok applied) :
      Effect db (.applyAcl token grantId previewId impactDigest)
        (v4RebuildEffectiveDocumentAccess (consumePreview applied preview.id))
  /-- A write of the storage tables alone. -/
  | stored {call : Call} (stores : storesObjects call = true) (storage : Storage) :
      Effect db call { db with storage := storage }
  /-- A commit that creates the document. -/
  | upload {token : Option HexText} {actor : UserId} {reservationId : ReservationId}
      {ids : CommitIds} {request : UploadRequest} {content : Content} {nodes : List LibraryNode}
      (new : existingUpload db request.sha256 = none)
      (document : insertDocument db ids request = .ok content)
      (node : insertNode db.library.nodes (fileNode actor ids request) = .ok nodes)
      (parent : ∀ p, request.parentId = some p → isFolder db.library.nodes p = true) :
      Effect db (.commitUpload token reservationId ids request)
        (createdDb db actor reservationId ids request content nodes)
  | deleteDocument {token : Option HexText} {d : DocumentId} {deletionId : DeletionId} {db' : Db}
      (done : v4AdminDeleteDocument db token d deletionId = .ok (db', ())) :
      Effect db (.deleteDocument token d deletionId) db'

/-- The commit of a transaction has an effect if every way it returns has it. -/
theorem effect_commit {ρ : Type} {db : Db} {call : Call} {res : Except SqlError (Db × ρ)}
    (h : ∀ db' r, res = .ok (db', r) → Effect db call db') : Effect db call (commit db res) :=
  commit_inv (Effect db call) .same h

/-- Every call of the system has one of the effects. -/
theorem step_effect (db : Db) (call : Call) : Effect db call (step db call) := by
  cases call with
  | tick elapsed => exact .tick elapsed
  | issueLoginSession =>
    refine effect_commit fun db' r h => ?_
    obtain ⟨sessions, rfl⟩ := v4IssueLoginSession_ok h
    exact .sessions sessions
  | logout => exact .sessions _
  | consumeActivation =>
    refine effect_commit fun db' r h => ?_
    obtain ⟨hchallenged, sessions, challenges, rfl⟩ := v4ConsumeActivation_ok h
    exact .activate hchallenged sessions challenges
  | resetUser =>
    refine effect_commit fun db' r h => ?_
    obtain ⟨sessions, challenges, rfl⟩ := v4AdminResetUser_ok h
    exact .reset sessions challenges
  | setUser =>
    refine effect_commit fun db' r h => ?_
    obtain ⟨sessions, members, grants, createGrants, rfl⟩ := v4AdminSetUser_ok h
    exact .setUser sessions members grants createGrants
  | createFolder =>
    refine effect_commit fun db' r h => ?_
    obtain ⟨nodes, rfl, hinserted, hparent, hfew⟩ := v4CreateFolder_ok h
    exact .createFolder hinserted hparent hfew
  | renameNode =>
    refine effect_commit fun db' r h => ?_
    rcases v4AdminRenameLibraryNode_ok h with rfl | ⟨node, hnode, hfree, rfl⟩
    · exact .same
    · obtain ⟨hmem, rfl⟩ := nodeById_id hnode
      exact .rename hmem hfree
  | deleteFolder =>
    refine effect_commit fun db' r h => ?_
    rcases v4AdminDeleteFolder_ok h with rfl | ⟨⟨node, hnode, hfolder⟩, hleaf, rfl⟩
    · exact .same
    · obtain ⟨hmem, rfl⟩ := nodeById_id hnode
      exact .deleteFolder hmem hfolder hleaf
  | previewAcl =>
    refine effect_commit fun db' r h => ?_
    obtain ⟨new, rfl⟩ := v4AdminPreviewAcl_ok h
    exact .previewAcl new
  | applyAcl =>
    refine effect_commit fun db' r h => ?_
    obtain ⟨_, preview, applied, hfound, _, harm⟩ := v4AdminApplyAcl_arms h
    rcases harm with ⟨folderId, userId, teamId, present, hkind, happ, rfl⟩ | ⟨happ, rfl⟩
    · obtain ⟨createGrants, rfl⟩ := applySetCreateChildrenGrant_ok happ
      exact .createChildren hfound hkind createGrants
    · exact .applyAcl happ
  | uploadPreflight =>
    refine effect_commit fun db' r h => ?_
    rcases v4AdminUploadPreflight_ok h with rfl | ⟨actor, _, rfl⟩
    · exact .stored rfl _
    · exact .stored rfl _
  | commitUpload =>
    refine effect_commit fun db' r h => ?_
    rcases v4AdminCommitUpload_ok h with
      rfl | ⟨actor, _, _, ⟨_, rfl⟩ | ⟨content, nodes, hnew, hdocument, hnode, hparent, rfl⟩⟩
    · exact .same
    · exact .stored rfl _
    · exact .upload hnew hdocument hnode hparent
  | deleteDocument => exact effect_commit fun db' _ h => .deleteDocument h
  | queueOrphans =>
    refine effect_commit fun db' r h => ?_
    obtain ⟨_, _, _, _, rfl⟩ := v4QueueExpiredUploadOrphans_ok h
    exact .stored rfl _
  | claimDeletion =>
    refine effect_commit fun db' r h => ?_
    rcases v4ClaimObjectDeletion_ok h with ⟨rfl, _⟩ | ⟨_, _, _, _, _, rfl⟩
    · exact .same
    · exact .stored rfl _
  | heartbeatDeletion =>
    refine effect_commit fun db' r h => ?_
    rcases v4HeartbeatObjectDeletion_ok h with rfl | rfl
    · exact .same
    · exact .stored rfl _
  | finishDeletion =>
    refine effect_commit fun db' r h => ?_
    rcases v4FinishObjectDeletion_ok h with rfl | ⟨_, rfl⟩ | ⟨_, rfl⟩
    · exact .same
    · exact .stored rfl _
    · exact .stored rfl _

end LocalRag
