import LocalRag.Library.Steps

/-!
# Every way a call changes uploads, documents and the outbox

`StorageStep db db'` is for `upload_reservations`, `documents` and
`object_deletions` what `Library.NodesStep` is for the tree: one constructor per
write, with the checks the function passed first. The calls that write none of
the three tables are one constructor, which keeps what the others' invariants
read of the tree: a node that carries a document stays.
-/

namespace LocalRag.Storage

open LocalRag.Core Access Library

/-- `call` takes `db` to the second database by one of these writes. -/
inductive StorageStep (db : Db) : Call → Db → Prop where
  /-- A call on other tables, or one that changes nothing, or the clock. -/
  | other {call : Call} {db' : Db} (storage : db'.storage = db.storage) (content : db'.content = db.content)
      (places : KeepsPlaces db.library.nodes db'.library.nodes) (now : db.now ≤ db'.now) :
      StorageStep db call db'
  /-- A preflight that reserves nothing. -/
  | expire {token : Option HexText} {reservationId : ReservationId} (request : UploadRequest) :
      StorageStep db (.uploadPreflight token reservationId request)
        (expireReservationsOf db request.objectKey)
  /-- A preflight that reserves. -/
  | reserve {token : Option HexText} (actor : UserId) {reservationId : ReservationId}
      {request : UploadRequest}
      (fresh : ReservedFresh (expireReservationsOf db request.objectKey) reservationId request) :
      StorageStep db (.uploadPreflight token reservationId request)
        { expireReservationsOf db request.objectKey with
          storage.reservations :=
            (expireReservationsOf db request.objectKey).storage.reservations ++
              [newReservation (expireReservationsOf db request.objectKey) actor reservationId
                request] }
  /-- A commit that finds the content already there. -/
  | duplicate {token : Option HexText} {actor : UserId} {reservationId : ReservationId}
      {ids : CommitIds} {request : UploadRequest} {reservation : UploadReservation}
      (under : CommittedUnder db actor reservationId request reservation) :
      StorageStep db (.commitUpload token reservationId ids request)
        (consumeReservation db reservationId .duplicate)
  /-- A commit that creates the document. -/
  | create {token : Option HexText} {actor : UserId} {reservationId : ReservationId}
      {ids : CommitIds} {request : UploadRequest} {reservation : UploadReservation}
      {content : Content} {nodes : List LibraryNode}
      (under : CommittedUnder db actor reservationId request reservation)
      (new : existingUpload db request.sha256 = none)
      (document : insertDocument db ids request = .ok content)
      (node : insertNode db.library.nodes (fileNode actor ids request) = .ok nodes) :
      StorageStep db (.commitUpload token reservationId ids request)
        (createdDb db actor reservationId ids request content nodes)
  /-- A document's deletion. -/
  | delete {token : Option HexText} {document : Document} {node : LibraryNode} {deletionId : DeletionId}
      (mem : document ∈ db.content.documents) (nodeMem : node ∈ db.library.nodes)
      (at_ : node.documentId = some document.id)
      (freshId : ∀ o ∈ db.storage.deletions, o.id ≠ deletionId)
      (free : isPendingDeletion db document.objectKey = false) :
      StorageStep db (.deleteDocument token document.id deletionId)
        (deletedDb db document node deletionId)
  /-- An orphan sweep. -/
  | sweep {deletionId : DeletionId} {graceSeconds : Nat} (lower : 60 ≤ graceSeconds)
      (freshIds : ∀ o ∈ db.storage.deletions,
        ∀ o' ∈ orphanDeletions (expireReservations db) (graceSeconds * second) deletionId,
          o.id ≠ o'.id) :
      StorageStep db (.queueOrphans deletionId graceSeconds) { expireReservations db with
        storage.deletions := db.storage.deletions ++
          orphanDeletions (expireReservations db) (graceSeconds * second) deletionId }
  /-- A worker's claim. -/
  | claim {o : ObjectDeletion} (owner : String) (leaseSeconds : Nat) (leaseToken : LeaseToken)
      {locked : List DeletionId} (mem : o ∈ db.storage.deletions)
      (claimable : isClaimable db o = true) :
      StorageStep db (.claimDeletion owner leaseSeconds leaseToken locked) { db with
        storage.deletions := updateWhere (fun x => x.id = o.id)
          (leasedDeletion db.now owner leaseToken leaseSeconds) db.storage.deletions }
  /-- A worker's heartbeat. -/
  | heartbeat (deletionId : DeletionId) (leaseToken : LeaseToken) (fencingToken : Nat)
      (leaseSeconds : Nat) :
      StorageStep db (.heartbeatDeletion deletionId leaseToken fencingToken leaseSeconds) { db with
        storage.deletions := updateWhere (holdsLease db.now deletionId leaseToken fencingToken)
          (fun o => { o with leaseExpiresAt := some (db.now + leaseSeconds * second) })
          db.storage.deletions }
  /-- The end of a deletion that succeeded. -/
  | finish (deletionId : DeletionId) (leaseToken : LeaseToken) (fencingToken : Nat)
      {error : Option String} :
      StorageStep db (.finishDeletion deletionId leaseToken fencingToken true error) { db with
        storage.deletions := deleteWhere (holdsLease db.now deletionId leaseToken fencingToken)
          db.storage.deletions }
  /-- The end of a deletion that failed. -/
  | release (deletionId : DeletionId) (leaseToken : LeaseToken) (fencingToken : Nat)
      (error : Option String) :
      StorageStep db (.finishDeletion deletionId leaseToken fencingToken false error) { db with
        storage.deletions := updateWhere (holdsLease db.now deletionId leaseToken fencingToken)
          (releasedDeletion db.now error) db.storage.deletions }

variable {db : Db} {call : Call}

/-- A call that leaves storage, documents and the clock alone. -/
theorem StorageStep.unchanged {db' : Db} (hstorage : db'.storage = db.storage)
    (hcontent : db'.content = db.content) (hnodes : db'.library.nodes = db.library.nodes)
    (hnow : db'.now = db.now) : StorageStep db call db' := by
  refine .other hstorage hcontent ?_ (Nat.le_of_eq hnow.symm)
  rw [hnodes]
  exact KeepsPlaces.refl _

/-- The commit of a transaction takes a step if every way it returns does. -/
theorem storageStep_commit {ρ : Type} {res : Except SqlError (Db × ρ)}
    (h : ∀ db' r, res = .ok (db', r) → StorageStep db call db') :
    StorageStep db call (commit db res) :=
  commit_inv (StorageStep db call) (.unchanged rfl rfl rfl rfl) h

/-- The effects of the other calls leave the storage tables alone. -/
theorem effect_storage {db' : Db} (h : Effect db call db') (htree : TreeInv db.library.nodes)
    (hother : storesObjects call = false) : StorageStep db call db' := by
  cases h with
  | tick => exact .other rfl rfl (KeepsPlaces.refl _) (Nat.le_add_right _ _)
  | createFolder inserted =>
    obtain ⟨rfl, _⟩ := insertNode_ok inserted
    exact .other rfl rfl (fun n hn d hd => ⟨n, List.mem_append_left _ hn, hd⟩) (Nat.le_refl _)
  | rename => exact .other rfl rfl (keepsPlaces_updateWhere fun _ => rfl) (Nat.le_refl _)
  | @deleteFolder _ node mem folder _ =>
    refine .other rfl rfl (fun n hn d hd => ⟨n, mem_deleteWhere.mpr ⟨hn, ?_⟩, hd⟩) (Nat.le_refl _)
    -- the removed row is a folder, and a folder carries no document
    have hne : n.id ≠ node.id := by
      intro he
      rw [htree.keyed.eq hn mem he, (htree.folder node mem folder).1] at hd
      exact absurd hd (by simp)
    simpa using hne
  | applyAcl performed =>
    obtain ⟨_, _, _, _, _, hplaces, rfl⟩ := applyOperation_ok (fun _ => False) performed
    exact .other rfl rfl hplaces (Nat.le_refl _)
  | stored stores => exact absurd (stores.symm.trans hother) (by decide)
  | upload => cases hother
  | deleteDocument => cases hother
  | same | sessions | activate | reset | setUser | previewAcl | createChildren =>
    exact .unchanged rfl rfl rfl rfl

/-- Every call of the system takes one step on the storage tables. -/
theorem step_storage (htree : TreeInv db.library.nodes) (call : Call) :
    StorageStep db call (step db call) := by
  cases hother : storesObjects call with
  | false => exact effect_storage (step_effect db call) htree hother
  | true =>
  cases call with
  | uploadPreflight =>
    refine storageStep_commit fun db' r h => ?_
    rcases v4AdminUploadPreflight_ok h with rfl | ⟨actor, hfresh, rfl⟩
    · exact .expire _
    · exact .reserve actor hfresh
  | commitUpload =>
    refine storageStep_commit fun db' r h => ?_
    rcases v4AdminCommitUpload_ok h with
      rfl | ⟨_, _, hunder, ⟨_, rfl⟩ | ⟨_, _, hnew, hdoc, hins, _, rfl⟩⟩
    · exact .unchanged rfl rfl rfl rfl
    · exact .duplicate hunder
    · exact .create hunder hnew hdoc hins
  | deleteDocument =>
    refine storageStep_commit fun db' r h => ?_
    obtain ⟨document, hmem, node, hnode, rfl, hat, hid, hfree, _, rfl⟩ := v4AdminDeleteDocument_ok h
    exact .delete hmem hnode hat hid hfree
  | queueOrphans =>
    refine storageStep_commit fun db' r h => ?_
    obtain ⟨hlower, _, hids, _, rfl⟩ := v4QueueExpiredUploadOrphans_ok h
    exact .sweep hlower hids
  | claimDeletion =>
    refine storageStep_commit fun db' r h => ?_
    rcases v4ClaimObjectDeletion_ok h with ⟨rfl, _⟩ | ⟨o, hmem, hclaim, _, _, rfl⟩
    · exact .unchanged rfl rfl rfl rfl
    · exact .claim _ _ _ hmem hclaim
  | heartbeatDeletion =>
    refine storageStep_commit fun db' r h => ?_
    rcases v4HeartbeatObjectDeletion_ok h with rfl | rfl
    · exact .unchanged rfl rfl rfl rfl
    · exact .heartbeat _ _ _ _
  | finishDeletion =>
    refine storageStep_commit fun db' r h => ?_
    rcases v4FinishObjectDeletion_ok h with rfl | ⟨rfl, rfl⟩ | ⟨rfl, rfl⟩
    · exact .unchanged rfl rfl rfl rfl
    · exact .finish _ _ _
    · exact .release _ _ _ _
  | _ => cases hother

end LocalRag.Storage
