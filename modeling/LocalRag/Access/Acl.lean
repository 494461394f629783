import LocalRag.Access.Accounts
import Mathlib.Data.List.Sort

/-!
# ACL operations — impact, preview, apply

`v4_acl_impact`, `v4_admin_preview_acl` and `v4_admin_apply_acl`
(`0001_v4_baseline`) with the wrappers `0004` puts around the first and the
last for `set_create_children_grant`.

The impact runs the access queries twice, on the tables as they are and on the
tables the operation would leave (`libraryAfter`, `accountsAfter`), and lists
the users, nodes and documents of the symmetric difference. The preview stores
the impact's digest and the authorization version; apply recomputes both and
refuses a stale preview, performs the operation, and rebuilds the effective
access — except for `set_create_children_grant`, which bumps the version and
does not rebuild.

Mirroring notes. The `operation` is a JSON document in SQL, validated field by
field; `AclOperation` has one constructor per kind with the fields already
typed, so only the checks a typed value can still fail remain. Row ids of the
simulated `*_after` rows are never read.
-/

namespace LocalRag.Access

open LocalRag.Core

/-! ## The tables an operation would leave -/

/-- `user_id IS NOT DISTINCT FROM … AND team_id IS NOT DISTINCT FROM …`. -/
def samePrincipal (user team user' team' : Option Nat) : Bool := user = user' ∧ team = team'

/-- `nodes_after`. -/
def nodesAfter (op : AclOperation) (nodes : List LibraryNode) : List LibraryNode :=
  match op with
  | .moveNode nodeId parentId =>
    updateWhere (fun n => n.id = nodeId) (fun n => { n with parentId := parentId }) nodes
  | .setBoundary nodeId enabled =>
    updateWhere (fun n => n.id = nodeId) (fun n => { n with accessBoundary := enabled }) nodes
  | _ => nodes

/-- `grants_after` / `read_grants_after`. -/
def grantsAfter (op : AclOperation) (grants : List AccessGrant) : List AccessGrant :=
  match op with
  | .setGrant nodeId userId teamId present =>
    deleteWhere (fun g => g.nodeId = nodeId ∧ samePrincipal g.userId g.teamId userId teamId)
      grants ++
      if present then [{ id := 0, nodeId := nodeId, userId := userId, teamId := teamId }] else []
  | _ => grants

/-- `create_grants_after`. -/
def createGrantsAfter (op : AclOperation) (grants : List FolderCreateGrant) :
    List FolderCreateGrant :=
  match op with
  | .setCreateChildrenGrant folderId userId teamId present =>
    deleteWhere (fun g => g.folderId = folderId ∧ samePrincipal g.userId g.teamId userId teamId)
      grants ++
      if present then [{ id := 0, folderId := folderId, userId := userId, teamId := teamId }]
      else []
  | _ => grants

/-- `memberships_after`. -/
def membershipsAfter (op : AclOperation) (members : List TeamMember) : List TeamMember :=
  match op with
  | .setMembership teamId userId present =>
    deleteWhere (fun m => m.teamId = teamId ∧ m.userId = userId) members ++
      if present then [{ teamId := teamId, userId := userId }] else []
  | _ => members

/-- `teams_after`. -/
def teamsAfter (op : AclOperation) (teams : List Team) : List Team :=
  match op with
  | .setTeamActive teamId active =>
    updateWhere (fun t => t.id = teamId) (fun t => { t with isActive := active }) teams
  | _ => teams

def libraryAfter (op : AclOperation) (lib : Library) : Library :=
  { lib with
    nodes := nodesAfter op lib.nodes
    accessGrants := grantsAfter op lib.accessGrants
    folderCreateGrants := createGrantsAfter op lib.folderCreateGrants }

def accountsAfter (op : AclOperation) (acc : Accounts) : Accounts :=
  { acc with
    teamMembers := membershipsAfter op acc.teamMembers
    teams := teamsAfter op acc.teams }

/-! ## Impact -/

/-- The (user, folder) pairs that can both read and create: `effective_before`. -/
def createPairs (lib : Library) (acc : Accounts) : List (UserId × NodeId) :=
  (lib.nodes.flatMap fun n =>
    if n.kind = .folder then
      ((pathPrincipals lib acc n.id).filter fun u =>
        u ∈ createPrincipals lib acc n.id ∧ isActiveMember acc.users u).map fun u => (u, n.id)
    else []).dedup

/-- `(a EXCEPT b) UNION (b EXCEPT a)`. -/
def symmetricDifference {α : Type} [DecidableEq α] (a b : List α) : List α :=
  (a.filter fun x => x ∉ b) ++ (b.filter fun x => x ∉ a)

/-- `jsonb_agg(id ORDER BY id)` over distinct ids. -/
def sortedIds (ids : List Nat) : List Nat := ids.dedup.insertionSort (· ≤ ·)

/-- `v4_acl_impact` (`0004` around `0001`). -/
def v4AclImpact (db : Db) (op : AclOperation) : Except SqlError AclImpact :=
  let after := libraryAfter op db.library
  let accAfter := accountsAfter op db.accounts
  let changedAccess := symmetricDifference (effectivePairs db.library db.accounts)
    (effectivePairs after accAfter)
  let changedCreate := symmetricDifference (createPairs db.library db.accounts)
    (createPairs after accAfter)
  let build (access : List (UserId × DocumentId)) : AclImpact :=
    let users := sortedIds (access.map (·.1) ++ changedCreate.map (·.1))
    let documents := sortedIds (access.map (·.2))
    let nodes := sortedIds ((db.library.nodes.filter fun n =>
        n.documentId.any fun d => d ∈ documents).map (·.id) ++ changedCreate.map (·.2))
    { operation := op, userIds := users, nodeIds := nodes, documentIds := documents,
      userCount := users.length, nodeCount := nodes.length, documentCount := documents.length }
  match op with
  | .setCreateChildrenGrant folderId userId teamId _ =>
    if userId.isSome = teamId.isSome ∨ ¬ isFolder db.library.nodes folderId then
      .error ⟨"22023", "invalid create-children grant operation"⟩
    else .ok (build [])
  | .moveNode nodeId parentId =>
    if (subtree db.library.nodes nodeId).any fun below => parentId = some below.1 then
      .error ⟨"22023", "move target creates a cycle"⟩
    else .ok (build changedAccess)
  | _ => .ok (build changedAccess)

/-! ## Preview -/

/-- What a caller who is no administrator may preview or apply: moving a file
of their own into a folder they can read. -/
def memberMayApply (db : Db) (actor : UserId) (op : AclOperation) : Bool :=
  match op with
  | .moveNode nodeId (some parentId) =>
    (db.library.nodes.any fun n =>
      n.id = nodeId ∧ n.kind = .file ∧ n.uploaderUserId = some actor) &&
    (isFolder db.library.nodes parentId && canReadFolder db (some actor) parentId)
  | _ => false

/-- `v4_admin_preview_acl`. The impact is computed before the caller is checked. -/
def v4AdminPreviewAcl (db : Db) (token : Option HexText) (previewId : PreviewId)
    (op : AclOperation) : Except SqlError (Db × (PreviewId × AclImpact)) :=
  match v4AclImpact db op with
  | .error e => .error e
  | .ok impact =>
    match requireActor db token with
    | .error e => .error e
    | .ok actor =>
      if ¬ actorIsAdmin db (some actor) ∧ ¬ memberMayApply db actor op then
        .error ⟨"42501", "capability denied"⟩
      else if db.library.aclPreviews.any fun p => p.id = previewId then
        .error (uniqueViolation "acl_previews_pkey")
      else
        .ok ({ db with
          library.aclPreviews := db.library.aclPreviews ++ [{
            id := previewId
            actorUserId := actor
            operation := op
            impactDigest := impact
            authorizationVersion := db.accounts.epochs.authorizationVersion
            expiresAt := db.now + 5 * minute
            consumedAt := none }] }, (previewId, impact))

/-! ## Apply -/

/-- `set_grant`: insert the grant unless it is there, or delete it. -/
def applySetGrant (db : Db) (grantId : GrantId) (nodeId : NodeId) (userId : Option UserId)
    (teamId : Option TeamId) (present : Bool) : Except SqlError Db :=
  if present then
    if userId.isSome = teamId.isSome then .error (checkViolation "ck_access_grants_one_principal")
    else if db.library.accessGrants.any fun g => g.id = grantId ∨
        (g.nodeId = nodeId ∧ samePrincipal g.userId g.teamId userId teamId) then
      .ok db
    else if (nodeById db.library.nodes nodeId).isNone then
      .error (foreignKeyViolation "access_grants_node_id_fkey")
    else if userId.any fun u => (userById db.accounts.users u).isNone then
      .error (foreignKeyViolation "access_grants_user_id_fkey")
    else if teamId.any fun t => ¬ db.accounts.teams.any fun team => team.id = t then
      .error (foreignKeyViolation "access_grants_team_id_fkey")
    else
      .ok { db with
        library.accessGrants := db.library.accessGrants ++
          [{ id := grantId, nodeId := nodeId, userId := userId, teamId := teamId }] }
  else
    .ok { db with
      library.accessGrants := deleteWhere
        (fun g => g.nodeId = nodeId ∧ samePrincipal g.userId g.teamId userId teamId)
        db.library.accessGrants }

/-- `set_membership`. -/
def applySetMembership (db : Db) (teamId : TeamId) (userId : UserId) (present : Bool) :
    Except SqlError Db :=
  if present then
    if db.accounts.teamMembers.any fun m => m.teamId = teamId ∧ m.userId = userId then .ok db
    else if ¬ db.accounts.teams.any fun team => team.id = teamId then
      .error (foreignKeyViolation "team_members_team_id_fkey")
    else if (userById db.accounts.users userId).isNone then
      .error (foreignKeyViolation "team_members_user_id_fkey")
    else
      .ok { db with
        accounts.teamMembers := db.accounts.teamMembers ++
          [{ teamId := teamId, userId := userId }] }
  else
    .ok { db with
      accounts.teamMembers := deleteWhere (fun m => m.teamId = teamId ∧ m.userId = userId)
        db.accounts.teamMembers }

/-- `set_boundary`; only a folder can carry one. -/
def applySetBoundary (db : Db) (nodeId : NodeId) (enabled : Bool) : Except SqlError Db :=
  if isFolder db.library.nodes nodeId then
    .ok { db with
      library.nodes := updateWhere (fun n => n.id = nodeId ∧ n.kind = .folder)
        (fun n => { n with accessBoundary := enabled }) db.library.nodes }
  else .error ⟨"22023", "boundary node is not a folder"⟩

/-- `SELECT COALESCE(max(depth), 0) FROM ancestors`, the depth of the move target. -/
def targetDepth (nodes : List LibraryNode) (target : Option NodeId) : Nat :=
  match target.bind (nodeById nodes) with
  | none => 0
  | some n => (ancestry nodes n.id).length

/-- `SELECT COALESCE(max(depth), 0) FROM subtree`. -/
def subtreeDepth (nodes : List LibraryNode) (i : NodeId) : Nat :=
  ((subtree nodes i).map (·.2)).foldl max 0

/-- `move_node`: target, cycle, depth and sibling checks, then the new parent. -/
def applyMoveNode (db : Db) (nodeId : NodeId) (target : Option NodeId) : Except SqlError Db :=
  match nodeById db.library.nodes nodeId with
  | none => .error ⟨"22023", "move node does not exist"⟩
  | some node =>
    if target = some node.id then .error ⟨"22023", "move target cannot be the moved node"⟩
    else if target.any fun t => ¬ isFolder db.library.nodes t then
      .error ⟨"22023", "move target is not a folder"⟩
    else if (subtree db.library.nodes node.id).any fun below => target = some below.1 then
      .error ⟨"22023", "move target creates a cycle"⟩
    else if 256 < targetDepth db.library.nodes target + 1 +
        subtreeDepth db.library.nodes node.id then
      .error ⟨"22023", "move exceeds maximum library depth"⟩
    else if db.library.nodes.any fun sibling => sibling.parentId = target ∧
        sibling.nameKey = node.nameKey ∧ sibling.id ≠ node.id then
      .error ⟨"23505", "move target has a sibling name conflict"⟩
    else
      .ok { db with
        library.nodes := updateWhere (fun n => n.id = node.id)
          (fun n => { n with parentId := target }) db.library.nodes }

/-- `set_team_active`. -/
def applySetTeamActive (db : Db) (teamId : TeamId) (active : Bool) : Except SqlError Db :=
  .ok { db with
    accounts.teams := updateWhere (fun t => t.id = teamId) (fun t => { t with isActive := active })
      db.accounts.teams }

/-- `set_create_children_grant`: insert unless there, or delete. -/
def applySetCreateChildrenGrant (db : Db) (grantId : GrantId) (folderId : NodeId)
    (userId : Option UserId) (teamId : Option TeamId) (present : Bool) : Except SqlError Db :=
  if present then
    if ¬ isFolder db.library.nodes folderId then
      .error (checkViolation "create-children grant target is not a folder")
    else if userId.isSome = teamId.isSome then
      .error (checkViolation "ck_folder_create_grants_one_principal")
    else if db.library.folderCreateGrants.any fun g => g.id = grantId ∨
        (g.folderId = folderId ∧ samePrincipal g.userId g.teamId userId teamId) then
      .ok db
    else if userId.any fun u => (userById db.accounts.users u).isNone then
      .error (foreignKeyViolation "folder_create_grants_user_id_fkey")
    else if teamId.any fun t => ¬ db.accounts.teams.any fun team => team.id = t then
      .error (foreignKeyViolation "folder_create_grants_team_id_fkey")
    else
      .ok { db with
        library.folderCreateGrants := db.library.folderCreateGrants ++
          [{ id := grantId, folderId := folderId, userId := userId, teamId := teamId }] }
  else
    .ok { db with
      library.folderCreateGrants := deleteWhere
        (fun g => g.folderId = folderId ∧ samePrincipal g.userId g.teamId userId teamId)
        db.library.folderCreateGrants }

/-- `UPDATE acl_previews SET consumed_at`. -/
def consumePreview (db : Db) (previewId : PreviewId) : Db :=
  { db with
    library.aclPreviews := updateWhere (fun p => p.id = previewId)
      (fun p => { p with consumedAt := some db.now }) db.library.aclPreviews }

/-- The preview no longer describes the database: another caller, digest or
version, expired, consumed, or the recomputed impact differs. -/
def previewIsStale (db : Db) (actor : UserId) (preview : AclPreview) (impactDigest : AclImpact) :
    Except SqlError Bool :=
  match v4AclImpact db preview.operation with
  | .error e => .error e
  | .ok impact =>
    .ok (preview.actorUserId ≠ actor ∨ preview.impactDigest ≠ impactDigest ∨
      preview.authorizationVersion ≠ db.accounts.epochs.authorizationVersion ∨
      preview.expiresAt ≤ db.now ∨ preview.consumedAt ≠ none ∨ impact ≠ impactDigest)

/-- The operations of `v4_admin_apply_acl_without_create_children`. -/
def applyOperation (db : Db) (grantId : GrantId) : AclOperation → Except SqlError Db
  | .setGrant nodeId userId teamId present =>
    applySetGrant db grantId nodeId userId teamId present
  | .setMembership teamId userId present => applySetMembership db teamId userId present
  | .setBoundary nodeId enabled => applySetBoundary db nodeId enabled
  | .moveNode nodeId parentId => applyMoveNode db nodeId parentId
  | .setTeamActive teamId active => applySetTeamActive db teamId active
  | .setCreateChildrenGrant .. => .error ⟨"22023", "unsupported ACL operation"⟩

/-- `v4_admin_apply_acl_without_create_children`, with the preview row it reads. -/
def applyWithoutCreateChildren (db : Db) (actor : UserId) (grantId : GrantId)
    (preview : AclPreview) (impactDigest : AclImpact) : Except SqlError (Db × Nat) :=
  match previewIsStale db actor preview impactDigest with
  | .error e => .error e
  | .ok true => .error ⟨"40001", "stale or invalid ACL preview"⟩
  | .ok false =>
    if ¬ actorIsAdmin db (some actor) ∧ ¬ memberMayApply db actor preview.operation then
      .error ⟨"42501", "capability denied"⟩
    else
      match applyOperation db grantId preview.operation with
      | .error e => .error e
      | .ok applied =>
        let rebuilt := v4RebuildEffectiveDocumentAccess (consumePreview applied preview.id)
        .ok (rebuilt, rebuilt.accounts.epochs.authorizationVersion)

/-- The `set_create_children_grant` arm of `0004`: the version moves on, and no
row of the effective access table moves with it. -/
def applyCreateChildren (db : Db) (actor : UserId) (grantId : GrantId) (preview : AclPreview)
    (impactDigest : AclImpact) (folderId : NodeId) (userId : Option UserId)
    (teamId : Option TeamId) (present : Bool) : Except SqlError (Db × Nat) :=
  match previewIsStale db actor preview impactDigest with
  | .error e => .error e
  | .ok true => .error ⟨"40001", "stale or invalid ACL preview"⟩
  | .ok false =>
    match applySetCreateChildrenGrant db grantId folderId userId teamId present with
    | .error e => .error e
    | .ok applied =>
      let version := applied.accounts.epochs.authorizationVersion + 1
      .ok (consumePreview { applied with accounts.epochs.authorizationVersion := version }
        preview.id, version)

/-- `v4_admin_apply_acl` (`0004`): administrators only, dispatching on the kind. -/
def v4AdminApplyAcl (db : Db) (token : Option HexText) (grantId : GrantId)
    (previewId : PreviewId) (impactDigest : AclImpact) : Except SqlError (Db × Nat) :=
  match requireActor db token with
  | .error e => .error e
  | .ok _ =>
    match v4RequireAdmin db token with
    | .error e => .error e
    | .ok actor =>
      match db.library.aclPreviews.find? fun p => p.id = previewId with
      | none => .error noDataFound
      | some preview =>
        match preview.operation with
        | .setCreateChildrenGrant folderId userId teamId present =>
          applyCreateChildren db actor grantId preview impactDigest folderId userId teamId present
        | _ => applyWithoutCreateChildren db actor grantId preview impactDigest

/-! ## What each call can do -/

variable {db db' : Db}

theorem v4AdminPreviewAcl_ok {token : Option HexText} {previewId : PreviewId} {op : AclOperation}
    {r : PreviewId × AclImpact} (h : v4AdminPreviewAcl db token previewId op = .ok (db', r)) :
    ∃ new, db' = { db with library.aclPreviews := db.library.aclPreviews ++ [new] } := by
  unfold v4AdminPreviewAcl at h
  split at h
  · cases h
  split at h
  · cases h
  · simp only [ite_error_eq_ok] at h
    obtain ⟨_, _, h⟩ := h
    exact ⟨_, (left_of_ok h).symm⟩

variable {grantId : GrantId} {present : Bool}

/-- A grant operation writes the grants. -/
theorem applySetGrant_ok {nodeId : NodeId} {userId : Option UserId} {teamId : Option TeamId}
    (h : applySetGrant db grantId nodeId userId teamId present = .ok db') :
    ∃ grants, db' = { db with library.accessGrants := grants } := by
  unfold applySetGrant at h
  split at h
  · rw [ite_error_eq_ok] at h
    obtain ⟨_, h⟩ := h
    split at h
    · exact ⟨db.library.accessGrants, (Except.ok.inj h).symm⟩
    · simp only [ite_error_eq_ok] at h
      obtain ⟨_, _, _, h⟩ := h
      exact ⟨_, (Except.ok.inj h).symm⟩
  · exact ⟨_, (Except.ok.inj h).symm⟩

/-- A membership operation writes the memberships. -/
theorem applySetMembership_ok {teamId : TeamId} {userId : UserId}
    (h : applySetMembership db teamId userId present = .ok db') :
    ∃ members, db' = { db with accounts.teamMembers := members } := by
  unfold applySetMembership at h
  split at h
  · split at h
    · exact ⟨db.accounts.teamMembers, (Except.ok.inj h).symm⟩
    · simp only [ite_error_eq_ok] at h
      obtain ⟨_, _, h⟩ := h
      exact ⟨_, (Except.ok.inj h).symm⟩
  · exact ⟨_, (Except.ok.inj h).symm⟩

/-- A create-children operation writes the create-children grants. -/
theorem applySetCreateChildrenGrant_ok {folderId : NodeId} {userId : Option UserId}
    {teamId : Option TeamId}
    (h : applySetCreateChildrenGrant db grantId folderId userId teamId present = .ok db') :
    ∃ grants, db' = { db with library.folderCreateGrants := grants } := by
  unfold applySetCreateChildrenGrant at h
  split at h
  · simp only [ite_error_eq_ok] at h
    obtain ⟨_, _, h⟩ := h
    split at h
    · exact ⟨db.library.folderCreateGrants, (Except.ok.inj h).symm⟩
    · simp only [ite_error_eq_ok] at h
      obtain ⟨_, _, h⟩ := h
      exact ⟨_, (Except.ok.inj h).symm⟩
  · exact ⟨_, (Except.ok.inj h).symm⟩

/-- A move passed the target, cycle, depth and sibling checks. -/
theorem applyMoveNode_ok {nodeId : NodeId} {target : Option NodeId}
    (h : applyMoveNode db nodeId target = .ok db') :
    ∃ node, nodeById db.library.nodes nodeId = some node ∧
      (∀ t, target = some t → isFolder db.library.nodes t = true) ∧
      (subtree db.library.nodes node.id).any (fun below => target = some below.1) = false ∧
      targetDepth db.library.nodes target + 1 + subtreeDepth db.library.nodes node.id ≤ 256 ∧
      (∀ s ∈ db.library.nodes, s.parentId = target → s.nameKey = node.nameKey →
        s.id = node.id) ∧
      db' = { db with
        library.nodes := updateWhere (fun n => n.id = node.id)
          (fun n => { n with parentId := target }) db.library.nodes } := by
  unfold applyMoveNode at h
  split at h
  · cases h
  next node hnode =>
    simp only [ite_error_eq_ok] at h
    obtain ⟨_, hfolder, hcycle, hdepth, hsib, h⟩ := h
    refine ⟨node, hnode, ?_, by simpa using hcycle, by omega, ?_, (Except.ok.inj h).symm⟩
    · rintro t rfl
      simpa using hfolder
    · intro s hs hp hk
      by_contra hne
      refine hsib ?_
      rw [List.any_eq_true]
      exact ⟨s, hs, by simp [hp, hk, hne]⟩

/-- Apply found a stored preview that is not stale, and performed the arm of its kind. -/
theorem v4AdminApplyAcl_arms {token : Option HexText} {previewId : PreviewId}
    {impactDigest : AclImpact} {r : Nat}
    (h : v4AdminApplyAcl db token grantId previewId impactDigest = .ok (db', r)) :
    ∃ actor preview applied,
      (db.library.aclPreviews.find? fun p => p.id = previewId) = some preview ∧
      previewIsStale db actor preview impactDigest = .ok false ∧
      ((∃ folderId userId teamId present,
        preview.operation = .setCreateChildrenGrant folderId userId teamId present ∧
        applySetCreateChildrenGrant db grantId folderId userId teamId present = .ok applied ∧
        db' = consumePreview { applied with
          accounts.epochs.authorizationVersion :=
            applied.accounts.epochs.authorizationVersion + 1 } preview.id) ∨
      (applyOperation db grantId preview.operation = .ok applied ∧
        db' = v4RebuildEffectiveDocumentAccess (consumePreview applied preview.id))) := by
  unfold v4AdminApplyAcl at h
  split at h
  · cases h
  split at h
  · cases h
  next actor _ =>
    split at h
    · cases h
    next preview hpreview =>
      split at h
      next folderId userId teamId present hop =>
        unfold applyCreateChildren at h
        split at h
        · cases h
        · cases h
        next hstale =>
          split at h
          · cases h
          next applied happ =>
            exact ⟨actor, preview, applied, hpreview, hstale,
              Or.inl ⟨folderId, userId, teamId, present, hop, happ,
                (left_of_ok h).symm⟩⟩
      next =>
        unfold applyWithoutCreateChildren at h
        split at h
        · cases h
        · cases h
        next hstale =>
          rw [ite_error_eq_ok] at h
          obtain ⟨_, h⟩ := h
          split at h
          · cases h
          next applied happ =>
            exact ⟨actor, preview, applied, hpreview, hstale,
              Or.inr ⟨happ, (left_of_ok h).symm⟩⟩

end LocalRag.Access
