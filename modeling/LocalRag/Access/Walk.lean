import LocalRag.Core.Run
import LocalRag.Core.Table
import LocalRag.Core.Forest
import LocalRag.Schema
import Mathlib.Data.List.Dedup

/-!
# Who may read what — the recursive queries over the library tree

`v4_rebuild_effective_document_access`, `v4_can_read_document`,
`v4_can_read_folder`, `v4_can_create_children` and `v4_can_view_library_node`
(`0001_v4_baseline`, the last two as replaced by `0004`), written over the
actor they see; `Access.Accounts` resolves the actor from the session.

All of them walk from a node towards the root and stop after the first node
with `access_boundary`. In SQL each walk is a `WITH RECURSIVE … UNION ALL`
whose recursive term joins the parent row `WHERE NOT boundary_seen`; here it is
`Core.climb` over `inheritsFrom`, with the size of the table as fuel. A table
without parent cycles ends every walk within that (`Core.Ranked.ends`).

Each function that reads tables takes the tables it reads, so that
`v4_acl_impact` can run the same queries on the tables an operation would
leave (`nodes_after`, `grants_after`, `memberships_after`, `teams_after`).
-/

namespace LocalRag.Access

open LocalRag.Core

/-! ## The tree -/

/-- The row with this primary key. -/
def nodeById (nodes : List LibraryNode) (i : NodeId) : Option LibraryNode :=
  nodes.find? fun n => n.id = i

/-- `JOIN library_nodes AS parent ON parent.id = child.parent_id`. -/
def parentOf (nodes : List LibraryNode) (i : NodeId) : Option NodeId :=
  (nodeById nodes i).bind fun n => n.parentId.bind fun p => (nodeById nodes p).map (·.id)

/-- The same join `WHERE NOT child.boundary_seen`. -/
def inheritsFrom (nodes : List LibraryNode) (i : NodeId) : Option NodeId :=
  (nodeById nodes i).bind fun n => if n.accessBoundary then none else parentOf nodes i

/-- `JOIN … ON child.parent_id = parent.id`. -/
def childrenOf (nodes : List LibraryNode) (i : NodeId) : List NodeId :=
  (nodes.filter fun n => n.parentId = some i).map (·.id)

/-- The node and the ancestors it inherits grants from. -/
def accessPath (nodes : List LibraryNode) (i : NodeId) : List NodeId :=
  climb (inheritsFrom nodes) nodes.length i

/-- The node and all its ancestors. -/
def ancestry (nodes : List LibraryNode) (i : NodeId) : List NodeId :=
  climb (parentOf nodes) nodes.length i

/-- The node and everything under it, with the depth below it. -/
def subtree (nodes : List LibraryNode) (i : NodeId) : List (NodeId × Nat) :=
  descend (childrenOf nodes) nodes.length 0 ((nodeById nodes i).map (·.id)).toList

/-- `'/' || string_agg(name, '/' ORDER BY depth DESC)`. -/
def logicalPath (nodes : List LibraryNode) (i : NodeId) : String :=
  "/" ++ "/".intercalate ((ancestry nodes i).filterMap fun j =>
    (nodeById nodes j).map (·.name)).reverse

/-! ## Principals -/

/-- `JOIN teams ON teams.id = … AND teams.is_active`. -/
def teamIsActive (teams : List Team) (t : TeamId) : Bool :=
  teams.any fun team => team.id = t ∧ team.isActive

/-- The users one grant row names, directly or through an active team. -/
def grantPrincipals (teams : List Team) (members : List TeamMember) (userId : Option UserId)
    (teamId : Option TeamId) : List UserId :=
  userId.toList ++
    (members.filter fun m => teamId = some m.teamId ∧ teamIsActive teams m.teamId).map (·.userId)

/-- The users granted on some node of the walk from `i`. -/
def pathPrincipals (lib : Library) (acc : Accounts) (i : NodeId) : List UserId :=
  (accessPath lib.nodes i).flatMap fun a =>
    (lib.accessGrants.filter fun g => g.nodeId = a).flatMap fun g =>
      grantPrincipals acc.teams acc.teamMembers g.userId g.teamId

/-- The `principals` of the rebuild: uploader, direct grants, team grants. -/
def principals (lib : Library) (acc : Accounts) : List (UserId × DocumentId) :=
  lib.nodes.flatMap fun n =>
    if n.kind = .file then
      n.documentId.toList.flatMap fun d =>
        (n.uploaderUserId.toList ++ pathPrincipals lib acc n.id).map fun u => (u, d)
    else []

/-- `account.status = 'active' AND account.deleted_at IS NULL AND account.role = 'member'`. -/
def isActiveMember (users : List User) (u : UserId) : Bool :=
  users.any fun a => a.id = u ∧ a.status = .active ∧ a.deletedAt = none ∧ a.role = .member

/-- The rows the rebuild computes, without their version. -/
def effectivePairs (lib : Library) (acc : Accounts) : List (UserId × DocumentId) :=
  ((principals lib acc).filter fun p => isActiveMember acc.users p.1).dedup

/-- `v4_rebuild_effective_document_access`. -/
def v4RebuildEffectiveDocumentAccess (db : Db) : Db :=
  let version := db.accounts.epochs.authorizationVersion + 1
  { db with
    library.effectiveAccess := (effectivePairs db.library db.accounts).map fun p =>
      { userId := p.1, documentId := p.2, authorizationVersion := version }
    accounts.epochs.authorizationVersion := version }

/-! ## Decisions -/

/-- `v4_current_actor_is_admin`, for the actor `v4_current_actor_id` returned. -/
def actorIsAdmin (db : Db) (actor : Option UserId) : Bool :=
  db.accounts.users.any fun a =>
    actor = some a.id ∧ a.role = .admin ∧ a.status = .active ∧ a.deletedAt = none

/-- A current `effective_document_access` row. -/
def hasCurrentAccess (db : Db) (u : UserId) (d : DocumentId) : Bool :=
  db.library.effectiveAccess.any fun row =>
    row.userId = u ∧ row.documentId = d ∧
      row.authorizationVersion = db.accounts.epochs.authorizationVersion

/-- `node.document_id = p_document_id AND node.uploader_user_id = actor`. -/
def isUploader (db : Db) (u : UserId) (d : DocumentId) : Bool :=
  db.library.nodes.any fun n => n.documentId = some d ∧ n.uploaderUserId = some u

/-- `v4_can_read_document`, for the actor. -/
def canReadDocument (db : Db) (actor : Option UserId) (d : DocumentId) : Bool :=
  actorIsAdmin db actor || actor.any (fun u => isUploader db u d) ||
    actor.any (fun u => hasCurrentAccess db u d)

/-- The row exists and is a folder. -/
def isFolder (nodes : List LibraryNode) (i : NodeId) : Bool :=
  nodes.any fun n => n.id = i ∧ n.kind = .folder

/-- `v4_can_read_folder`, for the actor. -/
def canReadFolder (db : Db) (actor : Option UserId) (i : NodeId) : Bool :=
  actorIsAdmin db actor ||
    (isFolder db.library.nodes i &&
      actor.any fun u => u ∈ pathPrincipals db.library db.accounts i)

/-- The users with a create-children grant on the walk from `i`. -/
def createPrincipals (lib : Library) (acc : Accounts) (i : NodeId) : List UserId :=
  (accessPath lib.nodes i).flatMap fun a =>
    (lib.folderCreateGrants.filter fun g => g.folderId = a).flatMap fun g =>
      grantPrincipals acc.teams acc.teamMembers g.userId g.teamId

/-- `v4_can_create_children`, for the actor. -/
def canCreateChildren (db : Db) (actor : Option UserId) (i : NodeId) : Bool :=
  isFolder db.library.nodes i &&
    (actorIsAdmin db actor ||
      (canReadFolder db actor i &&
        actor.any fun u => u ∈ createPrincipals db.library db.accounts i))

/-- `v4_can_view_library_node` (`0004`), for the actor. -/
def canViewLibraryNode (db : Db) (actor : Option UserId) (i : NodeId) : Bool :=
  actorIsAdmin db actor ||
    (isFolder db.library.nodes i && canReadFolder db actor i) ||
    (subtree db.library.nodes i).any fun below => actor.any fun u =>
      ((nodeById db.library.nodes below.1).bind (·.documentId)).any
        (fun d => hasCurrentAccess db u d) ||
      db.library.accessGrants.any fun g => g.nodeId = below.1 ∧
        u ∈ grantPrincipals db.accounts.teams db.accounts.teamMembers g.userId g.teamId

end LocalRag.Access
