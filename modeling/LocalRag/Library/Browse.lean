import LocalRag.Access.Fresh
import LocalRag.Library.Bounds
import LocalRag.Storage.Keys

/-!
# Browsing — what a reader is shown

`_VISIBLE_PATHS_CTE` and `locations_for_documents_in_session` of
`app/services/library.py`. The recursive query starts at the visible roots and
descends through visible children, and stops at a path of 256 nodes; a document
whose node it does not reach is reported as `LibraryCorruption`.

The query lists every node the reader may view because viewing is inherited
upwards (`canView_parent`: whatever lets a reader view a node lets them view its
parent) and, while the library keeps its depth, the cap is never met
(`mem_visiblePaths`). A document is located if its node is viewable, and here
the two queries ask different things: `v4_can_read_document` lets an uploader
read, `v4_can_view_library_node` asks for a current row or a grant.
`UploadsVisible` is what makes the first imply the second.
-/

namespace LocalRag.Library

open LocalRag.Core Access Storage

/-! ## The queries -/

/-- A row of `visible_paths`. -/
structure VisiblePath where
  id : NodeId
  parentId : Option NodeId
  kind : NodeKind
  name : String
  nameKey : String
  documentId : Option DocumentId
  uploaderUserId : Option UserId
  canCreateChildren : Bool
  logicalPath : String
  pathIds : List NodeId
  pathNames : List String
deriving Repr, DecidableEq

/-- The row of a node, at the path it was found under. -/
def visibleRow (db : Db) (actor : UserId) (logicalPath : String) (pathIds : List NodeId)
    (pathNames : List String) (n : LibraryNode) : VisiblePath :=
  { id := n.id
    parentId := n.parentId
    kind := n.kind
    name := n.name
    nameKey := n.nameKey
    documentId := n.documentId
    uploaderUserId := n.uploaderUserId
    canCreateChildren := canCreateChildren db (some actor) n.id
    logicalPath := logicalPath
    pathIds := pathIds
    pathNames := pathNames }

/-- The non-recursive term: the visible roots. -/
def visibleRoots (db : Db) (actor : UserId) : List VisiblePath :=
  (db.library.nodes.filter fun n => n.parentId = none ∧
    canViewLibraryNode db (some actor) n.id).map fun n =>
      visibleRow db actor ("/" ++ n.name) [n.id] [n.name] n

/-- The recursive term: the visible children of a listed node. -/
def visibleChildren (db : Db) (actor : UserId) (parent : VisiblePath) : List VisiblePath :=
  (db.library.nodes.filter fun n => n.parentId = some parent.id ∧ n.id ∉ parent.pathIds ∧
    parent.pathIds.length < 256 ∧ canViewLibraryNode db (some actor) n.id).map fun n =>
      visibleRow db actor (parent.logicalPath ++ "/" ++ n.name) (parent.pathIds ++ [n.id])
        (parent.pathNames ++ [n.name]) n

/-- `visible_paths`, for the session and the `:actor_id` parameter. The paths of
one level are one longer than those of the level before, so 256 levels are all
there are. -/
def visiblePaths (db : Db) (token : Option HexText) (actorId : UserId) : List VisiblePath :=
  if v4CurrentActorId db token = some actorId then
    (descend (visibleChildren db actorId) 256 0 (visibleRoots db actorId)).map (·.1)
  else []

structure LibraryLocation where
  nodeId : NodeId
  parentId : Option NodeId
  displayName : String
  logicalPath : String
  uploaderUserId : Option UserId
deriving Repr, DecidableEq

/-- `LibraryCorruption("documents have no canonical library node: …")`. -/
structure LibraryCorruption where
  missing : List DocumentId
deriving Repr, DecidableEq

/-- The rows of `_LIBRARY_LOCATIONS_SQL`, as the entries of the dictionary. -/
def locationRows (db : Db) (token : Option HexText) (actorId : UserId)
    (documentIds : List DocumentId) : List (DocumentId × LibraryLocation) :=
  (visiblePaths db token actorId).filterMap fun row =>
    row.documentId.bind fun d =>
      if d ∈ documentIds ∧ v4CanReadDocument db token d then
        some (d, ⟨row.id, row.parentId, row.name, row.logicalPath, row.uploaderUserId⟩)
      else none

/-- `locations_for_documents_in_session`. -/
def locationsForDocuments (db : Db) (token : Option HexText) (actorId : UserId)
    (documentIds : List DocumentId) :
    Except LibraryCorruption (List (DocumentId × LibraryLocation)) :=
  if documentIds = [] then .ok []
  else
    let locations := locationRows db token actorId documentIds
    let missing := documentIds.filter fun d => d ∉ locations.map (·.1)
    if missing ≠ [] then .error ⟨sortedIds missing⟩
    else .ok locations

/-! ## Viewing is inherited upwards -/

/-- A grant on the node itself names the user. -/
def isGrantedOn (db : Db) (u : UserId) (i : NodeId) : Bool :=
  db.library.accessGrants.any fun g => g.nodeId = i ∧
    u ∈ grantPrincipals db.accounts.teams db.accounts.teamMembers g.userId g.teamId

/-- A current row of the node's document, or a grant on the node: what
`v4_can_view_library_node` asks of each node below. -/
def isShown (db : Db) (u : UserId) (i : NodeId) : Bool :=
  ((nodeById db.library.nodes i).bind (·.documentId)).any (fun d => hasCurrentAccess db u d) ||
    isGrantedOn db u i

variable {db : Db} {n : LibraryNode}

variable {u : UserId}

theorem canView_iff (h : TreeInv db.library.nodes) (hn : n ∈ db.library.nodes) :
    canViewLibraryNode db (some u) n.id = true ↔ actorIsAdmin db (some u) = true ∨
      (isFolder db.library.nodes n.id = true ∧ Inherits db.library db.accounts u n.id) ∨
      ∃ j k, Below (parentOf db.library.nodes) k j n.id ∧ isShown db u j = true := by
  have hsub : (subtree db.library.nodes n.id).any (fun below => isShown db u below.1) = true ↔
      ∃ j k, Below (parentOf db.library.nodes) k j n.id ∧ isShown db u j = true := by
    rw [List.any_eq_true]
    constructor
    · intro hany
      obtain ⟨⟨j, k⟩, hmem, hshown⟩ := hany
      exact ⟨j, k, (mem_subtree h (List.mem_map_of_mem hn)).mp hmem, hshown⟩
    · intro hex
      obtain ⟨j, k, hb, hshown⟩ := hex
      exact ⟨(j, k), (mem_subtree h (List.mem_map_of_mem hn)).mpr hb, hshown⟩
  have hunfold : canViewLibraryNode db (some u) n.id =
      (actorIsAdmin db (some u) ||
        (isFolder db.library.nodes n.id && canReadFolder db (some u) n.id) ||
        (subtree db.library.nodes n.id).any fun below => isShown db u below.1) := rfl
  rw [hunfold, Bool.or_eq_true, Bool.or_eq_true, hsub, or_assoc]
  by_cases hadmin : actorIsAdmin db (some u) = true
  · simp [hadmin]
  · refine or_congr_right (or_congr_left ?_)
    rw [canReadFolder, Bool.eq_false_of_not_eq_true hadmin, Bool.false_or, Option.any_some,
      Bool.and_eq_true, Bool.and_eq_true, decide_eq_true_eq,
      mem_pathPrincipals h (List.mem_map_of_mem hn)]
    exact and_self_left

/-- Whatever shows a node shows its parent. -/
theorem canView_parent (h : TreeInv db.library.nodes) {m : LibraryNode}
    (hn : n ∈ db.library.nodes) (hm : m ∈ db.library.nodes) (hp : n.parentId = some m.id)
    (hview : canViewLibraryNode db (some u) n.id = true) :
    canViewLibraryNode db (some u) m.id = true := by
  have hlink : parentOf db.library.nodes n.id = some m.id := by rw [h.parentOf_eq hn, hp]
  rw [canView_iff h hm]
  rcases (canView_iff h hn).mp hview with hadmin | ⟨_, a, ha, g, hg, hga, hnames⟩ |
    ⟨j, k, hb, hshown⟩
  · exact Or.inl hadmin
  · rcases Relation.ReflTransGen.cases_head ha with rfl | ⟨c, hc, hr⟩
    · -- the grant is on the node itself, which lies below its parent
      refine Or.inr (Or.inr ⟨n.id, 1, ⟨n.id, rfl, hlink⟩, ?_⟩)
      rw [isShown, Bool.or_eq_true]
      refine Or.inr (List.any_eq_true.mpr ⟨g, hg, ?_⟩)
      exact decide_eq_true ⟨hga, mem_grantPrincipals.mpr hnames⟩
    · obtain rfl : c = m.id := by
        rw [TreeInv.inheritsFrom_parentOf hc] at hlink
        exact Option.some.inj hlink
      exact Or.inr (Or.inl ⟨h.parent n hn m.id hp, a, hr, g, hg, hga, hnames⟩)
  · exact Or.inr (Or.inr ⟨j, k + 1, ⟨n.id, hb, hlink⟩, hshown⟩)

/-! ## Every viewable node is listed -/

theorem ancestry_root {nodes : List LibraryNode} (h : TreeInv nodes) (hn : n ∈ nodes)
    (hp : n.parentId = none) : ancestry nodes n.id = [n.id] := by
  have hlink : parentOf nodes n.id = none := by rw [h.parentOf_eq hn, hp]
  rw [ancestry, climb_succ_none hlink]

theorem ancestry_nodup {nodes : List LibraryNode} (h : TreeInv nodes) (hn : n ∈ nodes) :
    (ancestry nodes n.id).Nodup := by
  obtain ⟨rank, hr⟩ := h.ranked_parentOf
  exact hr.climb_nodup (List.mem_map_of_mem hn)

/-- A viewable node is found at its depth, under the path of its ancestors. -/
theorem mem_descend_visible (h : TreeInv db.library.nodes) (hb : Bounded db.library.nodes) :
    ∀ n ∈ db.library.nodes, canViewLibraryNode db (some u) n.id = true →
      ∃ row, (row, nodeDepth db.library.nodes n.id - 1) ∈
          descend (visibleChildren db u) 256 0 (visibleRoots db u) ∧
        row.id = n.id ∧ row.documentId = n.documentId ∧
        row.pathIds = (ancestry db.library.nodes n.id).reverse := by
  refine h.induct _ fun n hn ih hview => ?_
  cases hp : n.parentId with
  | none =>
    refine ⟨visibleRow db u ("/" ++ n.name) [n.id] [n.name] n, ?_, rfl, rfl, ?_⟩
    · rw [nodeDepth_root h hn hp]
      refine mem_descend_frontier (List.mem_map_of_mem (List.mem_filter.mpr ⟨hn, ?_⟩))
      exact decide_eq_true ⟨hp, hview⟩
    · rw [ancestry_root h hn hp]
      rfl
  | some p =>
    obtain ⟨m, hm, rfl⟩ := h.parent_mem hn hp
    obtain ⟨row, hrow, hid, _, hpath⟩ := ih m hm hp (canView_parent h hn hm hp hview)
    have hdepth := nodeDepth_child h hn hp
    have hbound := hb.depth n hn
    have hpos : 0 < nodeDepth db.library.nodes m.id :=
      List.length_pos_of_mem (self_mem_climb _ _ _)
    have hlen : row.pathIds.length = nodeDepth db.library.nodes m.id := by
      rw [hpath, List.length_reverse, nodeDepth]
    have hanc := ancestry_child h hn hp
    have hnot : n.id ∉ row.pathIds := by
      have hnodup := ancestry_nodup h hn
      rw [hanc, List.nodup_cons] at hnodup
      rw [hpath, List.mem_reverse]
      exact hnodup.1
    refine ⟨visibleRow db u (row.logicalPath ++ "/" ++ n.name) (row.pathIds ++ [n.id])
      (row.pathNames ++ [n.name]) n, ?_, rfl, rfl, ?_⟩
    · have hchild : visibleRow db u (row.logicalPath ++ "/" ++ n.name) (row.pathIds ++ [n.id])
          (row.pathNames ++ [n.name]) n ∈ visibleChildren db u row := by
        refine List.mem_map.mpr ⟨n, List.mem_filter.mpr ⟨hn, ?_⟩, rfl⟩
        refine decide_eq_true ⟨by rw [hp, hid], hnot, ?_, hview⟩
        omega
      have hmem := mem_descend_child hchild hrow (by omega)
      rw [show nodeDepth db.library.nodes n.id - 1 =
        nodeDepth db.library.nodes m.id - 1 + 1 by omega]
      exact hmem
    · rw [hanc, List.reverse_cons, ← hpath]
      rfl

/-- `visible_paths` lists the nodes the reader may view, and no others. -/
theorem mem_visiblePaths (h : TreeInv db.library.nodes) (hb : Bounded db.library.nodes)
    {token : Option HexText} (hactor : v4CurrentActorId db token = some u)
    (hn : n ∈ db.library.nodes) :
    (∃ row ∈ visiblePaths db token u, row.id = n.id ∧ row.documentId = n.documentId) ↔
      canViewLibraryNode db (some u) n.id = true := by
  rw [visiblePaths, if_pos hactor]
  constructor
  · intro hex
    obtain ⟨row, hrow, hid, _⟩ := hex
    obtain ⟨⟨row', k⟩, hmem, rfl⟩ := List.mem_map.mp hrow
    have hview := descend_inv (fun row : VisiblePath =>
      canViewLibraryNode db (some u) row.id = true) ?_ ?_ hmem
    · rw [← hid]
      exact hview
    · intro a _ b hb
      obtain ⟨m, hm, rfl⟩ := List.mem_map.mp hb
      have hcond := (List.mem_filter.mp hm).2
      simp only [decide_eq_true_eq] at hcond
      exact hcond.2.2.2
    · intro a ha
      obtain ⟨m, hm, rfl⟩ := List.mem_map.mp ha
      have hcond := (List.mem_filter.mp hm).2
      simp only [decide_eq_true_eq] at hcond
      exact hcond.2
  · intro hview
    obtain ⟨row, hrow, hid, hdoc, _⟩ := mem_descend_visible h hb n hn hview
    exact ⟨row, List.mem_map_of_mem hrow, hid, hdoc⟩

/-! ## Uploaders are shown what they uploaded -/

/-- An active member is shown the files they uploaded. -/
def UploadsVisible (db : Db) : Prop :=
  ∀ n ∈ db.library.nodes, n.kind = .file → ∀ u, n.uploaderUserId = some u →
    isActiveMember db.accounts.users u = true → isShown db u n.id = true

theorem isShown_iff (h : TreeInv db.library.nodes) (hn : n ∈ db.library.nodes) :
    isShown db u n.id = true ↔
      (∃ d, n.documentId = some d ∧ hasCurrentAccess db u d = true) ∨
        isGrantedOn db u n.id = true := by
  rw [isShown, nodeById_of_mem h.keyed hn, Option.bind_some, Bool.or_eq_true, Option.any_eq_true]

/-- After a rebuild every active uploader has a current row. -/
theorem uploadsVisible_rebuild (h : TreeInv db.library.nodes) :
    UploadsVisible (v4RebuildEffectiveDocumentAccess db) := by
  intro n hn hk u hu hmember
  obtain ⟨d, hd⟩ := Option.isSome_iff_exists.mp (h.file n hn hk).1
  have h' : TreeInv (v4RebuildEffectiveDocumentAccess db).library.nodes := h
  refine (isShown_iff h' hn).mpr (Or.inl ⟨d, hd, ?_⟩)
  have hpair : (u, d) ∈ effectivePairs db.library db.accounts :=
    (mem_effectivePairs h).mpr ⟨hmember, n, hn, hk, hd, Or.inl hu⟩
  exact (fresh_rebuild db u d).mpr hpair

/-- Nothing was taken away that showed a file to its uploader. -/
theorem UploadsVisible.mono {db' : Db} (h : TreeInv db.library.nodes)
    (h' : TreeInv db'.library.nodes) (hv : UploadsVisible db)
    (hfile : ∀ n' ∈ db'.library.nodes, n'.kind = .file → ∃ n ∈ db.library.nodes, n.id = n'.id ∧
      n.kind = .file ∧ n.documentId = n'.documentId ∧ n.uploaderUserId = n'.uploaderUserId)
    (hmember : ∀ u, isActiveMember db'.accounts.users u = true →
      isActiveMember db.accounts.users u = true)
    (hrows : ∀ u d, hasCurrentAccess db u d = true → hasCurrentAccess db' u d = true)
    (hgrants : ∀ n' ∈ db'.library.nodes, n'.kind = .file → ∀ u,
      isGrantedOn db u n'.id = true → isGrantedOn db' u n'.id = true) : UploadsVisible db' := by
  intro n' hn' hk' u hu hm
  obtain ⟨n, hn, hid, hk, hdoc, hup⟩ := hfile n' hn' hk'
  rcases (isShown_iff h hn).mp (hv n hn hk u (hup.trans hu) (hmember u hm)) with
    ⟨d, hd, hrow⟩ | hgrant
  · exact (isShown_iff h' hn').mpr (Or.inl ⟨d, hdoc.symm.trans hd, hrows u d hrow⟩)
  · refine (isShown_iff h' hn').mpr (Or.inr (hgrants n' hn' hk' u ?_))
    rw [← hid]
    exact hgrant

/-- The condition on the two calls that can leave an uploader without a row: a
create-children grant, after which only grants count, and an activation. -/
def LocationsGuard (db : Db) : Call → Prop
  | .applyAcl _ _ previewId _ => isCreateChildrenPreview db previewId = true →
    ∀ n ∈ db.library.nodes, n.kind = .file → ∀ u ∈ n.uploaderUserId,
      isActiveMember db.accounts.users u = true → isGrantedOn db u n.id = true
  | .consumeActivation _ hash _ _ _ _ _ =>
    ∀ a ∈ db.accounts.users, activationUser db hash = some a.id → a.role = .member →
      ∀ n ∈ db.library.nodes, n.kind = .file → n.uploaderUserId = some a.id →
        isShown db a.id n.id = true
  | _ => True

instance (db : Db) (call : Call) : Decidable (LocationsGuard db call) :=
  match call with
  | .applyAcl _ _ previewId _ => inferInstanceAs (Decidable
      (isCreateChildrenPreview db previewId = true →
        ∀ n ∈ db.library.nodes, n.kind = .file → ∀ u ∈ n.uploaderUserId,
          isActiveMember db.accounts.users u = true → isGrantedOn db u n.id = true))
  | .consumeActivation _ hash _ _ _ _ _ => inferInstanceAs (Decidable
      (∀ a ∈ db.accounts.users, activationUser db hash = some a.id → a.role = .member →
        ∀ n ∈ db.library.nodes, n.kind = .file → n.uploaderUserId = some a.id →
          isShown db a.id n.id = true))
  | .tick _ | .issueLoginSession .. | .logout _ | .resetUser .. | .setUser .. | .createFolder ..
  | .renameNode .. | .deleteFolder .. | .previewAcl .. | .uploadPreflight .. | .commitUpload ..
  | .deleteDocument .. | .queueOrphans .. | .claimDeletion .. | .heartbeatDeletion ..
  | .finishDeletion .. => isTrue trivial

theorem uploadsVisible_consumeActivation (husers : Keyed (·.id) db.accounts.users)
    (hv : UploadsVisible db) {hash : HexText} {userId : UserId} {passwordHash : String}
    (hact : activationUser db hash = some userId)
    (hguard : ∀ a ∈ db.accounts.users, activationUser db hash = some a.id → a.role = .member →
      ∀ n ∈ db.library.nodes, n.kind = .file → n.uploaderUserId = some a.id →
        isShown db a.id n.id = true) (sessions : List Session)
    (challenges : List PreAuthChallenge) :
    UploadsVisible { db with
      accounts.users := updateWhere (fun a => a.id = userId) (activated passwordHash)
        db.accounts.users
      accounts.sessions := sessions
      accounts.challenges := challenges } := by
  obtain ⟨a, ha, rfl, _⟩ := activationUser_pending hact
  intro n hn hk u hu hm
  rcases activeMember_activated husers ha hm with ⟨_, hm'⟩ | ⟨rfl, hrole⟩
  · exact hv n hn hk u hu hm'
  · exact hguard a ha hact hrole n hn hk hu

end LocalRag.Library
