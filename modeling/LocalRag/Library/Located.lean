import LocalRag.Library.Browse

/-!
# The library as its readers see it

`ReaderInv` carries through a run what browsing relies on: the forest
(`Library.Tree`), its bounds (`Library.Bounds`) and that uploaders are shown
their files (`Library.Browse`). `library_run` states the result for every run
whose calls meet the two guards: the tree is well formed and bounded, the
recursive query lists what may be viewed, and locating readable documents never
reports corruption.

Removing an empty folder is the one call on the tree that another table can
veto: `upload_reservations.parent_id` is `ON DELETE RESTRICT` and reservations
are never removed, so a folder that was once named by an upload, committed or
abandoned, stays (`deleteFolder_deleted_iff`).
-/

namespace LocalRag.Library

open LocalRag.Core Access Storage

/-- The part that the tree's own steps do not give. -/
structure ShownInv (db : Db) : Prop where
  users : Keyed (·.id) db.accounts.users
  visible : UploadsVisible db

structure ReaderInv (db : Db) : Prop where
  tree : TreeInv db.library.nodes
  bounded : Bounded db.library.nodes
  shown : ShownInv db

/-- What the calls of a run have to meet. -/
def LibraryGuard (db : Db) (call : Call) : Prop := BoundsGuard db call ∧ LocationsGuard db call

instance (db : Db) (call : Call) : Decidable (LibraryGuard db call) :=
  inferInstanceAs (Decidable (BoundsGuard db call ∧ LocationsGuard db call))

/-! ## One step -/

variable {db : Db}

theorem uploadsVisible_resetUser (hv : UploadsVisible db) {userId : UserId}
    (sessions : List Session) (challenges : List PreAuthChallenge) :
    UploadsVisible { db with
      accounts.users := updateWhere (fun a => a.id = userId ∧ a.deletedAt = none) resetPending
        db.accounts.users
      accounts.sessions := sessions
      accounts.challenges := challenges } := by
  intro n hn hk u hu hm
  have hne : u ≠ userId := by
    rintro rfl
    exact not_activeMember_resetPending u hm
  have hp : ∀ a : User, decide (a.id = userId ∧ a.deletedAt = none) = true → a.id = userId := by
    intro a ha
    simp only [decide_eq_true_eq] at ha
    exact ha.1
  exact hv n hn hk u hu
    ((isActiveMember_updateWhere_ne (f := resetPending) (fun _ => rfl) hp hne).mp hm)

theorem uploadsVisible_createFolder (h : TreeInv db.library.nodes) (hv : UploadsVisible db)
    {node : LibraryNode} {nodes : List LibraryNode} (hleaf : LeafOk db.library.nodes node)
    (hk : node.kind = .folder) (hins : insertNode db.library.nodes node = .ok nodes) :
    UploadsVisible { db with library.nodes := nodes } := by
  have h' := h.insert hleaf hins
  obtain ⟨rfl, _⟩ := insertNode_ok hins
  refine hv.mono h h' ?_ (fun _ hm => hm) (fun _ _ hrow => hrow) fun _ _ _ _ hg => hg
  intro n hn hkn
  rcases List.mem_append.mp hn with hn | hn
  · exact ⟨n, hn, rfl, hkn, rfl, rfl⟩
  · rw [List.mem_singleton.mp hn, hk] at hkn
    exact absurd hkn (by simp)

theorem uploadsVisible_rename (h : TreeInv db.library.nodes) (hv : UploadsVisible db) {i : NodeId}
    {name nameKey : String}
    (h' : TreeInv (updateWhere (fun n => n.id = i)
      (fun n => { n with name := name, nameKey := nameKey }) db.library.nodes)) :
    UploadsVisible { db with
      library.nodes := updateWhere (fun n => n.id = i)
        (fun n => { n with name := name, nameKey := nameKey }) db.library.nodes } := by
  refine hv.mono h h' ?_ (fun _ hm => hm) (fun _ _ hrow => hrow) fun _ _ _ _ hg => hg
  intro n hn hk
  obtain ⟨n₀, hn₀, hid, _, hkind, hdoc, hup⟩ := (keepsLinks_rename name nameKey).source hn
  exact ⟨n₀, hn₀, hid.symm, hkind.symm.trans hk, hdoc.symm, hup.symm⟩

theorem uploadsVisible_deleteFolder (h : TreeInv db.library.nodes) (hv : UploadsVisible db)
    {i : NodeId} (hleaf : ∀ n ∈ db.library.nodes, n.parentId ≠ some i) :
    UploadsVisible { db with library := deleteNode db.library i } := by
  refine hv.mono h (h.erase hleaf) ?_ (fun _ hm => hm) (fun _ _ hrow => hrow) ?_
  · intro n hn hk
    exact ⟨n, (mem_deleteWhere.mp hn).1, rfl, hk, rfl, rfl⟩
  · -- only the grants on the removed folder are gone
    intro n hn _ u hg
    obtain ⟨_, hne⟩ := mem_deleteWhere.mp hn
    rw [isGrantedOn, List.any_eq_true] at hg ⊢
    obtain ⟨g, hg, hcond⟩ := hg
    simp only [decide_eq_true_eq] at hcond
    refine ⟨g, mem_deleteWhere.mpr ⟨hg, ?_⟩, decide_eq_true hcond⟩
    rw [hcond.1]
    exact hne

theorem uploadsVisible_createChildren
    (hguard : ∀ n ∈ db.library.nodes, n.kind = .file → ∀ u ∈ n.uploaderUserId,
      isActiveMember db.accounts.users u = true → isGrantedOn db u n.id = true)
    (grants : List FolderCreateGrant) (previews : List AclPreview) :
    UploadsVisible { db with
      library.folderCreateGrants := grants
      library.aclPreviews := previews
      accounts.epochs.authorizationVersion :=
        db.accounts.epochs.authorizationVersion + 1 } := by
  intro n hn hk u hu hm
  rw [isShown, Bool.or_eq_true]
  exact Or.inr (hguard n hn hk u hu hm)

/-- An effect that meets the guard keeps every upload shown to its uploader. -/
theorem ShownInv.effect {db' : Db} {call : Call} (hs : ShownInv db) (h : TreeInv db.library.nodes)
    (hguard : LocationsGuard db call) (he : Effect db call db') : ShownInv db' := by
  obtain ⟨husers, hv⟩ := hs
  cases he with
  | activate challenged sessions challenges =>
    exact ⟨husers.updateWhere fun _ => rfl,
      uploadsVisible_consumeActivation husers hv challenged hguard sessions challenges⟩
  | reset sessions challenges =>
    exact ⟨husers.updateWhere fun _ => rfl, uploadsVisible_resetUser hv sessions challenges⟩
  | setUser => exact ⟨husers.updateWhere fun _ => rfl, uploadsVisible_rebuild h⟩
  | @createFolder _ nodeId parentId name nameKey _ inserted parent =>
    have hleaf : LeafOk db.library.nodes (folderNode nodeId parentId name nameKey) :=
      leafOk_folderNode fun p hp => (parent p hp).1
    exact ⟨husers, uploadsVisible_createFolder h hv hleaf rfl inserted⟩
  | rename mem free => exact ⟨husers, uploadsVisible_rename h hv (h.rename mem free)⟩
  | deleteFolder _ _ leaf => exact ⟨husers, uploadsVisible_deleteFolder h hv leaf⟩
  | createChildren found kind createGrants =>
    refine ⟨husers, uploadsVisible_createChildren (hguard ?_) createGrants _⟩
    rw [isCreateChildrenPreview, found, Option.any_some, kind]
  | applyAcl performed =>
    obtain ⟨_, _, _, _, hstep, _, rfl⟩ := applyOperation_ok (fun _ => False) performed
    exact ⟨husers, uploadsVisible_rebuild (hstep.treeInv h)⟩
  | upload _ _ node parent =>
    exact ⟨husers, uploadsVisible_rebuild (h.insert (leafOk_fileNode parent) node)⟩
  | deleteDocument done =>
    obtain ⟨_, _, node, _, _, _, _, _, hleaf, rfl⟩ := v4AdminDeleteDocument_ok done
    exact ⟨husers, uploadsVisible_rebuild (h.erase hleaf)⟩
  | same | tick | sessions | previewAcl | stored => exact ⟨husers, hv⟩

theorem readerInv_step (db : Db) (call : Call) (hguard : LibraryGuard db call)
    (h : ReaderInv db) : ReaderInv (step db call) where
  tree := (step_nodes db call).treeInv h.tree
  bounded := bounded_step hguard.1 h.tree h.bounded
  shown := h.shown.effect h.tree hguard.2 (step_effect db call)

theorem readerInv_installed (h : Installed db) : ReaderInv db where
  tree := by
    rw [h.nodes]
    exact treeInv_nil
  bounded := by
    rw [h.nodes]
    exact bounded_nil
  shown := by
    refine ⟨h.users, ?_⟩
    intro n hn
    rw [h.nodes] at hn
    exact absurd hn (by simp)

/-! ## Locating documents -/

variable {token : Option HexText}

variable {u : UserId}

/-- The actor of a session is an active account. -/
theorem v4CurrentActorId_active (h : v4CurrentActorId db token = some u) :
    ∃ a ∈ db.accounts.users, a.id = u ∧ a.status = .active ∧ a.deletedAt = none := by
  unfold v4CurrentActorId at h
  obtain ⟨s, _, hs⟩ := List.exists_of_findSome?_eq_some h
  split at hs
  · obtain ⟨a, ha, rfl⟩ := Option.map_eq_some_iff.mp hs
    have hcond := List.find?_some ha
    simp only [User.isActive, decide_eq_true_eq] at hcond
    exact ⟨a, List.mem_of_find?_eq_some ha, rfl, hcond.2.1⟩
  · exact absurd hs (by simp)

/-- A document that the reader may read has a node they may view. -/
theorem exists_viewable (h : ReaderInv db) (hkeys : KeyInv db)
    (hactor : v4CurrentActorId db token = some u) {document : Document}
    (hd : document ∈ db.content.documents) (hread : v4CanReadDocument db token document.id = true) :
    ∃ n ∈ db.library.nodes, n.documentId = some document.id ∧
      canViewLibraryNode db (some u) n.id = true := by
  obtain ⟨n, hn, hnd⟩ := hkeys.placed document hd
  by_cases hadmin : actorIsAdmin db (some u) = true
  · exact ⟨n, hn, hnd, (canView_iff h.tree hn).mpr (Or.inl hadmin)⟩
  have hself : ∀ m ∈ db.library.nodes, isShown db u m.id = true →
      canViewLibraryNode db (some u) m.id = true := by
    intro m hm hshown
    exact (canView_iff h.tree hm).mpr (Or.inr (Or.inr ⟨m.id, 0, rfl, hshown⟩))
  rw [v4CanReadDocument, hactor, canReadDocument, Bool.eq_false_of_not_eq_true hadmin,
    Bool.false_or, Option.any_some, Option.any_some, Bool.or_eq_true] at hread
  rcases hread with hup | hrow
  · rw [isUploader, List.any_eq_true] at hup
    obtain ⟨m, hm, hcond⟩ := hup
    simp only [decide_eq_true_eq] at hcond
    have hkind : m.kind = .file := by
      cases hk : m.kind with
      | file => rfl
      | folder => exact absurd hcond.1 (by simp [(h.tree.folder m hm hk).1])
    have hmember : isActiveMember db.accounts.users u = true := by
      obtain ⟨a, ha, hid, hactive, hdel⟩ := v4CurrentActorId_active hactor
      refine isActiveMember_iff.mpr ⟨a, ha, hid, hactive, hdel, ?_⟩
      cases hrole : a.role with
      | member => rfl
      | admin =>
        refine absurd (List.any_eq_true.mpr ⟨a, ha, ?_⟩) hadmin
        exact decide_eq_true ⟨by rw [hid], hrole, hactive, hdel⟩
    exact ⟨m, hm, hcond.1, hself m hm (h.shown.visible m hm hkind u hcond.2 hmember)⟩
  · exact ⟨n, hn, hnd, hself n hn ((isShown_iff h.tree hn).mpr (Or.inl ⟨_, hnd, hrow⟩))⟩

theorem locationsForDocuments_ok (h : ReaderInv db) (hkeys : KeyInv db)
    (hactor : v4CurrentActorId db token = some u) {documentIds : List DocumentId}
    (hreadable : ∀ d ∈ documentIds, (∃ document ∈ db.content.documents, document.id = d) ∧
      v4CanReadDocument db token d = true) :
    ∃ locations, locationsForDocuments db token u documentIds = .ok locations := by
  unfold locationsForDocuments
  by_cases hempty : documentIds = []
  · exact ⟨[], by rw [if_pos hempty]⟩
  · rw [if_neg hempty]
    have hfound : ∀ d ∈ documentIds,
        d ∈ (locationRows db token u documentIds).map (·.1) := by
      intro d hd
      obtain ⟨⟨document, hdoc, rfl⟩, hread⟩ := hreadable d hd
      obtain ⟨n, hn, hnd, hview⟩ := exists_viewable h hkeys hactor hdoc hread
      obtain ⟨row, hrow, _, hrd⟩ := (mem_visiblePaths h.tree h.bounded hactor hn).mpr hview
      refine List.mem_map.mpr ⟨(document.id, ⟨row.id, row.parentId, row.name, row.logicalPath,
        row.uploaderUserId⟩), List.mem_filterMap.mpr ⟨row, hrow, ?_⟩, rfl⟩
      rw [hrd, hnd, Option.bind_some, if_pos ⟨hd, hread⟩]
    have hmissing : (documentIds.filter fun d =>
        d ∉ (locationRows db token u documentIds).map (·.1)) = [] := by
      rw [List.filter_eq_nil_iff]
      intro d hd
      simpa using hfound d hd
    dsimp only
    rw [hmissing, if_neg (by simp)]
    exact ⟨_, rfl⟩

/-! ## Removing a folder -/

/-- An administrator removes a childless folder exactly when no reservation, of
whatever outcome, names it. -/
theorem deleteFolder_deleted_iff {admin : UserId} {node : LibraryNode}
    (hadmin : v4RequireAdmin db token = .ok admin)
    (hnode : nodeById db.library.nodes node.id = some node) (hk : node.kind = .folder)
    (hchildless : ∀ n ∈ db.library.nodes, n.parentId ≠ some node.id) :
    (∃ db', v4AdminDeleteFolder db token node.id = .ok (db', .deleted)) ↔
      ∀ r ∈ db.storage.reservations, r.parentId ≠ some node.id := by
  have hkind : ¬ node.kind ≠ .folder := by simp [hk]
  have hchild : ¬ (db.library.nodes.any fun n => n.parentId = some node.id) = true := by
    simpa using hchildless
  unfold v4AdminDeleteFolder
  rw [hadmin]
  dsimp only
  rw [hnode]
  dsimp only
  rw [if_neg hkind, if_neg hchild]
  constructor
  · intro hdel r hr hp
    obtain ⟨db', hdel⟩ := hdel
    rw [ite_error_eq_ok] at hdel
    exact hdel.1 (List.any_eq_true.mpr ⟨r, hr, decide_eq_true hp⟩)
  · intro hfree
    rw [if_neg (by simpa using hfree)]
    exact ⟨_, rfl⟩

/-! ## Every run -/

/-- After every run whose calls meet the guards the library is a bounded forest,
browsing lists what may be viewed and readable documents are located; and a
childless folder can be removed exactly when no reservation names it. -/
theorem library_run {db : Db} (h : Installed db) {calls : List Call}
    (hguard : Along step LibraryGuard db calls) :
    TreeInv (run step db calls).library.nodes ∧ Bounded (run step db calls).library.nodes ∧
    (∀ token u, v4CurrentActorId (run step db calls) token = some u →
      (∀ n ∈ (run step db calls).library.nodes,
        canViewLibraryNode (run step db calls) (some u) n.id = true →
        ∃ row ∈ visiblePaths (run step db calls) token u, row.id = n.id) ∧
      ∀ documentIds : List DocumentId, (∀ d ∈ documentIds,
        (∃ document ∈ (run step db calls).content.documents, document.id = d) ∧
          v4CanReadDocument (run step db calls) token d = true) →
        ∃ locations, locationsForDocuments (run step db calls) token u documentIds =
          .ok locations) ∧
    ∀ token admin, v4RequireAdmin (run step db calls) token = .ok admin →
      ∀ node ∈ (run step db calls).library.nodes, node.kind = .folder →
      (∀ n ∈ (run step db calls).library.nodes, n.parentId ≠ some node.id) →
      ((∃ db', v4AdminDeleteFolder (run step db calls) token node.id = .ok (db', .deleted)) ↔
        ∀ r ∈ (run step db calls).storage.reservations, r.parentId ≠ some node.id) := by
  have hinv : ReaderInv (run step db calls) :=
    run_inv ReaderInv readerInv_step hguard (readerInv_installed h)
  have hkeys := keyInv_run h calls
  refine ⟨hinv.tree, hinv.bounded, fun token u hactor => ⟨?_, ?_⟩, ?_⟩
  · intro n hn hview
    obtain ⟨row, hrow, hid, _⟩ := (mem_visiblePaths hinv.tree hinv.bounded hactor hn).mpr hview
    exact ⟨row, hrow, hid⟩
  · exact fun documentIds hreadable => locationsForDocuments_ok hinv hkeys hactor hreadable
  · intro token admin hadmin node hnode hk hchildless
    exact deleteFolder_deleted_iff hadmin (nodeById_of_mem hinv.tree.keyed hnode) hk hchildless

/-- The member `2` finds the document that was shared with them. -/
theorem library_run_sharing :
    Along step LibraryGuard sampleDb sharingCalls ∧
    TreeInv (run step sampleDb sharingCalls).library.nodes ∧
    ∃ locations, locationsForDocuments (run step sampleDb sharingCalls) (some (.digest 2)) 2
      [30] = .ok locations := by
  have hguard : Along step LibraryGuard sampleDb sharingCalls := by decide +kernel
  have hrun := library_run installed_sampleDb hguard
  refine ⟨hguard, hrun.1, (hrun.2.2.1 (some (.digest 2)) 2 (by decide +kernel)).2 [30] ?_⟩
  decide +kernel

/-- An upload into the folder `10` that is reserved and abandoned. -/
def abandonedUploadCalls : List Call :=
  [.createFolder (some (.digest 1)) 10 none "Reports" "reports",
    .uploadPreflight (some (.digest 1)) 20 (sampleUpload 7 (some 10) "a.pdf"),
    .tick (16 * minute)]

/-- The folder has no children, and removing it raises. -/
theorem deleteFolder_raises :
    Installed sampleDb ∧
    (∀ n ∈ (run step sampleDb abandonedUploadCalls).library.nodes, n.parentId ≠ some 10) ∧
    isFolder (run step sampleDb abandonedUploadCalls).library.nodes 10 = true ∧
    v4AdminDeleteFolder (run step sampleDb abandonedUploadCalls) (some (.digest 1)) 10 =
      .error (foreignKeyViolation "upload_reservations_parent_id_fkey") :=
  ⟨installed_sampleDb, by decide +kernel, by decide +kernel, by decide +kernel⟩

end LocalRag.Library
