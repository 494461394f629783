import LocalRag.Access.Fresh

/-!
# Previews — what they say and when they are refused

`v4_acl_impact` runs the access queries on copies of the tables
(`libraryAfter`, `accountsAfter`), `v4_admin_apply_acl` writes the tables. The
two leave the same answers to every access query, though not the same rows: a
grant that is there already is kept by one and replaced by the other, and a
boundary is set on any node by one and on folders by the other. `SameAccess` is
what the queries can tell apart, and `performOperation_ok` says that an
operation that succeeds leaves tables that are the same in it.

A stored preview is refused unless the caller, the digest, the version and the
recomputed impact are the ones it was stored with (`previewIsStale_ok`); since
every call keeps what a stored preview says (`keepsPreviews_step`), that is so
however long ago it was computed.

Mirroring notes. "Effective" is a row `v4_rebuild_effective_document_access`
would compute from the tables, whether or not the rebuild has run; the identifier
a grant is inserted under is drawn by `gen_random_uuid()` and taken to be new.
-/

namespace LocalRag.Access

open LocalRag.Core Library Storage

/-! ## What the access queries read -/

/-- The columns of a grant the queries read. -/
def grantKey (g : AccessGrant) : NodeId × Option UserId × Option TeamId :=
  (g.nodeId, g.userId, g.teamId)

/-- The columns of a create-children grant the queries read. -/
def createGrantKey (g : FolderCreateGrant) : NodeId × Option UserId × Option TeamId :=
  (g.folderId, g.userId, g.teamId)

/-- No access query tells the second tables from the first. -/
structure SameAccess (lib lib' : Library) (acc acc' : Accounts) : Prop where
  nodes : lib'.nodes = lib.nodes
  grants : ∀ k, k ∈ lib'.accessGrants.map grantKey ↔ k ∈ lib.accessGrants.map grantKey
  createGrants : ∀ k, k ∈ lib'.folderCreateGrants.map createGrantKey ↔
    k ∈ lib.folderCreateGrants.map createGrantKey
  members : ∀ m, m ∈ acc'.teamMembers ↔ m ∈ acc.teamMembers
  teams : acc'.teams = acc.teams
  users : acc'.users = acc.users

/-- The grant names the user, directly or through an active team. -/
def KeyNames (acc : Accounts) (k : NodeId × Option UserId × Option TeamId) (u : UserId) : Prop :=
  k.2.1 = some u ∨ ∃ m ∈ acc.teamMembers,
    (k.2.2 = some m.teamId ∧ teamIsActive acc.teams m.teamId = true) ∧ m.userId = u

variable {i : NodeId} {u : UserId}

theorem mem_pathPrincipals_iff {lib : Library} {acc : Accounts} :
    u ∈ pathPrincipals lib acc i ↔ ∃ a ∈ accessPath lib.nodes i,
      ∃ k ∈ lib.accessGrants.map grantKey, k.1 = a ∧ KeyNames acc k u := by
  simp [pathPrincipals, grantPrincipals, KeyNames, grantKey, and_assoc]

theorem mem_createPrincipals_iff {lib : Library} {acc : Accounts} :
    u ∈ createPrincipals lib acc i ↔ ∃ a ∈ accessPath lib.nodes i,
      ∃ k ∈ lib.folderCreateGrants.map createGrantKey, k.1 = a ∧ KeyNames acc k u := by
  simp [createPrincipals, grantPrincipals, KeyNames, createGrantKey, and_assoc]

theorem mem_effectivePairs_iff {lib : Library} {acc : Accounts} {d : DocumentId} :
    (u, d) ∈ effectivePairs lib acc ↔ isActiveMember acc.users u = true ∧
      ∃ n ∈ lib.nodes, n.kind = .file ∧ n.documentId = some d ∧
        (n.uploaderUserId = some u ∨ u ∈ pathPrincipals lib acc n.id) := by
  rw [effectivePairs, List.mem_dedup, List.mem_filter, principals, List.mem_flatMap, and_comm]
  refine and_congr_right fun _ => exists_congr fun n => and_congr_right fun _ => ?_
  by_cases hk : n.kind = .file
  · rw [if_pos hk]
    simp only [hk, List.mem_flatMap, Option.mem_toList, List.mem_map, List.mem_append,
      Prod.mk.injEq, true_and]
    constructor
    · intro hex
      obtain ⟨_, hd, _, hu, rfl, rfl⟩ := hex
      exact ⟨hd, hu⟩
    · intro hand
      exact ⟨d, hand.1, u, hand.2, rfl, rfl⟩
  · rw [if_neg hk]
    simp [hk]

theorem mem_createPairs_iff {lib : Library} {acc : Accounts} :
    (u, i) ∈ createPairs lib acc ↔ isActiveMember acc.users u = true ∧
      isFolder lib.nodes i = true ∧ u ∈ pathPrincipals lib acc i ∧
        u ∈ createPrincipals lib acc i := by
  rw [createPairs, List.mem_dedup, List.mem_flatMap, isFolder, List.any_eq_true]
  constructor
  · intro hex
    obtain ⟨n, hn, hmem⟩ := hex
    split at hmem
    next hk =>
      obtain ⟨v, hv, heq⟩ := List.mem_map.mp hmem
      obtain ⟨rfl, rfl⟩ : v = u ∧ n.id = i := by simpa using heq
      obtain ⟨hread, hcond⟩ := List.mem_filter.mp hv
      simp only [decide_eq_true_eq] at hcond
      exact ⟨hcond.2, ⟨n, hn, decide_eq_true ⟨rfl, hk⟩⟩, hread, hcond.1⟩
    next => cases hmem
  · intro hand
    obtain ⟨hmember, ⟨n, hn, hid⟩, hread, hcreate⟩ := hand
    simp only [decide_eq_true_eq] at hid
    obtain ⟨rfl, hk⟩ := hid
    refine ⟨n, hn, ?_⟩
    rw [if_pos hk]
    refine List.mem_map.mpr ⟨u, List.mem_filter.mpr ⟨hread, ?_⟩, rfl⟩
    exact decide_eq_true ⟨hcreate, hmember⟩

section SameAccess

variable {lib lib' : Library} {acc acc' : Accounts}

theorem SameAccess.keyNames (h : SameAccess lib lib' acc acc')
    {k : NodeId × Option UserId × Option TeamId} : KeyNames acc' k u ↔ KeyNames acc k u := by
  unfold KeyNames
  rw [h.teams]
  simp only [h.members]

theorem SameAccess.pathPrincipals (h : SameAccess lib lib' acc acc') :
    u ∈ pathPrincipals lib' acc' i ↔ u ∈ pathPrincipals lib acc i := by
  rw [mem_pathPrincipals_iff, mem_pathPrincipals_iff, h.nodes]
  simp only [h.grants, h.keyNames]

theorem SameAccess.createPrincipals (h : SameAccess lib lib' acc acc') :
    u ∈ createPrincipals lib' acc' i ↔ u ∈ createPrincipals lib acc i := by
  rw [mem_createPrincipals_iff, mem_createPrincipals_iff, h.nodes]
  simp only [h.createGrants, h.keyNames]

theorem SameAccess.effectivePairs (h : SameAccess lib lib' acc acc') {d : DocumentId} :
    (u, d) ∈ effectivePairs lib' acc' ↔ (u, d) ∈ effectivePairs lib acc := by
  rw [mem_effectivePairs_iff, mem_effectivePairs_iff, h.nodes, h.users]
  simp only [h.pathPrincipals]

theorem SameAccess.createPairs (h : SameAccess lib lib' acc acc') :
    (u, i) ∈ createPairs lib' acc' ↔ (u, i) ∈ createPairs lib acc := by
  rw [mem_createPairs_iff, mem_createPairs_iff, h.nodes, h.users, h.pathPrincipals,
    h.createPrincipals]

end SameAccess

/-! ## The simulated tables and the written ones -/

/-- Replacing the rows under a key by one row, or adding it to the table, leaves the
same keys. -/
theorem mem_map_replace {ρ κ : Type} [DecidableEq κ] {key : ρ → κ} {t : List ρ} {r : ρ} {x : κ} :
    x ∈ (deleteWhere (fun a => key a = key r) t ++ [r]).map key ↔ x = key r ∨ x ∈ t.map key := by
  rw [List.map_append, List.mem_append, List.map_singleton, List.mem_singleton, List.mem_map,
    List.mem_map]
  constructor
  · intro hor
    rcases hor with ⟨a, ha, rfl⟩ | rfl
    · exact Or.inr ⟨a, (mem_deleteWhere.mp ha).1, rfl⟩
    · exact Or.inl rfl
  · intro hor
    rcases hor with rfl | ⟨a, ha, rfl⟩
    · exact Or.inr rfl
    · by_cases hk : key a = key r
      · exact Or.inr hk
      · exact Or.inl ⟨a, mem_deleteWhere.mpr ⟨ha, decide_eq_false hk⟩, rfl⟩

theorem mem_map_append {ρ κ : Type} {key : ρ → κ} {t : List ρ} {r : ρ} {x : κ} :
    x ∈ (t ++ [r]).map key ↔ x = key r ∨ x ∈ t.map key := by
  rw [List.map_append, List.mem_append, List.map_singleton, List.mem_singleton, or_comm]

theorem mem_map_present {ρ κ : Type} {key : ρ → κ} {t : List ρ} {r : ρ} {x k : κ} (hr : r ∈ t)
    (hk : key r = k) : x ∈ t.map key ↔ x = k ∨ x ∈ t.map key := by
  refine ⟨Or.inr, fun hor => ?_⟩
  rcases hor with rfl | hx
  · exact List.mem_map.mpr ⟨r, hr, hk⟩
  · exact hx

/-- The operation, for every kind. -/
def performOperation (db : Db) (grantId : GrantId) (op : AclOperation) : Except SqlError Db :=
  match op with
  | .setCreateChildrenGrant folderId userId teamId present =>
    applySetCreateChildrenGrant db grantId folderId userId teamId present
  | op => applyOperation db grantId op

variable {db : Db} {grantId : GrantId} {op : AclOperation}

theorem performOperation_eq
    (h : ∀ folderId userId teamId present,
      op ≠ .setCreateChildrenGrant folderId userId teamId present) :
    performOperation db grantId op = applyOperation db grantId op := by
  unfold performOperation
  split
  next folderId userId teamId present => exact absurd rfl (h folderId userId teamId present)
  next => rfl

/-- Drawn by `gen_random_uuid()`: no grant has this identifier yet. -/
def NewGrantId (lib : Library) (grantId : GrantId) : Prop :=
  (∀ g ∈ lib.accessGrants, g.id ≠ grantId) ∧ ∀ g ∈ lib.folderCreateGrants, g.id ≠ grantId

theorem SameAccess.refl (lib : Library) (acc : Accounts) : SameAccess lib lib acc acc :=
  ⟨rfl, fun _ => Iff.rfl, fun _ => Iff.rfl, fun _ => Iff.rfl, rfl, rfl⟩

variable {db' : Db}

variable {nodeId : NodeId} {present : Bool}

/-- `set_grant` leaves the grants the simulation has. -/
theorem sameAccess_setGrant {userId : Option UserId} {teamId : Option TeamId}
    (hnew : NewGrantId db.library grantId)
    (h : applySetGrant db grantId nodeId userId teamId present = .ok db') :
    SameAccess (libraryAfter (.setGrant nodeId userId teamId present) db.library) db'.library
      db.accounts db'.accounts := by
  have hpred : (fun g : AccessGrant => decide (g.nodeId = nodeId ∧
      samePrincipal g.userId g.teamId userId teamId = true)) =
      fun g => decide (grantKey g = (nodeId, userId, teamId)) := by
    funext g
    simp [samePrincipal, grantKey]
  unfold applySetGrant at h
  cases present with
  | false =>
    simp only [Bool.false_eq_true, if_false] at h
    obtain rfl := Except.ok.inj h
    refine ⟨rfl, fun k => ?_, fun _ => Iff.rfl, fun _ => Iff.rfl, rfl, rfl⟩
    simp [libraryAfter, grantsAfter]
  | true =>
    have hafter : ∀ k, k ∈ (grantsAfter (.setGrant nodeId userId teamId true)
        db.library.accessGrants).map grantKey ↔
        k = (nodeId, userId, teamId) ∨ k ∈ db.library.accessGrants.map grantKey := by
      intro k
      simp only [grantsAfter, if_true]
      rw [hpred]
      exact mem_map_replace (r := (⟨0, nodeId, userId, teamId⟩ : AccessGrant))
    simp only [if_true, ite_error_eq_ok] at h
    obtain ⟨_, h⟩ := h
    split at h
    next hany =>
      -- the insert met a conflict: with the row itself, as the identifier is new
      obtain rfl := Except.ok.inj h
      obtain ⟨g, hg, hcond⟩ := List.any_eq_true.mp hany
      simp only [decide_eq_true_eq] at hcond
      have hrow := hcond.resolve_left (hnew.1 g hg)
      have hkey := of_decide_eq_true ((congrFun hpred g).symm.trans (decide_eq_true hrow))
      refine ⟨rfl, fun k => ?_, fun _ => Iff.rfl, fun _ => Iff.rfl, rfl, rfl⟩
      exact (mem_map_present hg hkey).trans (hafter k).symm
    next =>
      simp only [ite_error_eq_ok] at h
      obtain ⟨_, _, _, h⟩ := h
      obtain rfl := Except.ok.inj h
      refine ⟨rfl, fun k => ?_, fun _ => Iff.rfl, fun _ => Iff.rfl, rfl, rfl⟩
      exact mem_map_append.trans (hafter k).symm

/-- So does `set_create_children_grant`. -/
theorem sameAccess_setCreateChildrenGrant {folderId : NodeId} {userId : Option UserId}
    {teamId : Option TeamId} (hnew : NewGrantId db.library grantId)
    (h : applySetCreateChildrenGrant db grantId folderId userId teamId present = .ok db') :
    SameAccess (libraryAfter (.setCreateChildrenGrant folderId userId teamId present) db.library)
      db'.library db.accounts db'.accounts := by
  have hpred : (fun g : FolderCreateGrant => decide (g.folderId = folderId ∧
      samePrincipal g.userId g.teamId userId teamId = true)) =
      fun g => decide (createGrantKey g = (folderId, userId, teamId)) := by
    funext g
    simp [samePrincipal, createGrantKey]
  unfold applySetCreateChildrenGrant at h
  cases present with
  | false =>
    simp only [Bool.false_eq_true, if_false] at h
    obtain rfl := Except.ok.inj h
    refine ⟨rfl, fun _ => Iff.rfl, fun k => ?_, fun _ => Iff.rfl, rfl, rfl⟩
    simp [libraryAfter, createGrantsAfter]
  | true =>
    have hafter : ∀ k, k ∈ (createGrantsAfter (.setCreateChildrenGrant folderId userId teamId true)
        db.library.folderCreateGrants).map createGrantKey ↔
        k = (folderId, userId, teamId) ∨ k ∈ db.library.folderCreateGrants.map createGrantKey := by
      intro k
      simp only [createGrantsAfter, if_true]
      rw [hpred]
      exact mem_map_replace (r := (⟨0, folderId, userId, teamId⟩ : FolderCreateGrant))
    simp only [if_true, ite_error_eq_ok] at h
    obtain ⟨_, _, h⟩ := h
    split at h
    next hany =>
      obtain rfl := Except.ok.inj h
      obtain ⟨g, hg, hcond⟩ := List.any_eq_true.mp hany
      simp only [decide_eq_true_eq] at hcond
      have hrow := hcond.resolve_left (hnew.2 g hg)
      have hkey := of_decide_eq_true ((congrFun hpred g).symm.trans (decide_eq_true hrow))
      refine ⟨rfl, fun _ => Iff.rfl, fun k => ?_, fun _ => Iff.rfl, rfl, rfl⟩
      exact (mem_map_present hg hkey).trans (hafter k).symm
    next =>
      simp only [ite_error_eq_ok] at h
      obtain ⟨_, _, h⟩ := h
      obtain rfl := Except.ok.inj h
      refine ⟨rfl, fun _ => Iff.rfl, fun k => ?_, fun _ => Iff.rfl, rfl, rfl⟩
      exact mem_map_append.trans (hafter k).symm

/-- `set_membership` leaves the memberships the simulation has. -/
theorem sameAccess_setMembership {teamId : TeamId} {userId : UserId}
    (h : applySetMembership db teamId userId present = .ok db') :
    SameAccess db.library db'.library
      (accountsAfter (.setMembership teamId userId present) db.accounts) db'.accounts := by
  have hpred : (fun m : TeamMember => decide (m.teamId = teamId ∧ m.userId = userId)) =
      fun m => decide (id m = (⟨teamId, userId⟩ : TeamMember)) := by
    funext m
    cases m
    simp
  unfold applySetMembership at h
  cases present with
  | false =>
    simp only [Bool.false_eq_true, if_false] at h
    obtain rfl := Except.ok.inj h
    refine ⟨rfl, fun _ => Iff.rfl, fun _ => Iff.rfl, fun m => ?_, rfl, rfl⟩
    simp [accountsAfter, membershipsAfter]
  | true =>
    have hafter : ∀ m, m ∈ membershipsAfter (.setMembership teamId userId true)
        db.accounts.teamMembers ↔ m = ⟨teamId, userId⟩ ∨ m ∈ db.accounts.teamMembers := by
      intro m
      have hreplace := @mem_map_replace TeamMember TeamMember _ id db.accounts.teamMembers
        ⟨teamId, userId⟩ m
      simp only [membershipsAfter, if_true]
      rw [hpred]
      simpa using hreplace
    simp only [if_true] at h
    split at h
    next hany =>
      obtain rfl := Except.ok.inj h
      obtain ⟨m', hm', hcond⟩ := List.any_eq_true.mp hany
      have hrow : m' = ⟨teamId, userId⟩ :=
        of_decide_eq_true ((congrFun hpred m').symm.trans hcond)
      refine ⟨rfl, fun _ => Iff.rfl, fun _ => Iff.rfl, fun m => ?_, rfl, rfl⟩
      refine Iff.trans ⟨Or.inr, fun hor => ?_⟩ (hafter m).symm
      rcases hor with rfl | hm
      · exact hrow ▸ hm'
      · exact hm
    next =>
      simp only [ite_error_eq_ok] at h
      obtain ⟨_, _, h⟩ := h
      obtain rfl := Except.ok.inj h
      refine ⟨rfl, fun _ => Iff.rfl, fun _ => Iff.rfl, fun m => ?_, rfl, rfl⟩
      refine Iff.trans ?_ (hafter m).symm
      rw [List.mem_append, List.mem_singleton, or_comm]

/-- `set_boundary` writes the row the simulation does: it is a folder. -/
theorem sameAccess_setBoundary {enabled : Bool} (hnodes : Keyed (·.id) db.library.nodes)
    (h : applySetBoundary db nodeId enabled = .ok db') :
    SameAccess (libraryAfter (.setBoundary nodeId enabled) db.library) db'.library
      db.accounts db'.accounts := by
  unfold applySetBoundary at h
  split at h
  next hfolder =>
    obtain rfl := Except.ok.inj h
    obtain ⟨m, hm, hid, hkind⟩ := isFolder_iff.mp hfolder
    refine ⟨?_, fun _ => Iff.rfl, fun _ => Iff.rfl, fun _ => Iff.rfl, rfl, rfl⟩
    refine List.map_congr_left fun n hn => ?_
    by_cases hn' : n.id = nodeId
    · obtain rfl : n = m := hnodes.eq hn hm (hn'.trans hid.symm)
      simp [hn', hkind]
    · simp [hn']
  next => cases h

/-- `move_node` moves the row the simulation does. -/
theorem sameAccess_moveNode {target : Option NodeId}
    (h : applyMoveNode db nodeId target = .ok db') :
    SameAccess (libraryAfter (.moveNode nodeId target) db.library) db'.library
      db.accounts db'.accounts := by
  obtain ⟨node, hnode, _, _, _, _, rfl⟩ := applyMoveNode_ok h
  rw [(nodeById_id hnode).2]
  exact SameAccess.refl _ _

/-- An operation that succeeds leaves the access the simulation has. -/
theorem performOperation_ok (hnodes : Keyed (·.id) db.library.nodes)
    (hnew : NewGrantId db.library grantId) (h : performOperation db grantId op = .ok db') :
    SameAccess (libraryAfter op db.library) db'.library (accountsAfter op db.accounts)
      db'.accounts := by
  cases op with
  | setGrant nodeId userId teamId present => exact sameAccess_setGrant hnew h
  | setMembership teamId userId present => exact sameAccess_setMembership h
  | setBoundary nodeId enabled => exact sameAccess_setBoundary hnodes h
  | setTeamActive teamId active =>
    obtain rfl := Except.ok.inj h
    exact SameAccess.refl _ _
  | moveNode nodeId parentId => exact sameAccess_moveNode h
  | setCreateChildrenGrant folderId userId teamId present =>
    exact sameAccess_setCreateChildrenGrant hnew h

/-! ## What an impact lists -/

theorem mem_symmetricDifference {α : Type} [DecidableEq α] {a b : List α} {x : α} :
    x ∈ symmetricDifference a b ↔ ¬ (x ∈ a ↔ x ∈ b) := by
  simp only [symmetricDifference, List.mem_append, List.mem_filter, decide_eq_true_eq]
  tauto

@[simp] theorem mem_sortedIds {ids : List Nat} {i : Nat} : i ∈ sortedIds ids ↔ i ∈ ids := by
  rw [sortedIds, (List.perm_insertionSort _ _).mem_iff, List.mem_dedup]

theorem sortedIds_pairwise (ids : List Nat) : (sortedIds ids).Pairwise (· < ·) := by
  have hnodup : (sortedIds ids).Nodup :=
    (List.perm_insertionSort _ _).nodup_iff.mpr (List.nodup_dedup ids)
  have hle : (sortedIds ids).Pairwise (· ≤ ·) := List.pairwise_insertionSort _ _
  exact (hle.and hnodup).imp fun hab => lt_of_le_of_ne hab.1 hab.2

/-- The impact lists these changes: each user and document once, in order, and the
nodes of the documents and the folders. -/
structure Lists (db : Db) (changed : UserId → DocumentId → Prop)
    (created : UserId → NodeId → Prop) (impact : AclImpact) : Prop where
  users : ∀ u, u ∈ impact.userIds ↔ (∃ d, changed u d) ∨ ∃ i, created u i
  documents : ∀ d, d ∈ impact.documentIds ↔ ∃ u, changed u d
  nodes : ∀ i, i ∈ impact.nodeIds ↔
    (∃ n ∈ db.library.nodes, n.id = i ∧ ∃ d, n.documentId = some d ∧ ∃ u, changed u d) ∨
      ∃ u, created u i
  ordered : impact.userIds.Pairwise (· < ·) ∧ impact.nodeIds.Pairwise (· < ·) ∧
    impact.documentIds.Pairwise (· < ·)
  counts : impact.userCount = impact.userIds.length ∧ impact.nodeCount = impact.nodeIds.length ∧
    impact.documentCount = impact.documentIds.length

variable {impact : AclImpact}

theorem Lists.congr {changed changed' : UserId → DocumentId → Prop}
    {created created' : UserId → NodeId → Prop} (h : Lists db changed created impact)
    (hchanged : ∀ u d, changed' u d ↔ changed u d) (hcreated : ∀ u i, created' u i ↔ created u i) :
    Lists db changed' created' impact := by
  obtain rfl : changed' = changed := funext fun u => funext fun d => propext (hchanged u d)
  obtain rfl : created' = created := funext fun u => funext fun i => propext (hcreated u i)
  exact h

/-- The document `v4_acl_impact` builds from two lists of changed pairs. -/
theorem lists_build (db : Db) (op : AclOperation) (access : List (UserId × DocumentId))
    (create : List (UserId × NodeId)) :
    Lists db (fun u d => (u, d) ∈ access) (fun u i => (u, i) ∈ create)
      { operation := op
        userIds := sortedIds (access.map (·.1) ++ create.map (·.1))
        nodeIds := sortedIds ((db.library.nodes.filter fun n =>
          n.documentId.any fun d => d ∈ sortedIds (access.map (·.2))).map (·.id) ++
            create.map (·.2))
        documentIds := sortedIds (access.map (·.2))
        userCount := (sortedIds (access.map (·.1) ++ create.map (·.1))).length
        nodeCount := (sortedIds ((db.library.nodes.filter fun n =>
          n.documentId.any fun d => d ∈ sortedIds (access.map (·.2))).map (·.id) ++
            create.map (·.2))).length
        documentCount := (sortedIds (access.map (·.2))).length } where
  users u := by simp
  documents d := by simp
  nodes i := by simp [Option.any_eq_true, and_comm, and_left_comm]
  ordered := ⟨sortedIds_pairwise _, sortedIds_pairwise _, sortedIds_pairwise _⟩
  counts := ⟨rfl, rfl, rfl⟩

/-- The impact lists what the simulated tables change. -/
theorem v4AclImpact_lists (h : v4AclImpact db op = .ok impact) :
    Lists db
      (fun u d => ¬ ((u, d) ∈ effectivePairs db.library db.accounts ↔
        (u, d) ∈ effectivePairs (libraryAfter op db.library) (accountsAfter op db.accounts)))
      (fun u i => ¬ ((u, i) ∈ createPairs db.library db.accounts ↔
        (u, i) ∈ createPairs (libraryAfter op db.library) (accountsAfter op db.accounts)))
      impact := by
  have hboth := (lists_build db op
    (symmetricDifference (effectivePairs db.library db.accounts)
      (effectivePairs (libraryAfter op db.library) (accountsAfter op db.accounts)))
    (symmetricDifference (createPairs db.library db.accounts)
      (createPairs (libraryAfter op db.library) (accountsAfter op db.accounts)))).congr
    (fun _ _ => mem_symmetricDifference.symm) (fun _ _ => mem_symmetricDifference.symm)
  cases op with
  | setCreateChildrenGrant folderId userId teamId present =>
    simp only [v4AclImpact, ite_error_eq_ok] at h
    obtain ⟨_, h⟩ := h
    obtain rfl := Except.ok.inj h
    -- the read access has no create-children grant in it
    refine (lists_build db _ [] _).congr (fun u d => ?_) fun _ _ => mem_symmetricDifference.symm
    exact ⟨fun hne => absurd Iff.rfl hne, fun hmem => absurd hmem List.not_mem_nil⟩
  | moveNode nodeId parentId =>
    simp only [v4AclImpact, ite_error_eq_ok] at h
    obtain ⟨_, h⟩ := h
    obtain rfl := Except.ok.inj h
    exact hboth
  | setGrant => exact (Except.ok.inj h) ▸ hboth
  | setMembership => exact (Except.ok.inj h) ▸ hboth
  | setBoundary => exact (Except.ok.inj h) ▸ hboth
  | setTeamActive => exact (Except.ok.inj h) ▸ hboth

/-! ## Effective access and create access -/

/-- The pair is a row the rebuild would compute from these tables. -/
def Effective (db : Db) (u : UserId) (d : DocumentId) : Prop :=
  (u, d) ∈ effectivePairs db.library db.accounts

/-- The account can be a caller, and `v4_can_create_children` lets it. -/
def MayCreate (db : Db) (u : UserId) (i : NodeId) : Prop :=
  (∃ a ∈ db.accounts.users, a.id = u ∧ User.isActive a = true) ∧
    canCreateChildren db (some u) i = true

/-- An active account is an administrator or a member; the former may create in every
folder, the latter where the query over both grants finds them. -/
theorem mayCreate_iff : MayCreate db u i ↔
    (u, i) ∈ createPairs db.library db.accounts ∨
      actorIsAdmin db (some u) = true ∧ isFolder db.library.nodes i = true := by
  have hadmin_iff : actorIsAdmin db (some u) = true ↔ ∃ a ∈ db.accounts.users, a.id = u ∧
      a.role = .admin ∧ User.isActive a = true := by
    rw [actorIsAdmin, List.any_eq_true]
    refine exists_congr fun a => and_congr_right fun _ => ?_
    simp only [User.isActive, decide_eq_true_eq, Option.some.injEq]
    exact and_congr_left fun _ => eq_comm
  rw [mem_createPairs_iff]
  constructor
  · intro hmay
    obtain ⟨⟨a, ha, hid, hactive⟩, hcan⟩ := hmay
    rw [canCreateChildren, Bool.and_eq_true] at hcan
    obtain ⟨hfolder, hcan⟩ := hcan
    by_cases hadmin : actorIsAdmin db (some u) = true
    · exact Or.inr ⟨hadmin, hfolder⟩
    · simp only [canReadFolder, Bool.eq_false_of_not_eq_true hadmin, hfolder, Bool.false_or,
        Bool.true_and, Option.any_some, Bool.and_eq_true, decide_eq_true_eq] at hcan
      refine Or.inl ⟨isActiveMember_iff.mpr ⟨a, ha, hid, ?_⟩, hfolder, hcan.1, hcan.2⟩
      simp only [User.isActive, decide_eq_true_eq] at hactive
      refine ⟨hactive.1, hactive.2, ?_⟩
      cases hrole : a.role with
      | member => rfl
      | admin =>
        refine absurd (hadmin_iff.mpr ⟨a, ha, hid, hrole, ?_⟩) hadmin
        exact decide_eq_true hactive
  · intro hor
    rcases hor with ⟨hmember, hfolder, hread, hcreate⟩ | ⟨hadmin, hfolder⟩
    · obtain ⟨a, ha, hid, hstatus, hdel, _⟩ := isActiveMember_iff.mp hmember
      refine ⟨⟨a, ha, hid, decide_eq_true ⟨hstatus, hdel⟩⟩, ?_⟩
      simp [canCreateChildren, canReadFolder, hfolder, hread, hcreate]
    · obtain ⟨a, ha, hid, _, hactive⟩ := hadmin_iff.mp hadmin
      refine ⟨⟨a, ha, hid, hactive⟩, ?_⟩
      rw [canCreateChildren, hfolder, hadmin, Bool.true_or, Bool.true_and]

/-- Where accounts and folders stay, create access changes as its rows do. -/
theorem mayCreate_changed (husers : Keyed (·.id) db.accounts.users)
    (hsame : db'.accounts.users = db.accounts.users)
    (hfolders : ∀ i, isFolder db'.library.nodes i = isFolder db.library.nodes i) (u : UserId)
    (i : NodeId) : (MayCreate db u i ↔ MayCreate db' u i) ↔
      ((u, i) ∈ createPairs db.library db.accounts ↔
        (u, i) ∈ createPairs db'.library db'.accounts) := by
  have hadmin : actorIsAdmin db' (some u) = actorIsAdmin db (some u) := by
    unfold actorIsAdmin
    rw [hsame]
  rw [mayCreate_iff, mayCreate_iff, hadmin, hfolders]
  by_cases ha : actorIsAdmin db (some u) = true
  · -- an administrator is no member, so there are no rows
    have hmember : ¬ isActiveMember db.accounts.users u = true := by
      intro hm
      rw [not_admin_of_member husers hm] at ha
      cases ha
    have hnone : (u, i) ∉ createPairs db.library db.accounts := fun hmem =>
      hmember (mem_createPairs_iff.mp hmem).1
    have hnone' : (u, i) ∉ createPairs db'.library db'.accounts := fun hmem =>
      hmember (hsame ▸ (mem_createPairs_iff.mp hmem).1)
    simp only [hnone, hnone']
  · simp only [ha, false_and, or_false, Bool.false_eq_true]

theorem isFolder_libraryAfter (op : AclOperation) (lib : Library) (i : NodeId) :
    isFolder (libraryAfter op lib).nodes i = isFolder lib.nodes i := by
  have hupdate : ∀ (p : LibraryNode → Bool) (f : LibraryNode → LibraryNode),
      (∀ n, (f n).id = n.id ∧ (f n).kind = n.kind) →
      isFolder (updateWhere p f lib.nodes) i = isFolder lib.nodes i := by
    intro p f hf
    rw [isFolder, updateWhere, List.any_map]
    refine List.any_congr rfl fun n => ?_
    simp only [Function.comp]
    split
    · rw [(hf n).1, (hf n).2]
    · rfl
  cases op with
  | setBoundary => exact hupdate _ _ fun _ => ⟨rfl, rfl⟩
  | moveNode => exact hupdate _ _ fun _ => ⟨rfl, rfl⟩
  | setGrant => rfl
  | setMembership => rfl
  | setTeamActive => rfl
  | setCreateChildrenGrant => rfl

/-! ## What apply does -/

variable {preview : AclPreview} {impactDigest : AclImpact}

/-- A preview that is not stale is the caller's, unspent, in time, and its digest and
version are today's. -/
theorem previewIsStale_ok {actor : UserId}
    (h : previewIsStale db actor preview impactDigest = .ok false) :
    preview.impactDigest = impactDigest ∧
    preview.authorizationVersion = db.accounts.epochs.authorizationVersion ∧
    v4AclImpact db preview.operation = .ok impactDigest := by
  unfold previewIsStale at h
  split at h
  · cases h
  next impact himpact =>
    have hno := of_decide_eq_false (Except.ok.inj h)
    simp only [not_or, not_not] at hno
    obtain ⟨_, hdigest, hversion, _, _, hsame⟩ := hno
    exact ⟨hdigest, hversion, hsame ▸ himpact⟩

variable {previewId : PreviewId}

variable {token : Option HexText}

/-- Apply performed the operation of a preview that is not stale, and nothing else
that an access query reads. -/
theorem v4AdminApplyAcl_performed {version : Nat}
    (h : v4AdminApplyAcl db token grantId previewId impactDigest = .ok (db', version)) :
    ∃ actor preview applied, (db.library.aclPreviews.find? fun p => p.id = previewId) =
        some preview ∧
      previewIsStale db actor preview impactDigest = .ok false ∧
      performOperation db grantId preview.operation = .ok applied ∧
      SameAccess applied.library db'.library applied.accounts db'.accounts := by
  obtain ⟨actor, preview, applied, hpreview, hstale, harm⟩ := v4AdminApplyAcl_arms h
  refine ⟨actor, preview, applied, hpreview, hstale, ?_⟩
  rcases harm with ⟨folderId, userId, teamId, present, hop, happ, rfl⟩ | ⟨happ, rfl⟩
  · refine ⟨?_, ⟨rfl, fun _ => Iff.rfl, fun _ => Iff.rfl, fun _ => Iff.rfl, rfl, rfl⟩⟩
    rw [hop]
    exact happ
  · refine ⟨(performOperation_eq fun _ _ _ _ hop => ?_).trans happ,
      ⟨rfl, fun _ => Iff.rfl, fun _ => Iff.rfl, fun _ => Iff.rfl, rfl, rfl⟩⟩
    rw [hop] at happ
    cases happ

theorem SameAccess.trans {lib₁ lib₂ lib₃ : Library} {acc₁ acc₂ acc₃ : Accounts}
    (h : SameAccess lib₁ lib₂ acc₁ acc₂) (h' : SameAccess lib₂ lib₃ acc₂ acc₃) :
    SameAccess lib₁ lib₃ acc₁ acc₃ :=
  ⟨h'.nodes.trans h.nodes, fun k => (h'.grants k).trans (h.grants k),
    fun k => (h'.createGrants k).trans (h.createGrants k),
    fun m => (h'.members m).trans (h.members m), h'.teams.trans h.teams, h'.users.trans h.users⟩

/-- The previewed users and documents are the ones whose access the operation
changed, and the previewed nodes those of the documents and the folders in which
someone's create access changed. -/
def TellsTruth (db db' : Db) (impact : AclImpact) : Prop :=
  Lists db (fun u d => ¬ (Effective db u d ↔ Effective db' u d))
    (fun u i => ¬ (MayCreate db u i ↔ MayCreate db' u i)) impact

theorem tellsTruth_apply (hnodes : Keyed (·.id) db.library.nodes)
    (husers : Keyed (·.id) db.accounts.users) (hnew : NewGrantId db.library grantId)
    {version : Nat}
    (hpreview : (db.library.aclPreviews.find? fun p => p.id = previewId) = some preview)
    (himpact : v4AclImpact db preview.operation = .ok impact)
    (h : v4AdminApplyAcl db token grantId previewId impactDigest = .ok (db', version)) :
    TellsTruth db db' impact := by
  obtain ⟨_, preview', applied, hpreview', _, happ, hrest⟩ := v4AdminApplyAcl_performed h
  obtain rfl : preview' = preview := Option.some.inj (hpreview'.symm.trans hpreview)
  have hsame := (performOperation_ok hnodes hnew happ).trans hrest
  have hfolders : ∀ i, isFolder db'.library.nodes i = isFolder db.library.nodes i := by
    intro i
    rw [hsame.nodes]
    exact isFolder_libraryAfter _ _ i
  have haccounts : db'.accounts.users = db.accounts.users := hsame.users
  refine (v4AclImpact_lists himpact).congr (fun u d => not_congr ?_) fun u i => not_congr ?_
  · exact iff_congr Iff.rfl hsame.effectivePairs
  · rw [mayCreate_changed husers haccounts hfolders, hsame.createPairs]

/-! ## A stored preview stays what it was -/

/-- The previews that were there are there and say the same; they may be spent. -/
def KeepsPreviews (previews previews' : List AclPreview) : Prop :=
  ∀ i p, previews.find? (fun q => q.id = i) = some p →
    ∃ consumedAt, previews'.find? (fun q => q.id = i) = some { p with consumedAt := consumedAt }

theorem KeepsPreviews.refl (previews : List AclPreview) : KeepsPreviews previews previews :=
  fun _ p hp => ⟨p.consumedAt, hp⟩

theorem KeepsPreviews.trans {p₁ p₂ p₃ : List AclPreview} (h : KeepsPreviews p₁ p₂)
    (h' : KeepsPreviews p₂ p₃) : KeepsPreviews p₁ p₃ := by
  intro i p hp
  obtain ⟨_, hp₂⟩ := h i p hp
  obtain ⟨consumedAt, hp₃⟩ := h' i _ hp₂
  exact ⟨consumedAt, hp₃⟩

theorem keepsPreviews_append (previews : List AclPreview) (new : AclPreview) :
    KeepsPreviews previews (previews ++ [new]) := by
  intro i p hp
  refine ⟨p.consumedAt, ?_⟩
  rw [List.find?_append, hp]
  rfl

theorem keepsPreviews_consume (previews : List AclPreview) (previewId : PreviewId) (now : Time) :
    KeepsPreviews previews (updateWhere (fun p => p.id = previewId)
      (fun p => { p with consumedAt := some now }) previews) := by
  intro i p hp
  have hids : ∀ q : AclPreview,
      (if decide (q.id = previewId) = true then { q with consumedAt := some now } else q).id =
        q.id := by
    intro q
    split <;> rfl
  have hfind : (updateWhere (fun p => p.id = previewId)
      (fun p => { p with consumedAt := some now }) previews).find? (fun q => q.id = i) =
      (previews.find? fun q => q.id = i).map
        fun q => if decide (q.id = previewId) = true then { q with consumedAt := some now }
          else q := by
    rw [updateWhere, List.find?_map]
    simp only [Function.comp_def, hids]
  rw [hfind, hp, Option.map_some]
  split
  · exact ⟨some now, rfl⟩
  · exact ⟨p.consumedAt, rfl⟩

theorem v4AdminPreviewAcl_stored
    (h : v4AdminPreviewAcl db token previewId op = .ok (db', (previewId, impact))) :
    v4AclImpact db op = .ok impact ∧ ∃ p, p.operation = op ∧ p.impactDigest = impact ∧
      p.authorizationVersion = db.accounts.epochs.authorizationVersion ∧
      db'.library.aclPreviews.find? (fun q => q.id = previewId) = some p := by
  unfold v4AdminPreviewAcl at h
  split at h
  · cases h
  next impact' himpact =>
    split at h
    · cases h
    next actor _ =>
      simp only [ite_error_eq_ok] at h
      obtain ⟨_, hfree, h⟩ := h
      obtain ⟨rfl, hresult⟩ := Prod.mk.inj (Except.ok.inj h)
      obtain rfl : impact' = impact := (Prod.mk.inj hresult).2
      have hnone : db.library.aclPreviews.find? (fun q => q.id = previewId) = none := by
        rw [List.find?_eq_none]
        exact fun q hq hid => hfree (List.any_eq_true.mpr ⟨q, hq, hid⟩)
      refine ⟨himpact, ⟨previewId, actor, op, impact',
        db.accounts.epochs.authorizationVersion, db.now + 5 * minute, none⟩, rfl, rfl, rfl, ?_⟩
      simp only [List.find?_append, hnone, List.find?_singleton, decide_true, if_true,
        Option.none_or]

/-- So does every call: only the two ACL calls write previews at all. -/
theorem keepsPreviews_step (db : Db) (call : Call) :
    KeepsPreviews db.library.aclPreviews (step db call).library.aclPreviews := by
  have heffect := step_effect db call
  generalize step db call = after at heffect
  cases heffect with
  | previewAcl new => exact keepsPreviews_append _ new
  | createChildren => exact keepsPreviews_consume _ _ _
  | applyAcl performed =>
    obtain ⟨_, _, _, _, _, _, rfl⟩ := applyOperation_ok (fun _ => True) performed
    exact keepsPreviews_consume _ _ _
  | deleteDocument done =>
    obtain ⟨_, _, _, _, _, _, _, _, _, rfl⟩ := v4AdminDeleteDocument_ok done
    exact .refl _
  | same | tick | sessions | activate | reset | setUser | createFolder | rename | deleteFolder
  | stored | upload => exact .refl _

theorem keepsPreviews_run (db : Db) (calls : List Call) :
    KeepsPreviews db.library.aclPreviews (run step db calls).library.aclPreviews :=
  run_inv_of_step
    (fun s : Db => KeepsPreviews db.library.aclPreviews s.library.aclPreviews)
    (fun s call hs => hs.trans (keepsPreviews_step s call)) calls (.refl _)

/-- A preview of another version or impact is refused. -/
theorem stale_refused
    (hpreview : (db.library.aclPreviews.find? fun p => p.id = previewId) = some preview)
    (hstale : preview.authorizationVersion ≠ db.accounts.epochs.authorizationVersion ∨
      v4AclImpact db preview.operation ≠ .ok preview.impactDigest) (token : Option HexText)
    (grantId : GrantId) (impactDigest : AclImpact) :
    ∃ e, v4AdminApplyAcl db token grantId previewId impactDigest = .error e := by
  cases h : v4AdminApplyAcl db token grantId previewId impactDigest with
  | error e => exact ⟨e, rfl⟩
  | ok r =>
    obtain ⟨_, preview', _, hpreview', hok, _⟩ := v4AdminApplyAcl_performed h
    obtain rfl : preview' = preview := Option.some.inj (hpreview'.symm.trans hpreview)
    obtain ⟨hdigest, hversion, himpact⟩ := previewIsStale_ok hok
    rcases hstale with hne | hne
    · exact absurd hversion hne
    · exact absurd (hdigest ▸ himpact) hne

/-- In any state, what `v4_acl_impact` says of an operation is what applying it there
changes, and a preview that was computed at another authorization version or with
another impact is refused, whatever was called in between, and changes nothing. -/
theorem preview_tellsTruth :
    (∀ (db db' : Db) (token : Option HexText) (grantId : GrantId) (previewId : PreviewId)
      (preview : AclPreview) (impact impactDigest : AclImpact) (version : Nat),
      Keyed (·.id) db.library.nodes → Keyed (·.id) db.accounts.users →
      NewGrantId db.library grantId →
      (db.library.aclPreviews.find? fun p => p.id = previewId) = some preview →
      v4AclImpact db preview.operation = .ok impact →
      v4AdminApplyAcl db token grantId previewId impactDigest = .ok (db', version) →
      TellsTruth db db' impact) ∧
    ∀ (db db' : Db) (token : Option HexText) (previewId : PreviewId) (op : AclOperation)
      (impact : AclImpact) (calls : List Call),
      v4AdminPreviewAcl db token previewId op = .ok (db', (previewId, impact)) →
      ((run step db' calls).accounts.epochs.authorizationVersion ≠
          db.accounts.epochs.authorizationVersion ∨
        v4AclImpact (run step db' calls) op ≠ .ok impact) →
      ∀ (token' : Option HexText) (grantId : GrantId) (impactDigest : AclImpact),
        (∃ e, v4AdminApplyAcl (run step db' calls) token' grantId previewId impactDigest =
          .error e) ∧
        step (run step db' calls) (.applyAcl token' grantId previewId impactDigest) =
          run step db' calls := by
  refine ⟨?_, ?_⟩
  · intro db db' token grantId previewId preview impact impactDigest version hnodes husers hnew
      hpreview himpact happly
    exact tellsTruth_apply hnodes husers hnew hpreview himpact happly
  · intro db db' token previewId op impact calls hstored hdiffers token' grantId impactDigest
    obtain ⟨_, p, rfl, rfl, hversion, hfound⟩ := v4AdminPreviewAcl_stored hstored
    obtain ⟨_, hkept⟩ := keepsPreviews_run db' calls previewId p hfound
    have hrefused := stale_refused hkept
      (hdiffers.imp (fun hne heq => hne (heq.symm.trans hversion)) id) token' grantId impactDigest
    refine ⟨hrefused, ?_⟩
    obtain ⟨e, he⟩ := hrefused
    show commit _ (v4AdminApplyAcl _ _ _ _ _) = _
    rw [he, commit_error]

/-- What the preview of the sharing says. -/
def sharingImpact : AclImpact := ⟨.setGrant 10 (some 2) none true, [2], [32], [30], 1, 1, 1⟩

/-- The grant is applied as previewed, and refused once the member was disabled. -/
theorem preview_tellsTruth_sharing :
    TellsTruth (run step sampleDb (sharingCalls.take 4)) (run step sampleDb sharingCalls)
      sharingImpact ∧
    step (run step (run step sampleDb (sharingCalls.take 4))
        [.setUser (some (.digest 1)) 2 .member .disabled])
      (.applyAcl (some (.digest 1)) 41 40 sharingImpact) =
    run step (run step sampleDb (sharingCalls.take 4))
      [.setUser (some (.digest 1)) 2 .member .disabled] := by
  have hpreview : ∃ p, (run step sampleDb (sharingCalls.take 4)).library.aclPreviews.find?
      (fun p => p.id = 40) = some p ∧ p.operation = .setGrant 10 (some 2) none true :=
    ⟨_, by rfl, by decide +kernel⟩
  obtain ⟨p, hp, hop⟩ := hpreview
  refine ⟨?_, ?_⟩
  · refine preview_tellsTruth.1 _ _ (some (.digest 1)) 41 40 p sharingImpact sharingImpact 3 ?_ ?_ ?_
      hp ?_ ?_
    · decide +kernel
    · decide +kernel
    · exact ⟨by decide +kernel, by decide +kernel⟩
    · rw [hop]
      decide +kernel
    · decide +kernel
  · refine (preview_tellsTruth.2 (run step sampleDb (sharingCalls.take 3)) _ (some (.digest 1)) 40
      (.setGrant 10 (some 2) none true) sharingImpact
      [.setUser (some (.digest 1)) 2 .member .disabled] ?_ (Or.inl ?_)
      (some (.digest 1)) 41 sharingImpact).2
    · decide +kernel
    · decide +kernel

end LocalRag.Access
