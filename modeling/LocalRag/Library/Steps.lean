import LocalRag.Effects

/-!
# Every way a call changes the tree

`NodesStep nodes nodes'` lists the changes of `library_nodes` that some function
makes, each with the checks that function passed before making it. The lemmas
below say that each modelled call takes one such step; an invariant of the tree
then has one case per constructor instead of one per function (`NodesStep.treeInv`
here, the bounds on depth and count in `Library.Bounds`).
-/

namespace LocalRag.Library

open LocalRag.Core Access Storage

/-- One change of the table; `Uploaded` says which file rows an upload may add. -/
inductive NodesStep (Uploaded : LibraryNode → Prop) (nodes : List LibraryNode) :
    List LibraryNode → Prop where
  | same : NodesStep Uploaded nodes nodes
  /-- `v4_create_folder`: the parent is not too deep and the library not full. -/
  | create {node : LibraryNode} {nodes' : List LibraryNode}
      (leaf : LeafOk nodes node) (ins : insertNode nodes node = .ok nodes')
      (depth : ∀ p, node.parentId = some p → cappedDepth nodes p < 256)
      (count : nodes.length < 10000) : NodesStep Uploaded nodes nodes'
  /-- `v4_admin_commit_upload`: neither depth nor count is looked at. -/
  | upload {node : LibraryNode} {nodes' : List LibraryNode}
      (uploaded : Uploaded node) (leaf : LeafOk nodes node)
      (ins : insertNode nodes node = .ok nodes') : NodesStep Uploaded nodes nodes'
  /-- `v4_admin_rename_library_node`. -/
  | rename {node : LibraryNode} (name nameKey : String) (mem : node ∈ nodes)
      (free : siblingNameTaken nodes node.id node.parentId nameKey = false) :
      NodesStep Uploaded nodes (updateWhere (fun n => n.id = node.id)
        (fun n => { n with name := name, nameKey := nameKey }) nodes)
  /-- `set_boundary`. -/
  | boundary (i : NodeId) (enabled : Bool) :
      NodesStep Uploaded nodes (updateWhere (fun n => n.id = i ∧ n.kind = .folder)
        (fun n => { n with accessBoundary := enabled }) nodes)
  /-- `move_node`. -/
  | move {node : LibraryNode} {target : Option NodeId} (mem : node ∈ nodes)
      (folder : ∀ t, target = some t → isFolder nodes t = true)
      (cycle : (subtree nodes node.id).any (fun below => target = some below.1) = false)
      (depth : targetDepth nodes target + 1 + subtreeDepth nodes node.id ≤ 256)
      (free : ∀ s ∈ nodes, s.parentId = target → s.nameKey = node.nameKey → s.id = node.id) :
      NodesStep Uploaded nodes (updateWhere (fun n => n.id = node.id)
        (fun n => { n with parentId := target }) nodes)
  /-- `v4_admin_delete_folder`, and the file node of a deleted document. -/
  | erase (i : NodeId) (leaf : ∀ n ∈ nodes, n.parentId ≠ some i) :
      NodesStep Uploaded nodes (deleteWhere (fun n => n.id = i) nodes)

/-! ## The forest survives each of them -/

theorem keepsLinks_rename (name nameKey : String) :
    KeepsLinks fun n => { n with name := name, nameKey := nameKey } :=
  ⟨fun _ => rfl, fun _ => rfl, fun _ => rfl, fun _ => rfl, fun _ => rfl⟩

theorem keepsLinks_boundary (enabled : Bool) :
    KeepsLinks fun n => { n with accessBoundary := enabled } :=
  ⟨fun _ => rfl, fun _ => rfl, fun _ => rfl, fun _ => rfl, fun _ => rfl⟩

variable {nodes : List LibraryNode}

theorem TreeInv.rename (h : TreeInv nodes) {node : LibraryNode} (hn : node ∈ nodes)
    {name nameKey : String} (hfree : siblingNameTaken nodes node.id node.parentId nameKey = false) :
    TreeInv (updateWhere (fun n => n.id = node.id)
      (fun n => { n with name := name, nameKey := nameKey }) nodes) := by
  have hother : ∀ s ∈ nodes, s.id ≠ node.id → s.parentId = node.parentId →
      s.nameKey ≠ nameKey := by
    intro s hs hne hp hk
    rw [siblingNameTaken, List.any_eq_false] at hfree
    exact hfree s hs (by simp [hne, hp, hk])
  have hmem : ∀ n ∈ updateWhere (fun n : LibraryNode => n.id = node.id)
      (fun n => { n with name := name, nameKey := nameKey }) nodes,
      n = { node with name := name, nameKey := nameKey } ∨ (n ∈ nodes ∧ n.id ≠ node.id) :=
    fun n hm => h.keyed.mem_rewritten hn hm
  refine h.update (keepsLinks_rename name nameKey) ?_ ?_
  · intro a ha b hb hp hk
    rcases hmem a ha with rfl | ⟨ha', hane⟩ <;> rcases hmem b hb with rfl | ⟨hb', hbne⟩
    · rfl
    · exact absurd hk.symm (hother b hb' hbne hp.symm)
    · exact absurd hk (hother a ha' hane hp)
    · exact h.siblings a ha' b hb' hp hk
  · intro n hm hb
    rcases hmem n hm with rfl | ⟨hm', _⟩
    · exact h.boundary node hn hb
    · exact h.boundary n hm' hb

theorem TreeInv.setBoundary (h : TreeInv nodes) (i : NodeId) (enabled : Bool) :
    TreeInv (updateWhere (fun n => n.id = i ∧ n.kind = .folder)
      (fun n => { n with accessBoundary := enabled }) nodes) := by
  refine h.update (keepsLinks_boundary enabled) ?_ ?_
  · intro a ha b hb hp hk
    obtain ⟨a₀, ha₀, rfl⟩ := mem_updateWhere.mp ha
    obtain ⟨b₀, hb₀, rfl⟩ := mem_updateWhere.mp hb
    have hcols : ∀ n : LibraryNode, (if (n.id = i ∧ n.kind = .folder : Bool) then
        { n with accessBoundary := enabled } else n).id = n.id ∧
        (if (n.id = i ∧ n.kind = .folder : Bool) then
          { n with accessBoundary := enabled } else n).parentId = n.parentId ∧
        (if (n.id = i ∧ n.kind = .folder : Bool) then
          { n with accessBoundary := enabled } else n).nameKey = n.nameKey := by
      intro n
      split <;> exact ⟨rfl, rfl, rfl⟩
    rw [(hcols a₀).1, (hcols b₀).1]
    rw [(hcols a₀).2.1, (hcols b₀).2.1] at hp
    rw [(hcols a₀).2.2, (hcols b₀).2.2] at hk
    exact h.siblings a₀ ha₀ b₀ hb₀ hp hk
  · intro n hm hb
    obtain ⟨n₀, hn₀, rfl⟩ := mem_updateWhere.mp hm
    by_cases hc : n₀.id = i ∧ n₀.kind = .folder
    · rw [if_pos (by simpa using hc)]
      exact hc.2
    · rw [if_neg (by simpa using hc)] at hb ⊢
      exact h.boundary n₀ hn₀ hb

/-- One step keeps the forest. -/
theorem NodesStep.treeInv {Uploaded : LibraryNode → Prop} {nodes' : List LibraryNode}
    (hs : NodesStep Uploaded nodes nodes') (h : TreeInv nodes) : TreeInv nodes' := by
  cases hs with
  | same => exact h
  | create leaf ins _ _ => exact h.insert leaf ins
  | upload _ leaf ins => exact h.insert leaf ins
  | rename name nameKey mem free => exact h.rename mem free
  | boundary i enabled => exact h.setBoundary i enabled
  | move mem folder cycle _ free =>
    refine h.move mem folder ?_ free
    rintro t rfl
    exact not_reaches_of_not_subtree h (List.mem_map_of_mem mem) cycle
  | erase i leaf => exact h.erase leaf

/-! ## Each call takes one of them -/

theorem leafOk_folderNode {nodeId : NodeId} {parentId : Option NodeId} {name nameKey : String}
    (h : ∀ p, parentId = some p → isFolder nodes p = true) :
    LeafOk nodes (folderNode nodeId parentId name nameKey) where
  parent := h
  file := by simp [folderNode]
  folder := fun _ => ⟨rfl, rfl⟩
  boundary := rfl

theorem leafOk_fileNode {actor : UserId} {ids : CommitIds} {request : UploadRequest}
    (h : ∀ p, request.parentId = some p → isFolder nodes p = true) :
    LeafOk nodes (fileNode actor ids request) where
  parent := h
  file := fun _ => ⟨rfl, rfl⟩
  folder := by simp [fileNode]
  boundary := rfl

/-- Every document that had a node still has one. -/
def KeepsPlaces (nodes nodes' : List LibraryNode) : Prop :=
  ∀ n ∈ nodes, ∀ d, n.documentId = some d → ∃ n' ∈ nodes', n'.documentId = some d

theorem KeepsPlaces.refl (nodes : List LibraryNode) : KeepsPlaces nodes nodes :=
  fun n hn _ hd => ⟨n, hn, hd⟩

theorem keepsPlaces_updateWhere {p : LibraryNode → Bool} {f : LibraryNode → LibraryNode}
    (hf : ∀ n, (f n).documentId = n.documentId) : KeepsPlaces nodes (updateWhere p f nodes) := by
  intro n hn d hd
  refine ⟨_, mem_updateWhere.mpr ⟨n, hn, rfl⟩, ?_⟩
  split
  · exact (hf n).trans hd
  · exact hd

/-- An ACL operation takes one step on the tree that loses no document's place,
and besides writes grants, memberships and teams. -/
theorem applyOperation_ok {db db' : Db} {grantId : GrantId} {op : AclOperation}
    (Uploaded : LibraryNode → Prop) (h : applyOperation db grantId op = .ok db') :
    ∃ nodes grants members teams, NodesStep Uploaded db.library.nodes nodes ∧
      KeepsPlaces db.library.nodes nodes ∧ db' = { db with
        library.nodes := nodes
        library.accessGrants := grants
        accounts.teamMembers := members
        accounts.teams := teams } := by
  cases op with
  | setGrant nodeId userId teamId present =>
    obtain ⟨grants, rfl⟩ := applySetGrant_ok h
    exact ⟨_, grants, _, _, .same, .refl _, rfl⟩
  | setMembership teamId userId present =>
    obtain ⟨members, rfl⟩ := applySetMembership_ok h
    exact ⟨_, _, members, _, .same, .refl _, rfl⟩
  | setBoundary nodeId enabled =>
    simp only [applyOperation, applySetBoundary] at h
    split at h
    · exact ⟨_, _, _, _, .boundary nodeId enabled, keepsPlaces_updateWhere fun _ => rfl,
        (Except.ok.inj h).symm⟩
    · cases h
  | setTeamActive teamId active =>
    exact ⟨_, _, _, _, .same, .refl _, (Except.ok.inj h).symm⟩
  | moveNode nodeId parentId =>
    obtain ⟨node, hnode, hfolder, hcycle, hdepth, hfree, rfl⟩ := applyMoveNode_ok h
    exact ⟨_, _, _, _, .move (nodeById_id hnode).1 hfolder hcycle hdepth hfree,
      keepsPlaces_updateWhere fun _ => rfl, rfl⟩
  | setCreateChildrenGrant folderId userId teamId present =>
    cases h

/-- The file rows a call may add: the one of an upload whose content is new. -/
def UploadedBy (db : Db) (call : Call) (node : LibraryNode) : Prop :=
  ∃ token reservationId ids request actor,
    call = .commitUpload token reservationId ids request ∧
    existingUpload db request.sha256 = none ∧ node = fileNode actor ids request

/-- Every effect is one step on the tree. -/
theorem effect_nodes {db db' : Db} {call : Call} (h : Effect db call db') :
    NodesStep (UploadedBy db call) db.library.nodes db'.library.nodes := by
  cases h with
  | createFolder inserted parent few =>
    exact .create (leafOk_folderNode fun p hp => (parent p hp).1) inserted
      (fun p hp => (parent p hp).2) few
  | rename mem free => exact .rename _ _ mem free
  | @deleteFolder _ node _ _ leaf => exact .erase node.id leaf
  | applyAcl performed =>
    obtain ⟨_, _, _, _, hstep, _, rfl⟩ := applyOperation_ok _ performed
    exact hstep
  | @upload token actor reservationId ids request _ _ new _ node parent =>
    exact .upload ⟨token, reservationId, ids, request, actor, rfl, new, rfl⟩
      (leafOk_fileNode parent) node
  | deleteDocument done =>
    obtain ⟨_, _, node, _, _, _, _, _, hleaf, rfl⟩ := v4AdminDeleteDocument_ok done
    exact .erase node.id hleaf
  | same | tick | sessions | activate | reset | setUser | previewAcl | createChildren | stored =>
    exact .same

/-- Every call of the system takes one step on the tree. -/
theorem step_nodes (db : Db) (call : Call) :
    NodesStep (UploadedBy db call) db.library.nodes (step db call).library.nodes :=
  effect_nodes (step_effect db call)

/-- The library is a forest after every run. -/
theorem treeInv_run {db : Db} (h : Installed db) (calls : List Call) :
    TreeInv (run step db calls).library.nodes := by
  refine run_inv_of_step (fun db : Db => TreeInv db.library.nodes) ?_ calls ?_
  · exact fun db call hdb => (step_nodes db call).treeInv hdb
  · rw [h.nodes]
    exact treeInv_nil

end LocalRag.Library
