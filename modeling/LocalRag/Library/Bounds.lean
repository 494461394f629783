import LocalRag.Library.Steps

/-!
# Depth and size of the library

`v4_create_folder` refuses a folder below depth 256 and an insert into a library
of 10000 nodes, and `move_node` refuses a move that would push a node below
depth 256. `v4_admin_commit_upload` inserts a node too and looks at neither, so
the two bounds hold after a run only if its uploads stayed within them by
themselves: `BoundsGuard` is that condition on the state a commit finds, and
`bounded_step` shows that nothing else can break them.

Depth counts nodes, as `cardinality(path_ids)` and the SQL checks do: a root has
depth 1. The proofs go by induction along the parent links (`TreeInv.induct`);
for a move, nodes outside the moved subtree keep their depth and a node `k`
links below the moved one ends at `targetDepth + 1 + k`.
-/

namespace LocalRag.Library

open LocalRag.Core Access Storage

/-- The number of nodes from `i` up to its root. -/
def nodeDepth (nodes : List LibraryNode) (i : NodeId) : Nat := (ancestry nodes i).length

/-- The bounds the library is meant to keep. -/
structure Bounded (nodes : List LibraryNode) : Prop where
  depth : ∀ n ∈ nodes, nodeDepth nodes n.id ≤ 256
  count : nodes.length ≤ 10000

/-! ## Depth along the parent links -/

variable {nodes : List LibraryNode}

/-- Induction from the roots down. -/
theorem TreeInv.induct (h : TreeInv nodes) (P : LibraryNode → Prop)
    (hstep : ∀ n ∈ nodes, (∀ m ∈ nodes, n.parentId = some m.id → P m) → P n) :
    ∀ n ∈ nodes, P n := by
  obtain ⟨rank, hrank⟩ := h.forest
  have hall : ∀ k, ∀ n ∈ nodes, rank n.id < k → P n := by
    intro k
    induction k with
    | zero =>
      intro n _ hk
      omega
    | succ k ih =>
      intro n hn hk
      refine hstep n hn fun m hm hp => ih m hm ?_
      have := hrank n hn m.id hp
      omega
  exact fun n hn => hall (rank n.id + 1) n hn (by omega)

variable {n : LibraryNode} {p : NodeId}

theorem TreeInv.parent_mem (h : TreeInv nodes) (hn : n ∈ nodes) (hp : n.parentId = some p) :
    ∃ m ∈ nodes, m.id = p := by
  obtain ⟨m, hm, hid, _⟩ := isFolder_iff.mp (h.parent n hn p hp)
  exact ⟨m, hm, hid⟩

theorem nodeDepth_root (h : TreeInv nodes) (hn : n ∈ nodes) (hp : n.parentId = none) :
    nodeDepth nodes n.id = 1 := by
  have hlink : parentOf nodes n.id = none := by rw [h.parentOf_eq hn, hp]
  rw [nodeDepth, ancestry, climb_succ_none hlink, List.length_singleton]

/-- The walk up from a node is the node and the walk up from its parent. -/
theorem ancestry_child (h : TreeInv nodes) (hn : n ∈ nodes) (hp : n.parentId = some p) :
    ancestry nodes n.id = n.id :: ancestry nodes p := by
  have hlink : parentOf nodes n.id = some p := by rw [h.parentOf_eq hn, hp]
  obtain ⟨rank, hr⟩ := h.ranked_parentOf
  obtain ⟨m, hm, rfl⟩ := h.parent_mem hn hp
  have hlen : (nodes.map (·.id)).length ≤ nodes.length := by rw [List.length_map]
  unfold ancestry
  rw [hr.climb_fuel (List.mem_map_of_mem hn) hlen (Nat.le_succ_of_le hlen),
    climb_succ_some hlink]

theorem nodeDepth_child (h : TreeInv nodes) (hn : n ∈ nodes) (hp : n.parentId = some p) :
    nodeDepth nodes n.id = nodeDepth nodes p + 1 := by
  rw [nodeDepth, ancestry_child h hn hp, List.length_cons, nodeDepth]

variable {nodes' : List LibraryNode}

/-- Rows that keep their parent, and so do their ancestors, keep their depth. -/
theorem nodeDepth_congr (h : TreeInv nodes) (h' : TreeInv nodes') (Keep : LibraryNode → Prop)
    (hup : ∀ n ∈ nodes, Keep n → ∀ m ∈ nodes, n.parentId = some m.id → Keep m)
    (hrow : ∀ n ∈ nodes, Keep n → ∃ n' ∈ nodes', n'.id = n.id ∧ n'.parentId = n.parentId) :
    ∀ n ∈ nodes, Keep n → nodeDepth nodes' n.id = nodeDepth nodes n.id := by
  refine h.induct (fun n => Keep n → nodeDepth nodes' n.id = nodeDepth nodes n.id) ?_
  intro n hn ih hkeep
  obtain ⟨n', hn', hid, hparent⟩ := hrow n hn hkeep
  cases hp : n.parentId with
  | none => rw [← hid, nodeDepth_root h' hn' (hparent.trans hp), hid, nodeDepth_root h hn hp]
  | some p =>
    obtain ⟨m, hm, rfl⟩ := h.parent_mem hn hp
    rw [← hid, nodeDepth_child h' hn' (hparent.trans hp), hid, nodeDepth_child h hn hp,
      ih m hm hp (hup n hn hkeep m hm hp)]

variable {i : NodeId}

/-- The depth that `v4_create_folder` computes with its recursion capped at 256. -/
theorem nodeDepth_le_of_cappedDepth (h : TreeInv nodes) (hi : i ∈ nodes.map (·.id))
    (hd : cappedDepth nodes i < 256) : nodeDepth nodes i < 256 := by
  obtain ⟨rank, hr⟩ := h.ranked_parentOf
  have he := hr.ends hi
  rw [List.length_map] at he
  unfold cappedDepth at hd
  unfold nodeDepth ancestry
  by_cases hlong : nodes.length ≤ 256
  · rw [← climb_eq he hlong]
    exact hd
  · -- a capped walk that stopped early had reached the root
    have he256 : Ends (parentOf nodes) 256 i := ends_of_length_le (by omega)
    rw [climb_eq he256 (by omega)]
    exact hd

/-! ## One step -/

theorem bounded_nil : Bounded [] := ⟨by simp, by simp⟩

variable {node : LibraryNode}

/-- A new leaf is one deeper than its parent; nothing else moves. -/
theorem Bounded.insert (h : TreeInv nodes) (hb : Bounded nodes) (hleaf : LeafOk nodes node)
    (hins : insertNode nodes node = .ok nodes')
    (hdepth : ∀ p, node.parentId = some p → nodeDepth nodes p < 256)
    (hcount : nodes.length < 10000) : Bounded nodes' := by
  have h' := h.insert hleaf hins
  obtain ⟨rfl, _⟩ := insertNode_ok hins
  have hold : ∀ n ∈ nodes, nodeDepth (nodes ++ [node]) n.id = nodeDepth nodes n.id := by
    intro n hn
    exact nodeDepth_congr h h' (fun _ => True) (fun _ _ _ _ _ _ => trivial)
      (fun m hm _ => ⟨m, List.mem_append_left _ hm, rfl, rfl⟩) n hn trivial
  have hnew : node ∈ nodes ++ [node] := by simp
  refine ⟨fun n hn => ?_, ?_⟩
  · rcases List.mem_append.mp hn with hn | hn
    · rw [hold n hn]
      exact hb.depth n hn
    · rw [List.mem_singleton.mp hn]
      cases hp : node.parentId with
      | none =>
        rw [nodeDepth_root h' hnew hp]
        omega
      | some p =>
        obtain ⟨m, hm, rfl, _⟩ := isFolder_iff.mp (hleaf.parent p hp)
        have := hdepth m.id hp
        rw [nodeDepth_child h' hnew hp, hold m hm]
        omega
  · rw [List.length_append, List.length_singleton]
    omega

/-- Names and boundaries are in no parent link. -/
theorem Bounded.update (h : TreeInv nodes) (hb : Bounded nodes) {f : LibraryNode → LibraryNode}
    (hf : KeepsLinks f) {p : LibraryNode → Bool} (h' : TreeInv (updateWhere p f nodes)) :
    Bounded (updateWhere p f nodes) := by
  have hrow : ∀ n ∈ nodes, True →
      ∃ n' ∈ updateWhere p f nodes, n'.id = n.id ∧ n'.parentId = n.parentId := by
    intro n hn _
    refine ⟨_, mem_updateWhere.mpr ⟨n, hn, rfl⟩, ?_⟩
    split
    · exact ⟨hf.id n, hf.parentId n⟩
    · exact ⟨rfl, rfl⟩
  refine ⟨fun n hn => ?_, ?_⟩
  · obtain ⟨n₀, hn₀, hid, _⟩ := hf.source hn
    rw [hid, nodeDepth_congr h h' (fun _ => True) (fun _ _ _ _ _ _ => trivial) hrow n₀ hn₀ trivial]
    exact hb.depth n₀ hn₀
  · rw [length_updateWhere]
    exact hb.count

/-- A removed leaf is on nobody else's walk. -/
theorem Bounded.erase (h : TreeInv nodes) (hb : Bounded nodes)
    (hleaf : ∀ n ∈ nodes, n.parentId ≠ some i) :
    Bounded (deleteWhere (fun n => n.id = i) nodes) := by
  refine ⟨fun n hn => ?_, ?_⟩
  · obtain ⟨hmem, hne⟩ := mem_deleteWhere.mp hn
    have hdepth := nodeDepth_congr h (h.erase hleaf) (fun n => n.id ≠ i)
      (fun n hn _ m _ hp he => hleaf n hn (he ▸ hp))
      (fun m hm hmi => ⟨m, mem_deleteWhere.mpr ⟨hm, by simpa using hmi⟩, rfl, rfl⟩)
      n hmem (by simpa using hne)
    rw [hdepth]
    exact hb.depth n hmem
  · have : (deleteWhere (fun n => n.id = i) nodes).length ≤ nodes.length := List.length_filter_le ..
    have := hb.count
    omega

theorem le_subtreeDepth {j : NodeId} {k : Nat} (hj : (j, k) ∈ subtree nodes i) :
    k ≤ subtreeDepth nodes i := by
  have hmax : ∀ (ks : List Nat) (m : Nat), m ≤ ks.foldl max m ∧ ∀ k ∈ ks, k ≤ ks.foldl max m := by
    intro ks
    induction ks with
    | nil => simp
    | cons a ks ih =>
      intro m
      obtain ⟨hm, hks⟩ := ih (max m a)
      rw [List.foldl_cons]
      refine ⟨by omega, fun k hk => ?_⟩
      rcases List.mem_cons.mp hk with rfl | hk
      · omega
      · exact hks k hk
  exact (hmax _ 0).2 k (List.mem_map_of_mem hj)

theorem targetDepth_eq {t : NodeId} (hfolder : isFolder nodes t = true) :
    targetDepth nodes (some t) = nodeDepth nodes t := by
  obtain ⟨n, hn⟩ := Option.isSome_iff_exists.mp (nodeById_isSome_of_isFolder hfolder)
  rw [targetDepth, Option.bind_some, hn]
  change (ancestry nodes n.id).length = nodeDepth nodes t
  rw [(nodeById_id hn).2, nodeDepth]

/-- After a move the nodes outside the moved subtree keep their depth, and a node
`k` links below the moved one lies that much below its new place. -/
theorem nodeDepth_move {target : Option NodeId} (h : TreeInv nodes) (h' : TreeInv nodes')
    (hfolder : ∀ t, target = some t → isFolder nodes t = true)
    (hcycle : ∀ t, target = some t → ¬ Reaches (parentOf nodes) t node.id)
    (hself : { node with parentId := target } ∈ nodes')
    (hother : ∀ n ∈ nodes, n.id ≠ node.id → n ∈ nodes') :
    (∀ n ∈ nodes, ¬ Reaches (parentOf nodes) n.id node.id →
      nodeDepth nodes' n.id = nodeDepth nodes n.id) ∧
    ∀ k, ∀ n ∈ nodes, Below (parentOf nodes) k n.id node.id →
      nodeDepth nodes' n.id = targetDepth nodes target + 1 + k := by
  have hkeep : ∀ n ∈ nodes, ¬ Reaches (parentOf nodes) n.id node.id →
      nodeDepth nodes' n.id = nodeDepth nodes n.id := by
    refine nodeDepth_congr h h' _ ?_ ?_
    · intro n hn' hnot m _ hp hr
      exact hnot (Relation.ReflTransGen.head ((h.parentOf_eq hn').trans hp) hr)
    · intro n hn' hnot
      refine ⟨n, hother n hn' fun he => hnot ?_, rfl, rfl⟩
      rw [he]
      exact Relation.ReflTransGen.refl
  have hmoved : nodeDepth nodes' node.id = targetDepth nodes target + 1 := by
    cases ht : target with
    | none =>
      have hroot := nodeDepth_root h' hself ht
      exact hroot
    | some t =>
      obtain ⟨m, hm, rfl, _⟩ := isFolder_iff.mp (hfolder t ht)
      have hchild := nodeDepth_child h' hself ht
      rw [hchild, hkeep m hm (hcycle m.id ht), targetDepth_eq (hfolder m.id ht)]
  refine ⟨hkeep, fun k => ?_⟩
  induction k with
  | zero =>
    intro n _ hb
    rw [show n.id = node.id from hb, hmoved, Nat.add_zero]
  | succ k ih =>
    intro n hn' hb
    obtain ⟨c, hc, hb'⟩ := below_succ_iff.mp hb
    rw [h.parentOf_eq hn'] at hc
    obtain ⟨m, hm, rfl⟩ := h.parent_mem hn' hc
    -- a proper descendant is not the moved node itself
    have hne : n.id ≠ node.id := by
      intro he
      obtain ⟨rank, hr⟩ := h.ranked_parentOf
      have hle := hr.rank_le (List.mem_map_of_mem hm) hb'.reaches
      have hlt := hr.lt n.id (List.mem_map_of_mem hn') m.id ((h.parentOf_eq hn').trans hc)
      rw [he] at hlt
      omega
    rw [nodeDepth_child h' (hother n hn' hne) hc, ih m hm hb']
    omega

theorem Bounded.move {target : Option NodeId} (h : TreeInv nodes) (hb : Bounded nodes)
    (hn : node ∈ nodes) (hfolder : ∀ t, target = some t → isFolder nodes t = true)
    (hcycle : (subtree nodes node.id).any (fun below => target = some below.1) = false)
    (hdepth : targetDepth nodes target + 1 + subtreeDepth nodes node.id ≤ 256)
    (hfree : ∀ s ∈ nodes, s.parentId = target → s.nameKey = node.nameKey → s.id = node.id) :
    Bounded (updateWhere (fun n => n.id = node.id) (fun n => { n with parentId := target })
      nodes) := by
  have hnot : ∀ t, target = some t → ¬ Reaches (parentOf nodes) t node.id := by
    rintro t rfl
    exact not_reaches_of_not_subtree h (List.mem_map_of_mem hn) hcycle
  have h' := h.move hn hfolder hnot hfree
  obtain ⟨hkeep, hbelow⟩ := nodeDepth_move h h' hfolder hnot
    (mem_updateWhere.mpr ⟨node, hn, by rw [if_pos (by simp)]⟩)
    (fun n hn' hne => mem_updateWhere.mpr ⟨n, hn', by rw [if_neg (by simpa using hne)]⟩)
  refine ⟨fun n hm => ?_, ?_⟩
  · obtain ⟨n₀, hn₀, rfl⟩ := mem_updateWhere.mp hm
    have hid : (if (n₀.id = node.id : Bool) then { n₀ with parentId := target } else n₀).id =
        n₀.id := by
      split <;> rfl
    rw [hid]
    by_cases hr : Reaches (parentOf nodes) n₀.id node.id
    · obtain ⟨k, hk⟩ := exists_below_of_reaches hr
      have := le_subtreeDepth ((mem_subtree h (List.mem_map_of_mem hn)).mpr hk)
      rw [hbelow k n₀ hn₀ hk]
      omega
    · rw [hkeep n₀ hn₀ hr]
      exact hb.depth n₀ hn₀
  · rw [length_updateWhere]
    exact hb.count

/-- One step keeps the bounds, if what it uploads fits. -/
theorem NodesStep.bounded {Uploaded : LibraryNode → Prop} (hs : NodesStep Uploaded nodes nodes')
    (h : TreeInv nodes) (hb : Bounded nodes)
    (hfits : ∀ node, Uploaded node → nodes.length < 10000 ∧
      ∀ p, node.parentId = some p → nodeDepth nodes p < 256) : Bounded nodes' := by
  cases hs with
  | same => exact hb
  | create leaf ins depth count =>
    refine hb.insert h leaf ins (fun p hp => ?_) count
    obtain ⟨m, hm, rfl, _⟩ := isFolder_iff.mp (leaf.parent p hp)
    exact nodeDepth_le_of_cappedDepth h (List.mem_map_of_mem hm) (depth m.id hp)
  | upload uploaded leaf ins =>
    obtain ⟨hcount, hdepth⟩ := hfits _ uploaded
    exact hb.insert h leaf ins hdepth hcount
  | rename name nameKey mem free =>
    exact hb.update h (keepsLinks_rename name nameKey) (h.rename mem free)
  | boundary i enabled => exact hb.update h (keepsLinks_boundary enabled) (h.setBoundary i enabled)
  | move mem folder cycle depth free => exact hb.move h mem folder cycle depth free
  | erase i leaf => exact hb.erase h leaf

/-! ## Runs -/

/-- A commit of new content finds room: a library of fewer than 10000 nodes and
a parent above depth 256. -/
def BoundsGuard (db : Db) : Call → Prop
  | .commitUpload _ _ _ request => existingUpload db request.sha256 = none →
    db.library.nodes.length < 10000 ∧
      ∀ p ∈ request.parentId, nodeDepth db.library.nodes p < 256
  | _ => True

instance (db : Db) (call : Call) : Decidable (BoundsGuard db call) := by
  unfold BoundsGuard
  split <;> infer_instance

theorem bounded_step {db : Db} {call : Call} (hguard : BoundsGuard db call)
    (h : TreeInv db.library.nodes) (hb : Bounded db.library.nodes) :
    Bounded (step db call).library.nodes := by
  refine (step_nodes db call).bounded h hb ?_
  rintro _ ⟨token, reservationId, ids, request, actor, rfl, hnew, rfl⟩
  obtain ⟨hcount, hdepth⟩ := hguard hnew
  exact ⟨hcount, hdepth⟩

end LocalRag.Library
