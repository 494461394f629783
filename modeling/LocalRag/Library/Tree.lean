import LocalRag.Access.Acl
import LocalRag.Library.Folders

/-!
# The library is a forest

`TreeInv` collects what the constraints of `library_nodes` and the checks of the
functions that write it keep true of the table: unique ids, parents that exist
and are folders, no cycle (a rank that drops along every parent link), unique
sibling names, and the column constraints that tie `kind` to the document, the
uploader and the boundary.

No constraint of the schema excludes a cycle; it is excluded because a new row
is a leaf (`TreeInv.insert`), only a leaf is removed (`TreeInv.erase`), and a
move goes to a target outside the moved subtree (`TreeInv.move`, where the moved
subtree is lifted above the target in rank). Depth and count are not here: the
upload commit checks neither, see `Library.Bounds`.

The second half is the frame side: which walks each change leaves as they were.
-/

namespace LocalRag.Library

open LocalRag.Core Access

/-- The library table is a forest of folders with files at its leaves. -/
structure TreeInv (nodes : List LibraryNode) : Prop where
  keyed : Keyed (·.id) nodes
  parent : ∀ n ∈ nodes, ∀ p, n.parentId = some p → isFolder nodes p = true
  forest : ∃ rank : NodeId → Nat,
    ∀ n ∈ nodes, ∀ p, n.parentId = some p → rank p < rank n.id
  siblings : ∀ a ∈ nodes, ∀ b ∈ nodes, a.parentId = b.parentId → a.nameKey = b.nameKey →
    a.id = b.id
  file : ∀ n ∈ nodes, n.kind = .file → n.documentId.isSome ∧ n.uploaderUserId.isSome
  folder : ∀ n ∈ nodes, n.kind = .folder → n.documentId = none ∧ n.uploaderUserId = none
  boundary : ∀ n ∈ nodes, n.accessBoundary = true → n.kind = .folder

theorem treeInv_nil : TreeInv [] where
  keyed := Keyed.nil _
  parent := by simp
  forest := ⟨fun _ => 0, by simp⟩
  siblings := by simp
  file := by simp
  folder := by simp
  boundary := by simp

/-! ## Lookups -/

variable {i : NodeId}

theorem isFolder_iff {nodes : List LibraryNode} :
    isFolder nodes i = true ↔ ∃ n ∈ nodes, n.id = i ∧ n.kind = .folder := by
  simp [isFolder]

variable {n : LibraryNode}

theorem nodeById_eq_some {nodes : List LibraryNode} (h : Keyed (·.id) nodes) :
    nodeById nodes i = some n ↔ n ∈ nodes ∧ n.id = i :=
  h.find_eq_some

theorem nodeById_of_mem {nodes : List LibraryNode} (h : Keyed (·.id) nodes) (hn : n ∈ nodes) :
    nodeById nodes n.id = some n :=
  (nodeById_eq_some h).mpr ⟨hn, rfl⟩

theorem nodeById_isSome_of_isFolder {nodes : List LibraryNode} (h : isFolder nodes i = true) :
    (nodeById nodes i).isSome := by
  obtain ⟨n, hn, hi, _⟩ := isFolder_iff.mp h
  rw [nodeById, List.find?_isSome]
  exact ⟨n, hn, by simpa using hi⟩

theorem nodeById_id {nodes : List LibraryNode} (h : nodeById nodes i = some n) :
    n ∈ nodes ∧ n.id = i :=
  ⟨List.mem_of_find?_eq_some h, by simpa using List.find?_some h⟩

/-- A parent link is a row with that parent. -/
theorem parentOf_eq_some {nodes : List LibraryNode} {p : NodeId} (h : parentOf nodes i = some p) :
    ∃ n ∈ nodes, n.id = i ∧ n.parentId = some p ∧ ∃ m ∈ nodes, m.id = p := by
  unfold parentOf at h
  obtain ⟨n, hn, h⟩ := Option.bind_eq_some_iff.mp h
  obtain ⟨q, hq, h⟩ := Option.bind_eq_some_iff.mp h
  obtain ⟨m, hm, rfl⟩ := Option.map_eq_some_iff.mp h
  obtain ⟨hnm, hni⟩ := nodeById_id hn
  obtain ⟨hmm, hmi⟩ := nodeById_id hm
  exact ⟨n, hnm, hni, by rw [hq, hmi], m, hmm, rfl⟩

namespace TreeInv

variable {nodes : List LibraryNode}

/-- In a well-formed tree the parent link of a row is its parent column. -/
theorem parentOf_eq (h : TreeInv nodes) (hn : n ∈ nodes) : parentOf nodes n.id = n.parentId := by
  unfold parentOf
  rw [nodeById_of_mem h.keyed hn, Option.bind_some]
  cases hp : n.parentId with
  | none => rfl
  | some p =>
    obtain ⟨m, hm⟩ := Option.isSome_iff_exists.mp
      (nodeById_isSome_of_isFolder (h.parent n hn p hp))
    rw [Option.bind_some, hm, Option.map_some, (nodeById_id hm).2]

theorem inheritsFrom_eq (h : TreeInv nodes) (hn : n ∈ nodes) :
    inheritsFrom nodes n.id = if n.accessBoundary then none else n.parentId := by
  unfold inheritsFrom
  rw [nodeById_of_mem h.keyed hn, Option.bind_some, h.parentOf_eq hn]

theorem mem_ids : i ∈ nodes.map (·.id) ↔ ∃ n ∈ nodes, n.id = i := by
  simp

/-- The parent links of the table form a finite forest. -/
theorem ranked_parentOf (h : TreeInv nodes) :
    ∃ rank, Ranked (parentOf nodes) (nodes.map (·.id)) rank := by
  obtain ⟨rank, hrank⟩ := h.forest
  refine ⟨rank, ⟨fun a _ b hb => ?_, fun a _ b hb => ?_⟩⟩
  · obtain ⟨_, _, _, _, m, hm, hmb⟩ := parentOf_eq_some hb
    exact mem_ids.mpr ⟨m, hm, hmb⟩
  · obtain ⟨n, hn, rfl, hp, _⟩ := parentOf_eq_some hb
    exact hrank n hn b hp

theorem inheritsFrom_parentOf {p : NodeId} (h : inheritsFrom nodes i = some p) :
    parentOf nodes i = some p := by
  unfold inheritsFrom at h
  obtain ⟨n, _, h⟩ := Option.bind_eq_some_iff.mp h
  split at h
  · exact absurd h (by simp)
  · exact h

/-- So do the links grants are inherited along. -/
theorem ranked_inheritsFrom (h : TreeInv nodes) :
    ∃ rank, Ranked (inheritsFrom nodes) (nodes.map (·.id)) rank := by
  obtain ⟨rank, hr⟩ := h.ranked_parentOf
  exact ⟨rank, ⟨fun a ha b hb => hr.mem a ha b (inheritsFrom_parentOf hb),
    fun a ha b hb => hr.lt a ha b (inheritsFrom_parentOf hb)⟩⟩

end TreeInv

/-! ## Inserting a leaf -/

variable {node : LibraryNode}

/-- What a successful insert says about the row and the table. -/
theorem insertNode_ok {nodes nodes' : List LibraryNode} (h : insertNode nodes node = .ok nodes') :
    nodes' = nodes ++ [node] ∧ (∀ n ∈ nodes, n.id ≠ node.id) ∧
      (∀ n ∈ nodes, n.parentId = node.parentId → n.nameKey ≠ node.nameKey) ∧
      (∀ d, node.documentId = some d → ∀ n ∈ nodes, n.documentId ≠ some d) := by
  unfold insertNode at h
  simp only [ite_error_eq_ok] at h
  obtain ⟨_, _, _, hid, hname, hdoc, _, h⟩ := h
  have hfresh : ∀ n ∈ nodes, n.id ≠ node.id := by simpa using hid
  refine ⟨(Except.ok.inj h).symm, hfresh, ?_, ?_⟩
  · intro n hn hp hk
    refine hname ?_
    rw [siblingNameTaken, List.any_eq_true]
    exact ⟨n, hn, by simp [hfresh n hn, hp, hk]⟩
  · intro d hd n hn he
    refine hdoc ⟨by simp [hd], ?_⟩
    rw [List.any_eq_true]
    exact ⟨n, hn, by simp [he, hd]⟩

theorem isFolder_append {nodes : List LibraryNode} (h : isFolder nodes i = true) :
    isFolder (nodes ++ [node]) i = true := by
  obtain ⟨n, hn, hi, hk⟩ := isFolder_iff.mp h
  exact isFolder_iff.mpr ⟨n, List.mem_append_left _ hn, hi, hk⟩

/-- A row whose columns are consistent and whose parent is a folder. -/
structure LeafOk (nodes : List LibraryNode) (node : LibraryNode) : Prop where
  parent : ∀ p, node.parentId = some p → isFolder nodes p = true
  file : node.kind = .file → node.documentId.isSome ∧ node.uploaderUserId.isSome
  folder : node.kind = .folder → node.documentId = none ∧ node.uploaderUserId = none
  boundary : node.accessBoundary = false

/-- A new leaf keeps the forest: its rank is one above its parent's. -/
theorem TreeInv.insert {nodes nodes' : List LibraryNode} (h : TreeInv nodes)
    (hleaf : LeafOk nodes node) (hins : insertNode nodes node = .ok nodes') : TreeInv nodes' := by
  obtain ⟨rfl, hid, hname, _⟩ := insertNode_ok hins
  have hmem : ∀ n ∈ nodes ++ [node], n ∈ nodes ∨ n = node := by
    intro n hn
    simpa using hn
  refine ⟨h.keyed.append hid, ?_, ?_, ?_, ?_, ?_, ?_⟩
  · intro n hn p hp
    rcases hmem n hn with hn | rfl
    · exact isFolder_append (h.parent n hn p hp)
    · exact isFolder_append (hleaf.parent p hp)
  · obtain ⟨rank, hrank⟩ := h.forest
    -- the new id is nobody's parent, so its rank is free to choose
    have hne : ∀ p, isFolder nodes p = true → p ≠ node.id := by
      intro p hp he
      obtain ⟨m, hm, hmp, _⟩ := isFolder_iff.mp hp
      exact hid m hm (hmp.trans he)
    refine ⟨fun i => if i = node.id then (node.parentId.elim 0 rank) + 1 else rank i, ?_⟩
    intro n hn p hp
    beta_reduce
    rcases hmem n hn with hn | rfl
    · rw [if_neg (hne p (h.parent n hn p hp)), if_neg (hid n hn)]
      exact hrank n hn p hp
    · rw [if_neg (hne p (hleaf.parent p hp)), if_pos rfl, hp]
      simp
  · intro a ha b hb hp hk
    rcases hmem a ha with ha' | rfl <;> rcases hmem b hb with hb' | rfl
    · exact h.siblings a ha' b hb' hp hk
    · exact absurd hk (hname a ha' hp)
    · exact absurd hk.symm (hname b hb' hp.symm)
    · rfl
  · intro n hn hk
    rcases hmem n hn with hn | rfl
    · exact h.file n hn hk
    · exact hleaf.file hk
  · intro n hn hk
    rcases hmem n hn with hn | rfl
    · exact h.folder n hn hk
    · exact hleaf.folder hk
  · intro n hn hb
    rcases hmem n hn with hn | rfl
    · exact h.boundary n hn hb
    · exact absurd hb (by rw [hleaf.boundary]; simp)

/-! ## Removing a leaf -/

/-- Removing a row that is nobody's parent keeps the forest. -/
theorem TreeInv.erase {nodes : List LibraryNode} (h : TreeInv nodes)
    (hleaf : ∀ n ∈ nodes, n.parentId ≠ some i) :
    TreeInv (deleteWhere (fun n => n.id = i) nodes) := by
  have hmem : ∀ n ∈ deleteWhere (fun n : LibraryNode => n.id = i) nodes, n ∈ nodes := by
    intro n hn
    exact (mem_deleteWhere.mp hn).1
  refine ⟨h.keyed.deleteWhere _, ?_, ?_, ?_, ?_, ?_, ?_⟩
  · intro n hn p hp
    obtain ⟨m, hm, hmp, hk⟩ := isFolder_iff.mp (h.parent n (hmem n hn) p hp)
    refine isFolder_iff.mpr ⟨m, mem_deleteWhere.mpr ⟨hm, ?_⟩, hmp, hk⟩
    have hne : p ≠ i := fun he => hleaf n (hmem n hn) (he ▸ hp)
    simpa [hmp] using hne
  · obtain ⟨rank, hrank⟩ := h.forest
    exact ⟨rank, fun n hn p hp => hrank n (hmem n hn) p hp⟩
  · exact fun a ha b hb => h.siblings a (hmem a ha) b (hmem b hb)
  · exact fun n hn => h.file n (hmem n hn)
  · exact fun n hn => h.folder n (hmem n hn)
  · exact fun n hn => h.boundary n (hmem n hn)

/-! ## Updates that leave the links alone -/

/-- The update writes names or the boundary, not the columns the tree is made of. -/
structure KeepsLinks (f : LibraryNode → LibraryNode) : Prop where
  id : ∀ n, (f n).id = n.id
  parentId : ∀ n, (f n).parentId = n.parentId
  kind : ∀ n, (f n).kind = n.kind
  documentId : ∀ n, (f n).documentId = n.documentId
  uploaderUserId : ∀ n, (f n).uploaderUserId = n.uploaderUserId

variable {f : LibraryNode → LibraryNode}

/-- Every row after such an update is a row before it, up to names and boundary. -/
theorem KeepsLinks.source (hf : KeepsLinks f) {p : LibraryNode → Bool} {nodes : List LibraryNode}
    (hn : n ∈ updateWhere p f nodes) :
    ∃ n₀ ∈ nodes, n.id = n₀.id ∧ n.parentId = n₀.parentId ∧ n.kind = n₀.kind ∧
      n.documentId = n₀.documentId ∧ n.uploaderUserId = n₀.uploaderUserId := by
  obtain ⟨n₀, hn₀, rfl⟩ := mem_updateWhere.mp hn
  refine ⟨n₀, hn₀, ?_⟩
  split
  · exact ⟨hf.id _, hf.parentId _, hf.kind _, hf.documentId _, hf.uploaderUserId _⟩
  · exact ⟨rfl, rfl, rfl, rfl, rfl⟩

theorem isFolder_updateWhere (hf : KeepsLinks f) (p : LibraryNode → Bool)
    (nodes : List LibraryNode) (i : NodeId) :
    isFolder (updateWhere p f nodes) i = isFolder nodes i := by
  simp only [isFolder, updateWhere, List.any_map]
  congr 1
  funext n
  simp only [Function.comp]
  split
  · rw [hf.id, hf.kind]
  · rfl

theorem TreeInv.update {nodes : List LibraryNode} (h : TreeInv nodes) (hf : KeepsLinks f)
    {p : LibraryNode → Bool}
    (hsib : ∀ a ∈ updateWhere p f nodes, ∀ b ∈ updateWhere p f nodes,
      a.parentId = b.parentId → a.nameKey = b.nameKey → a.id = b.id)
    (hbound : ∀ n ∈ updateWhere p f nodes, n.accessBoundary = true → n.kind = .folder) :
    TreeInv (updateWhere p f nodes) := by
  refine ⟨h.keyed.updateWhere hf.id, ?_, ?_, hsib, ?_, ?_, hbound⟩
  · intro n hn q hq
    obtain ⟨n₀, hn₀, _, hp, _⟩ := hf.source hn
    rw [isFolder_updateWhere hf]
    exact h.parent n₀ hn₀ q (hp ▸ hq)
  · obtain ⟨rank, hrank⟩ := h.forest
    refine ⟨rank, fun n hn q hq => ?_⟩
    obtain ⟨n₀, hn₀, hid, hp, _⟩ := hf.source hn
    rw [hid]
    exact hrank n₀ hn₀ q (hp ▸ hq)
  · intro n hn hk
    obtain ⟨n₀, hn₀, _, _, hkind, hdoc, hup⟩ := hf.source hn
    rw [hdoc, hup]
    exact h.file n₀ hn₀ (hkind ▸ hk)
  · intro n hn hk
    obtain ⟨n₀, hn₀, _, _, hkind, hdoc, hup⟩ := hf.source hn
    rw [hdoc, hup]
    exact h.folder n₀ hn₀ (hkind ▸ hk)

/-! ## Moving a subtree -/

theorem childrenOf_iff {nodes : List LibraryNode} (h : TreeInv nodes) {a b : NodeId} :
    b ∈ childrenOf nodes a ↔ parentOf nodes b = some a := by
  simp only [childrenOf, List.mem_map, List.mem_filter, decide_eq_true_eq]
  constructor
  · rintro ⟨n, ⟨hn, hp⟩, rfl⟩
    rw [h.parentOf_eq hn, hp]
  · intro hp
    obtain ⟨n, hn, rfl, hnp, _⟩ := parentOf_eq_some hp
    exact ⟨n, ⟨hn, hnp⟩, rfl⟩

/-- The subtree of a node: everything below it, with the distance. -/
theorem mem_subtree {nodes : List LibraryNode} (h : TreeInv nodes) (hi : i ∈ nodes.map (·.id))
    {j : NodeId} {k : Nat} : (j, k) ∈ subtree nodes i ↔ Below (parentOf nodes) k j i := by
  obtain ⟨n, hn, rfl⟩ := List.mem_map.mp hi
  obtain ⟨rank, hr⟩ := h.ranked_parentOf
  have hclosed : ∀ a ∈ nodes.map (·.id), ∀ b ∈ childrenOf nodes a, b ∈ nodes.map (·.id) := by
    intro a _ b hb
    obtain ⟨m, hm, rfl, _⟩ := parentOf_eq_some ((childrenOf_iff h).mp hb)
    exact List.mem_map_of_mem hm
  have hfront : ((nodeById nodes n.id).map (·.id)).toList = [n.id] := by
    rw [nodeById_of_mem h.keyed hn]
    rfl
  rw [subtree, hfront, mem_descend (fun a _ b => childrenOf_iff h) hclosed
    (by simpa using hi)]
  constructor
  · rintro ⟨d, _, rfl, a, ha, hb⟩
    rw [List.mem_singleton] at ha
    rwa [Nat.zero_add, ← ha]
  · intro hb
    refine ⟨k, ?_, by omega, n.id, List.mem_singleton_self _, hb⟩
    -- the walk up from `j` ends within the table, so `j` is not deeper than that
    cases k with
    | zero => exact Nat.zero_le _
    | succ k =>
      obtain ⟨c, hjc, _⟩ := below_succ_iff.mp hb
      obtain ⟨m, hm, rfl, _⟩ := parentOf_eq_some hjc
      have he := hr.ends (List.mem_map_of_mem hm)
      rw [List.length_map] at he
      exact hb.le_of_ends he

/-- The cycle check of a move: the target is in no way below the moved node. -/
theorem not_reaches_of_not_subtree {nodes : List LibraryNode} (h : TreeInv nodes) {t : NodeId}
    (hi : i ∈ nodes.map (·.id))
    (hc : (subtree nodes i).any (fun below => some t = some below.1) = false) :
    ¬ Reaches (parentOf nodes) t i := by
  intro hr
  obtain ⟨k, hk⟩ := exists_below_of_reaches hr
  rw [List.any_eq_false] at hc
  exact hc (t, k) ((mem_subtree h hi).mpr hk) (by simp)

/-- A move to a folder outside the moved subtree keeps the forest: the subtree
is ranked above the target. -/
theorem TreeInv.move {nodes : List LibraryNode} (h : TreeInv nodes) (hn : node ∈ nodes)
    {target : Option NodeId} (hfolder : ∀ t, target = some t → isFolder nodes t = true)
    (hcycle : ∀ t, target = some t → ¬ Reaches (parentOf nodes) t node.id)
    (hsib : ∀ s ∈ nodes, s.parentId = target → s.nameKey = node.nameKey → s.id = node.id) :
    TreeInv (updateWhere (fun n => n.id = node.id) (fun n => { n with parentId := target })
      nodes) := by
  have hmem : ∀ n ∈ updateWhere (fun n : LibraryNode => n.id = node.id)
      (fun n => { n with parentId := target }) nodes,
      n = { node with parentId := target } ∨ (n ∈ nodes ∧ n.id ≠ node.id) :=
    fun n hm => h.keyed.mem_rewritten hn hm
  have hfold : ∀ i, isFolder nodes i = true →
      isFolder (updateWhere (fun n => n.id = node.id) (fun n => { n with parentId := target })
        nodes) i = true := by
    intro i hi
    obtain ⟨m, hm, hmi, hk⟩ := isFolder_iff.mp hi
    refine isFolder_iff.mpr ⟨_, mem_updateWhere.mpr ⟨m, hm, rfl⟩, ?_⟩
    split
    · exact ⟨hmi, hk⟩
    · exact ⟨hmi, hk⟩
  refine ⟨h.keyed.updateWhere fun _ => rfl, ?_, ?_, ?_, ?_, ?_, ?_⟩
  · intro n hm p hp
    rcases hmem n hm with rfl | ⟨hm', _⟩
    · exact hfold p (hfolder p hp)
    · exact hfold p (h.parent n hm' p hp)
  · classical
    obtain ⟨rank, hrank⟩ := h.forest
    let lift := target.elim 0 rank + 1
    refine ⟨fun j => if Reaches (parentOf nodes) j node.id then rank j + lift else rank j, ?_⟩
    intro n hm p hp
    beta_reduce
    rcases hmem n hm with rfl | ⟨hm', hne⟩
    · -- the moved node is in its own subtree, the target is not
      have ht : target = some p := hp
      have hself : Reaches (parentOf nodes) node.id node.id := Relation.ReflTransGen.refl
      rw [if_neg (hcycle p ht), if_pos hself]
      simp only [lift, ht, Option.elim_some]
      omega
    · -- any other link lies inside the subtree or outside it
      have hlink : parentOf nodes n.id = some p := (h.parentOf_eq hm').trans hp
      have hiff : Reaches (parentOf nodes) n.id node.id ↔
          Reaches (parentOf nodes) p node.id := by
        constructor
        · intro hr
          rcases Relation.ReflTransGen.cases_head hr with he | ⟨c, hc, hr'⟩
          · exact absurd he hne
          · obtain rfl : c = p := by simpa [hlink] using hc.symm
            exact hr'
        · exact fun hr => Relation.ReflTransGen.head hlink hr
      have hlt := hrank n hm' p hp
      by_cases hr : Reaches (parentOf nodes) p node.id
      · rw [if_pos hr, if_pos (hiff.mpr hr)]
        omega
      · rw [if_neg hr, if_neg (fun hc => hr (hiff.mp hc))]
        exact hlt
  · intro a ha b hb hp hk
    rcases hmem a ha with rfl | ⟨ha', _⟩ <;> rcases hmem b hb with rfl | ⟨hb', _⟩
    · rfl
    · exact (hsib b hb' hp.symm hk.symm).symm
    · exact hsib a ha' hp hk
    · exact h.siblings a ha' b hb' hp hk
  · intro n hm hk
    rcases hmem n hm with rfl | ⟨hm', _⟩
    · exact h.file node hn hk
    · exact h.file n hm' hk
  · intro n hm hk
    rcases hmem n hm with rfl | ⟨hm', _⟩
    · exact h.folder node hn hk
    · exact h.folder n hm' hk
  · intro n hm hb
    rcases hmem n hm with rfl | ⟨hm', _⟩
    · exact h.boundary node hn hb
    · exact h.boundary n hm' hb

end LocalRag.Library
