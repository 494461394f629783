import LocalRag.Library.Browse

/-!
# The access walks agree

Four recursive queries decide about one tree: the rebuild and
`v4_can_read_folder` climb from a node and stop after the first boundary,
`v4_can_view_library_node` descends, and `v4_can_read_document` reads the rows
the rebuild left. Right after a rebuild they tell one story (`walks_agree`): a
file is read by its uploader, by whoever a grant on the file itself names, and
by whoever can read the folder it lies in; what a reader may read they are
shown, with every folder above it.

The climb from a file splits at its first link (`inherits_file_iff`): only
folders carry a boundary, so a file always inherits from its parent, and
whether that parent is a boundary matters only above it.
-/

namespace LocalRag.Library

open LocalRag.Core Access

/-! ## One link of the climb -/

variable {db : Db} {u : UserId} {i : NodeId}

theorem isGrantedOn_iff : isGrantedOn db u i = true ↔
    ∃ g ∈ db.library.accessGrants, g.nodeId = i ∧ Names db.accounts g u := by
  rw [isGrantedOn, List.any_eq_true]
  refine exists_congr fun g => and_congr_right fun _ => ?_
  rw [decide_eq_true_eq, mem_grantPrincipals]

/-- A file inherits what is granted on it and what its folder has. -/
theorem inherits_file_iff {lib : Library} (h : TreeInv lib.nodes) {acc : Accounts}
    {n : LibraryNode} (hn : n ∈ lib.nodes) (hk : n.kind = .file) :
    Inherits lib acc u n.id ↔
      (∃ g ∈ lib.accessGrants, g.nodeId = n.id ∧ Names acc g u) ∨
        ∃ p, n.parentId = some p ∧ Inherits lib acc u p := by
  have hopen : n.accessBoundary = false := by
    cases hb : n.accessBoundary with
    | false => rfl
    | true =>
      rw [h.boundary n hn hb] at hk
      exact absurd hk (by simp)
  have hlink : inheritsFrom lib.nodes n.id = n.parentId := by
    rw [h.inheritsFrom_eq hn, hopen]
    simp
  constructor
  · intro hin
    obtain ⟨a, ha, hgrant⟩ := hin
    rcases Relation.ReflTransGen.cases_head ha with rfl | ⟨p, hp, hr⟩
    · exact Or.inl hgrant
    · exact Or.inr ⟨p, hlink ▸ hp, a, hr, hgrant⟩
  · intro hor
    rcases hor with hgrant | ⟨p, hp, a, hr, hgrant⟩
    · exact ⟨n.id, Relation.ReflTransGen.refl, hgrant⟩
    · exact ⟨a, Relation.ReflTransGen.head (hlink.trans hp) hr, hgrant⟩

/-! ## Members -/

/-- A member reads a folder if a grant on its climb names them. -/
theorem canReadFolder_iff (husers : Keyed (·.id) db.accounts.users) (h : TreeInv db.library.nodes)
    (hmember : isActiveMember db.accounts.users u = true)
    (hi : isFolder db.library.nodes i = true) :
    canReadFolder db (some u) i = true ↔ Inherits db.library db.accounts u i := by
  obtain ⟨m, hm, rfl, _⟩ := isFolder_iff.mp hi
  rw [canReadFolder, not_admin_of_member husers hmember, hi, Bool.false_or, Bool.true_and,
    Option.any_some, decide_eq_true_eq, mem_pathPrincipals h (List.mem_map_of_mem hm)]

/-- What a member may read they are shown. -/
theorem canView_of_canRead (h : AccessInv db)
    (hmember : isActiveMember db.accounts.users u = true) {n : LibraryNode}
    (hn : n ∈ db.library.nodes) {d : DocumentId} (hd : n.documentId = some d)
    (hread : canReadDocument db (some u) d = true) :
    canViewLibraryNode db (some u) n.id = true := by
  have hrow : hasCurrentAccess db u d = true := by
    rw [h.fresh u d, mem_effectivePairs h.tree]
    exact ⟨hmember, (h.canRead_iff hmember d).mp hread⟩
  have hshown : isShown db u n.id = true := (isShown_iff h.tree hn).mpr (Or.inl ⟨d, hd, hrow⟩)
  exact (canView_iff h.tree hn).mpr (Or.inr (Or.inr ⟨n.id, 0, rfl, hshown⟩))

/-- A shown node is shown with every folder above it. -/
theorem canView_above (h : TreeInv db.library.nodes) {a : NodeId}
    (hi : i ∈ db.library.nodes.map (·.id)) (hr : Reaches (parentOf db.library.nodes) i a)
    (hview : canViewLibraryNode db (some u) i = true) :
    canViewLibraryNode db (some u) a = true := by
  obtain ⟨rank, hranked⟩ := h.ranked_parentOf
  induction hr with
  | refl => exact hview
  | tail hbc hca ih =>
    obtain ⟨n, hn, rfl⟩ := List.mem_map.mp (hranked.reaches_mem hi hbc)
    rw [h.parentOf_eq hn] at hca
    obtain ⟨m, hm, rfl⟩ := h.parent_mem hn hca
    exact canView_parent h hn hm hca ih

/-! ## Agreement -/

/-- Right after a rebuild, for every tree, grants, teams and members: a document
is read by its uploader, through a grant on its file node, or through its
folder; a viewable node has viewable ancestors; a readable file is viewable; and
an administrator reads and views everything. -/
theorem walks_agree (db : Db) (husers : Keyed (·.id) db.accounts.users)
    (htree : TreeInv db.library.nodes) :
    (∀ u, isActiveMember db.accounts.users u = true →
      (∀ d, canReadDocument (v4RebuildEffectiveDocumentAccess db) (some u) d = true ↔
        ∃ n ∈ db.library.nodes, n.kind = .file ∧ n.documentId = some d ∧
          (n.uploaderUserId = some u ∨
            isGrantedOn (v4RebuildEffectiveDocumentAccess db) u n.id = true ∨
            ∃ p, n.parentId = some p ∧
              canReadFolder (v4RebuildEffectiveDocumentAccess db) (some u) p = true)) ∧
      (∀ n ∈ db.library.nodes,
        canViewLibraryNode (v4RebuildEffectiveDocumentAccess db) (some u) n.id = true →
        ∀ a, Reaches (parentOf db.library.nodes) n.id a →
          canViewLibraryNode (v4RebuildEffectiveDocumentAccess db) (some u) a = true) ∧
      ∀ n ∈ db.library.nodes, ∀ d, n.documentId = some d →
        canReadDocument (v4RebuildEffectiveDocumentAccess db) (some u) d = true →
        canViewLibraryNode (v4RebuildEffectiveDocumentAccess db) (some u) n.id = true) ∧
    ∀ u, actorIsAdmin (v4RebuildEffectiveDocumentAccess db) (some u) = true →
      (∀ d, canReadDocument (v4RebuildEffectiveDocumentAccess db) (some u) d = true) ∧
      ∀ i, canReadFolder (v4RebuildEffectiveDocumentAccess db) (some u) i = true ∧
        canViewLibraryNode (v4RebuildEffectiveDocumentAccess db) (some u) i = true := by
  have hinv := accessInv_rebuild husers htree
  refine ⟨fun u hmember => ⟨fun d => ?_, fun n hn hview a ha => ?_, fun n hn d hd hread => ?_⟩,
    fun u hadmin => ⟨fun d => ?_, fun i => ⟨?_, ?_⟩⟩⟩
  · rw [hinv.canRead_iff hmember d]
    refine exists_congr fun n => and_congr_right fun hn => and_congr_right fun hk =>
      and_congr_right fun _ => or_congr_right ?_
    have hfolder : ∀ p, n.parentId = some p →
        (canReadFolder (v4RebuildEffectiveDocumentAccess db) (some u) p = true ↔
          Inherits db.library db.accounts u p) := fun p hp =>
      canReadFolder_iff hinv.users hinv.tree hmember (htree.parent n hn p hp)
    refine (inherits_file_iff hinv.tree hn hk).trans (or_congr isGrantedOn_iff.symm ?_)
    exact exists_congr fun p => and_congr_right fun hp => (hfolder p hp).symm
  · exact canView_above hinv.tree (List.mem_map_of_mem hn) ha hview
  · exact canView_of_canRead hinv hmember hn hd hread
  · rw [canReadDocument, hadmin, Bool.true_or, Bool.true_or]
  · rw [canReadFolder, hadmin, Bool.true_or]
  · rw [canViewLibraryNode, hadmin, Bool.true_or, Bool.true_or]

/-- The member `2`, to whom the folder is granted, reads the document in it and
is shown its node; the administrator reads whatever there is. -/
theorem walks_agree_sharing :
    isActiveMember (run step sampleDb sharingCalls).accounts.users 2 = true ∧
    canReadDocument (v4RebuildEffectiveDocumentAccess (run step sampleDb sharingCalls))
      (some 2) 30 = true ∧
    (∀ n ∈ (run step sampleDb sharingCalls).library.nodes, n.documentId = some 30 →
      canViewLibraryNode (v4RebuildEffectiveDocumentAccess (run step sampleDb sharingCalls))
        (some 2) n.id = true) ∧
    ∀ d, canReadDocument (v4RebuildEffectiveDocumentAccess (run step sampleDb sharingCalls))
      (some 1) d = true := by
  have husers : Keyed (·.id) (run step sampleDb sharingCalls).accounts.users :=
    (accessInv_run installed_sampleDb (by decide +kernel)).users
  have hagree := walks_agree (run step sampleDb sharingCalls) husers
    (treeInv_run installed_sampleDb sharingCalls)
  have hmember : isActiveMember (run step sampleDb sharingCalls).accounts.users 2 = true := by
    decide +kernel
  have hread : canReadDocument (v4RebuildEffectiveDocumentAccess
      (run step sampleDb sharingCalls)) (some 2) 30 = true := by
    decide +kernel
  have hadmin : actorIsAdmin (v4RebuildEffectiveDocumentAccess
      (run step sampleDb sharingCalls)) (some 1) = true := by
    decide +kernel
  exact ⟨hmember, hread, fun n hn hd => (hagree.1 2 hmember).2.2 n hn 30 hd hread,
    (hagree.2 1 hadmin).1⟩

end LocalRag.Library
