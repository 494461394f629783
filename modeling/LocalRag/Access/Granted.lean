import LocalRag.Library.Steps

/-!
# What "granted" means

`Granted lib acc u d` says who may read a document in the library's own terms:
the uploader of its file node, and whoever a grant names — directly or through
an active team — on the file node or on an ancestor it inherits from, that is,
up to and including the first boundary. It is reachability, with no table of
derived rows, no version and no fuel.

`mem_effectivePairs` connects it to the code: the rows
`v4_rebuild_effective_document_access` computes are exactly the granted pairs of
active members. The rest of the file are the frame facts: creating a folder,
renaming a node and removing an empty folder change no grant, which is why none
of the three calls rebuilds.
-/

namespace LocalRag.Access

open LocalRag.Core Library Storage

/-- The grant row names the user, directly or through an active team. -/
def Names (acc : Accounts) (g : AccessGrant) (u : UserId) : Prop :=
  g.userId = some u ∨
    ∃ m ∈ acc.teamMembers, g.teamId = some m.teamId ∧ m.userId = u ∧
      teamIsActive acc.teams m.teamId = true

/-- A grant on the file node or on a node it inherits from names the user. -/
def Inherits (lib : Library) (acc : Accounts) (u : UserId) (i : NodeId) : Prop :=
  ∃ a, Reaches (inheritsFrom lib.nodes) i a ∧
    ∃ g ∈ lib.accessGrants, g.nodeId = a ∧ Names acc g u

/-- The user may read the document: uploader, or a grant that reaches it. -/
def Granted (lib : Library) (acc : Accounts) (u : UserId) (d : DocumentId) : Prop :=
  ∃ n ∈ lib.nodes, n.kind = .file ∧ n.documentId = some d ∧
    (n.uploaderUserId = some u ∨ Inherits lib acc u n.id)

/-! ## The queries compute it -/

variable {acc : Accounts} {u : UserId}

theorem mem_grantPrincipals {g : AccessGrant} :
    u ∈ grantPrincipals acc.teams acc.teamMembers g.userId g.teamId ↔ Names acc g u := by
  unfold grantPrincipals Names
  rw [List.mem_append, Option.mem_toList, List.mem_map]
  constructor
  · rintro (hu | ⟨m, hm, hu⟩)
    · exact Or.inl hu
    · obtain ⟨hmem, hcond⟩ := List.mem_filter.mp hm
      simp only [decide_eq_true_eq] at hcond
      exact Or.inr ⟨m, hmem, hcond.1, hu, hcond.2⟩
  · rintro (hu | ⟨m, hmem, ht, hu, hact⟩)
    · exact Or.inl hu
    · exact Or.inr ⟨m, List.mem_filter.mpr ⟨hmem, by simp [ht, hact]⟩, hu⟩

variable {lib : Library}

variable {i : NodeId}

/-- Being named along the walk is being named at a reachable node. -/
theorem mem_pathPrincipals (h : TreeInv lib.nodes) (hi : i ∈ lib.nodes.map (·.id)) :
    u ∈ pathPrincipals lib acc i ↔ Inherits lib acc u i := by
  obtain ⟨rank, hr⟩ := h.ranked_inheritsFrom
  have hmem : ∀ a, a ∈ accessPath lib.nodes i ↔ Reaches (inheritsFrom lib.nodes) i a :=
    fun a => hr.mem_climb hi (by rw [List.length_map])
  unfold pathPrincipals Inherits
  simp only [List.mem_flatMap, List.mem_filter, decide_eq_true_eq]
  constructor
  · rintro ⟨a, ha, g, ⟨hg, hga⟩, hu⟩
    exact ⟨a, (hmem a).mp ha, g, hg, hga, mem_grantPrincipals.mp hu⟩
  · rintro ⟨a, ha, g, hg, hga, hu⟩
    exact ⟨a, (hmem a).mpr ha, g, ⟨hg, hga⟩, mem_grantPrincipals.mpr hu⟩

variable {d : DocumentId}

theorem mem_principals (h : TreeInv lib.nodes) :
    (u, d) ∈ principals lib acc ↔ Granted lib acc u d := by
  unfold principals Granted
  rw [List.mem_flatMap]
  constructor
  · rintro ⟨n, hn, hmem⟩
    split at hmem
    next hk =>
      simp only [List.mem_flatMap, Option.mem_toList, List.mem_map, List.mem_append] at hmem
      obtain ⟨d', hd', u', hu', heq⟩ := hmem
      obtain ⟨rfl, rfl⟩ : u' = u ∧ d' = d := by simpa using heq
      refine ⟨n, hn, hk, hd', hu'.imp id fun hp => ?_⟩
      exact (mem_pathPrincipals h (List.mem_map_of_mem hn)).mp hp
    next => exact absurd hmem List.not_mem_nil
  · rintro ⟨n, hn, hk, hd, hu⟩
    refine ⟨n, hn, ?_⟩
    rw [if_pos hk]
    simp only [List.mem_flatMap, Option.mem_toList, List.mem_map, List.mem_append]
    exact ⟨d, hd, u, hu.imp id fun hp =>
      (mem_pathPrincipals h (List.mem_map_of_mem hn)).mpr hp, rfl⟩

/-- The rebuild's rows: the granted pairs of active members. -/
theorem mem_effectivePairs (h : TreeInv lib.nodes) : (u, d) ∈ effectivePairs lib acc ↔
      isActiveMember acc.users u = true ∧ Granted lib acc u d := by
  rw [effectivePairs, List.mem_dedup, List.mem_filter, mem_principals h, and_comm]

/-! ## Frames -/

/-- The walk from `i` sees the same links in both tables. -/
theorem reaches_inheritsFrom {nodes nodes' : List LibraryNode} (h : TreeInv nodes)
    (h' : TreeInv nodes') (hi : i ∈ nodes.map (·.id))
    (hrow : ∀ n ∈ nodes, Reaches (inheritsFrom nodes) i n.id → ∃ n' ∈ nodes', n'.id = n.id ∧
      n'.parentId = n.parentId ∧ n'.accessBoundary = n.accessBoundary) {a : NodeId} :
    Reaches (inheritsFrom nodes') i a ↔ Reaches (inheritsFrom nodes) i a := by
  obtain ⟨rank, hr⟩ := h.ranked_inheritsFrom
  refine reaches_congr fun b hb => ?_
  obtain ⟨n, hn, rfl⟩ := List.mem_map.mp (hr.reaches_mem hi hb)
  obtain ⟨n', hn', hid, hp, hbound⟩ := hrow n hn hb
  rw [← hid, h'.inheritsFrom_eq hn', hid, h.inheritsFrom_eq hn, hp, hbound]

/-- If every file, every link its walk takes and every grant on the way is still
there, so is everything that was granted. -/
theorem Granted.mono {lib' : Library}
    (hfile : ∀ n ∈ lib.nodes, n.kind = .file → ∃ n' ∈ lib'.nodes, n'.id = n.id ∧
      n'.kind = .file ∧ n'.documentId = n.documentId ∧ n'.uploaderUserId = n.uploaderUserId)
    (hreach : ∀ n ∈ lib.nodes, n.kind = .file → ∀ a, Reaches (inheritsFrom lib.nodes) n.id a →
      Reaches (inheritsFrom lib'.nodes) n.id a ∧
        ∀ g ∈ lib.accessGrants, g.nodeId = a → g ∈ lib'.accessGrants) (h : Granted lib acc u d) :
    Granted lib' acc u d := by
  obtain ⟨n, hn, hk, hd, hu⟩ := h
  obtain ⟨n', hn', hid, hk', hd', hup⟩ := hfile n hn hk
  refine ⟨n', hn', hk', hd'.trans hd, ?_⟩
  rcases hu with hu | ⟨a, ha, g, hg, hga, hnames⟩
  · exact Or.inl (hup.trans hu)
  · obtain ⟨ha', hkeep⟩ := hreach n hn hk a ha
    exact Or.inr ⟨a, hid ▸ ha', g, hkeep g hg hga, hga, hnames⟩

/-- A new folder carries no file and no grant anybody inherits. -/
theorem granted_insert_folder {node : LibraryNode} {nodes' : List LibraryNode}
    (h : TreeInv lib.nodes) (hleaf : LeafOk lib.nodes node) (hk : node.kind = .folder)
    (hins : insertNode lib.nodes node = .ok nodes') :
    Granted { lib with nodes := nodes' } acc u d ↔ Granted lib acc u d := by
  have h' := h.insert hleaf hins
  obtain ⟨rfl, _⟩ := insertNode_ok hins
  have hreach : ∀ n ∈ lib.nodes, ∀ a, Reaches (inheritsFrom (lib.nodes ++ [node])) n.id a ↔
      Reaches (inheritsFrom lib.nodes) n.id a := fun n hn a =>
    reaches_inheritsFrom h h' (List.mem_map_of_mem hn)
      fun m hm _ => ⟨m, List.mem_append_left _ hm, rfl, rfl, rfl⟩
  have hold : ∀ n ∈ lib.nodes ++ [node], n.kind = .file → n ∈ lib.nodes := by
    intro n hn hkn
    rcases List.mem_append.mp hn with hn | hn
    · exact hn
    · rw [List.mem_singleton.mp hn, hk] at hkn
      exact absurd hkn (by simp)
  constructor
  · refine Granted.mono ?_ ?_
    · exact fun n hn hkn => ⟨n, hold n hn hkn, rfl, hkn, rfl, rfl⟩
    · exact fun n hn hkn a ha => ⟨(hreach n (hold n hn hkn) a).mp ha, fun g hg _ => hg⟩
  · refine Granted.mono ?_ ?_
    · exact fun n hn hkn => ⟨n, List.mem_append_left _ hn, rfl, hkn, rfl, rfl⟩
    · exact fun n hn _ a ha => ⟨(hreach n hn a).mpr ha, fun g hg _ => hg⟩

/-- The two name columns are in no walk. -/
theorem granted_rename {name nameKey : String} (h : TreeInv lib.nodes)
    (h' : TreeInv (updateWhere (fun n => n.id = i)
      (fun n => { n with name := name, nameKey := nameKey }) lib.nodes)) :
    Granted { lib with
      nodes := updateWhere (fun n => n.id = i)
        (fun n => { n with name := name, nameKey := nameKey }) lib.nodes } acc u d ↔
      Granted lib acc u d := by
  have hfwd : ∀ n ∈ lib.nodes, ∃ n' ∈ updateWhere (fun n => n.id = i)
      (fun n => { n with name := name, nameKey := nameKey }) lib.nodes, n'.id = n.id ∧
      n'.parentId = n.parentId ∧ n'.accessBoundary = n.accessBoundary ∧ n'.kind = n.kind ∧
      n'.documentId = n.documentId ∧ n'.uploaderUserId = n.uploaderUserId := by
    intro n hn
    refine ⟨_, mem_updateWhere.mpr ⟨n, hn, rfl⟩, ?_⟩
    split <;> exact ⟨rfl, rfl, rfl, rfl, rfl, rfl⟩
  have hback : ∀ n' ∈ updateWhere (fun n => n.id = i)
      (fun n => { n with name := name, nameKey := nameKey }) lib.nodes, ∃ n ∈ lib.nodes,
      n.id = n'.id ∧ n.kind = n'.kind ∧ n.documentId = n'.documentId ∧
      n.uploaderUserId = n'.uploaderUserId := by
    intro n' hn'
    obtain ⟨n, hn, rfl⟩ := mem_updateWhere.mp hn'
    refine ⟨n, hn, ?_⟩
    split <;> exact ⟨rfl, rfl, rfl, rfl⟩
  have hreach : ∀ n ∈ lib.nodes, ∀ a, Reaches (inheritsFrom (updateWhere (fun n => n.id = i)
      (fun n => { n with name := name, nameKey := nameKey }) lib.nodes)) n.id a ↔
      Reaches (inheritsFrom lib.nodes) n.id a := fun n hn a =>
    reaches_inheritsFrom h h' (List.mem_map_of_mem hn) fun m hm _ => by
      obtain ⟨m', hm', hid, hp, hb, _⟩ := hfwd m hm
      exact ⟨m', hm', hid, hp, hb⟩
  constructor
  · refine Granted.mono ?_ ?_
    · intro n' hn' hk
      obtain ⟨n, hn, hid, hkind, hdoc, hup⟩ := hback n' hn'
      exact ⟨n, hn, hid, hkind.trans hk, hdoc, hup⟩
    · intro n' hn' _ a ha
      obtain ⟨n, hn, hid, _⟩ := hback n' hn'
      exact ⟨hid ▸ (hreach n hn a).mp (hid ▸ ha), fun g hg _ => hg⟩
  · refine Granted.mono ?_ ?_
    · intro n hn hk
      obtain ⟨n', hn', hid, _, _, hkind, hdoc, hup⟩ := hfwd n hn
      exact ⟨n', hn', hid, hkind.trans hk, hdoc, hup⟩
    · exact fun n hn _ a ha => ⟨(hreach n hn a).mpr ha, fun g hg _ => hg⟩

/-- Nobody inherits through a folder that is nobody's parent. -/
theorem granted_delete_folder {node : LibraryNode} (h : TreeInv lib.nodes) (hn : node ∈ lib.nodes)
    (hk : node.kind = .folder) (hleaf : ∀ n ∈ lib.nodes, n.parentId ≠ some node.id) :
    Granted (deleteNode lib node.id) acc u d ↔ Granted lib acc u d := by
  have h' := h.erase hleaf
  have hne : ∀ n ∈ lib.nodes, n.kind = .file → n.id ≠ node.id := by
    intro n hn' hkn he
    rw [h.keyed.eq hn' hn he, hk] at hkn
    exact absurd hkn (by simp)
  -- a walk that starts elsewhere never meets the folder
  have hmiss : ∀ n ∈ lib.nodes, n.kind = .file → ∀ a, Reaches (inheritsFrom lib.nodes) n.id a →
      a ≠ node.id := by
    intro n hn' hkn a ha
    rcases Relation.ReflTransGen.cases_tail ha with rfl | ⟨c, _, hca⟩
    · exact hne n hn' hkn
    · obtain ⟨m, hm, _, hmp, _⟩ := parentOf_eq_some (TreeInv.inheritsFrom_parentOf hca)
      exact fun he => hleaf m hm (he ▸ hmp)
  have hstay : ∀ n ∈ lib.nodes, n.id ≠ node.id → n ∈ (deleteNode lib node.id).nodes :=
    fun n hn' hid => mem_deleteWhere.mpr ⟨hn', by simpa using hid⟩
  have hreach : ∀ n ∈ lib.nodes, n.kind = .file → ∀ a,
      Reaches (inheritsFrom (deleteNode lib node.id).nodes) n.id a ↔
        Reaches (inheritsFrom lib.nodes) n.id a := fun n hn' hkn a =>
    reaches_inheritsFrom h h' (List.mem_map_of_mem hn') fun m hm hr =>
      ⟨m, hstay m hm (hmiss n hn' hkn m.id hr), rfl, rfl, rfl⟩
  constructor
  · refine Granted.mono ?_ ?_
    · exact fun n hn' hkn => ⟨n, (mem_deleteWhere.mp hn').1, rfl, hkn, rfl, rfl⟩
    · exact fun n hn' hkn a ha => ⟨(hreach n (mem_deleteWhere.mp hn').1 hkn a).mp ha,
        fun g hg _ => (mem_deleteWhere.mp hg).1⟩
  · refine Granted.mono ?_ ?_
    · exact fun n hn' hkn => ⟨n, hstay n hn' (hne n hn' hkn), rfl, hkn, rfl, rfl⟩
    · intro n hn' hkn a ha
      refine ⟨(hreach n hn' hkn a).mpr ha, fun g hg hga => mem_deleteWhere.mpr ⟨hg, ?_⟩⟩
      have := hmiss n hn' hkn a ha
      simpa [hga] using this

end LocalRag.Access
