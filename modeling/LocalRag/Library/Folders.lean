import LocalRag.Access.Accounts

/-!
# Folders — create, rename, delete

`v4_create_folder` (`0004`), `v4_admin_rename_library_node` and
`v4_admin_delete_folder` (`0001_v4_baseline`), and the constraints of
`library_nodes` that an `INSERT` or `UPDATE` meets (`insertNode`, `siblingNameTaken`).

None of the three rebuilds the effective access: a new folder carries no grant
and no file, a rename touches no walk, and only an empty folder can go. That
this is right is `Access.Fresh`, not an assumption here.
-/

namespace LocalRag.Library

open LocalRag.Core Access

/-- `btrim(text)`: strip spaces at both ends. -/
def btrim (s : String) : String :=
  String.ofList (((s.toList.dropWhile (· = ' ')).reverse.dropWhile (· = ' ')).reverse)

/-- The name check of `v4_create_folder` and `v4_admin_rename_library_node`. -/
def isInvalidName (name nameKey : String) : Bool :=
  name ≠ btrim name ∨ name.length = 0 ∨ 255 < name.length ∨ nameKey.length = 0 ∨
    1024 < nameKey.utf8ByteSize

/-- `uq_library_nodes_parent_name_key`, for a row other than `i`. -/
def siblingNameTaken (nodes : List LibraryNode) (i : NodeId) (parentId : Option NodeId)
    (nameKey : String) : Bool :=
  nodes.any fun n => n.id ≠ i ∧ n.parentId = parentId ∧ n.nameKey = nameKey

/-- `INSERT INTO library_nodes`: the primary key, the sibling names, the bounds on
the names, the document column and the parent reference. -/
def insertNode (nodes : List LibraryNode) (node : LibraryNode) :
    Except SqlError (List LibraryNode) :=
  if node.name.length = 0 ∨ 255 < node.name.length then
    .error (checkViolation "ck_library_nodes_name_length")
  else if 1024 < node.nameKey.utf8ByteSize then
    .error (checkViolation "ck_library_nodes_name_key_bytes")
  else if node.nameKey.length = 0 then
    .error (checkViolation "ck_library_nodes_name_key_nonempty")
  else if nodes.any fun n => n.id = node.id then .error (uniqueViolation "library_nodes_pkey")
  else if siblingNameTaken nodes node.id node.parentId node.nameKey then
    .error (uniqueViolation "uq_library_nodes_parent_name_key")
  else if node.documentId.isSome ∧ nodes.any fun n => n.documentId = node.documentId then
    .error (uniqueViolation "uq_library_nodes_document_id")
  else if node.parentId.any fun p => (nodeById nodes p).isNone then
    .error (foreignKeyViolation "library_nodes_parent_id_fkey")
  else .ok (nodes ++ [node])

/-- The row `v4_create_folder` inserts. -/
def folderNode (nodeId : NodeId) (parentId : Option NodeId) (name nameKey : String) :
    LibraryNode :=
  { id := nodeId, parentId := parentId, kind := .folder, name := name, nameKey := nameKey,
    documentId := none, uploaderUserId := none, accessBoundary := false }

/-- `SELECT max(depth)` over the ancestry that stops at depth 257. -/
def cappedDepth (nodes : List LibraryNode) (i : NodeId) : Nat :=
  (climb (parentOf nodes) 256 i).length

/-- `v4_create_folder`. -/
def v4CreateFolder (db : Db) (token : Option HexText) (nodeId : NodeId)
    (parentId : Option NodeId) (name nameKey : String) : Except SqlError (Db × NodeId) :=
  match requireActor db token with
  | .error e => .error e
  | .ok actor =>
    if isInvalidName name nameKey then .error ⟨"22023", "invalid library folder"⟩
    else if ¬ actorIsAdmin db (some actor) ∧
        ¬ parentId.any (fun p => canCreateChildren db (some actor) p) then
      .error ⟨"42501", "library node not found"⟩
    else if parentId.any fun p => ¬ isFolder db.library.nodes p then
      if actorIsAdmin db (some actor) then .error ⟨"22023", "invalid library folder"⟩
      else .error ⟨"42501", "library node not found"⟩
    else if parentId.any fun p => 256 ≤ cappedDepth db.library.nodes p then
      .error ⟨"22023", "library exceeds maximum depth"⟩
    else if 10000 ≤ db.library.nodes.length then
      .error ⟨"22023", "library exceeds maximum node count"⟩
    else
      match insertNode db.library.nodes (folderNode nodeId parentId name nameKey) with
      | .error e => .error e
      | .ok nodes => .ok ({ db with library.nodes := nodes }, nodeId)

/-- `v4_admin_rename_library_node`. -/
def v4AdminRenameLibraryNode (db : Db) (token : Option HexText) (nodeId : NodeId)
    (name nameKey : String) : Except SqlError (Db × Bool) :=
  match requireActor db token with
  | .error e => .error e
  | .ok actor =>
    if isInvalidName name nameKey then .error ⟨"22023", "invalid library node name"⟩
    else if ¬ actorIsAdmin db (some actor) ∧ ¬ db.library.nodes.any (fun n =>
        n.id = nodeId ∧ n.kind = .file ∧ n.uploaderUserId = some actor) then
      .ok (db, false)
    else
      match nodeById db.library.nodes nodeId with
      | none => .ok (db, false)
      | some node =>
        if siblingNameTaken db.library.nodes node.id node.parentId nameKey then
          .error (uniqueViolation "uq_library_nodes_parent_name_key")
        else
          .ok ({ db with
            library.nodes := updateWhere (fun n => n.id = nodeId)
              (fun n => { n with name := name, nameKey := nameKey }) db.library.nodes }, true)

inductive DeleteFolderResult where
  | notFound
  | notFolder
  | notEmpty
  | deleted
deriving Repr, DecidableEq

/-- `DELETE FROM library_nodes WHERE id = …` and the grants that cascade with it. -/
def deleteNode (lib : Library) (i : NodeId) : Library :=
  { lib with
    nodes := deleteWhere (fun n => n.id = i) lib.nodes
    accessGrants := deleteWhere (fun g => g.nodeId = i) lib.accessGrants
    folderCreateGrants := deleteWhere (fun g => g.folderId = i) lib.folderCreateGrants }

/-- `v4_admin_delete_folder`. The reference from `upload_reservations.parent_id` is
`ON DELETE RESTRICT`, and no function deletes reservations. -/
def v4AdminDeleteFolder (db : Db) (token : Option HexText) (nodeId : NodeId) :
    Except SqlError (Db × DeleteFolderResult) :=
  match v4RequireAdmin db token with
  | .error e => .error e
  | .ok _ =>
    match nodeById db.library.nodes nodeId with
    | none => .ok (db, .notFound)
    | some node =>
      if node.kind ≠ .folder then .ok (db, .notFolder)
      else if db.library.nodes.any fun n => n.parentId = some nodeId then .ok (db, .notEmpty)
      else if db.storage.reservations.any fun r => r.parentId = some nodeId then
        .error (foreignKeyViolation "upload_reservations_parent_id_fkey")
      else .ok ({ db with library := deleteNode db.library nodeId }, .deleted)

/-! ## What each call can do -/

variable {token : Option HexText} {nodeId : NodeId}

/-- A created folder passed the insert, under a folder that is not too deep, in
a library that is not full. -/
theorem v4CreateFolder_ok {db db' : Db} {r : NodeId} {parentId : Option NodeId}
    {name nameKey : String}
    (h : v4CreateFolder db token nodeId parentId name nameKey = .ok (db', r)) :
    ∃ nodes, db' = { db with library.nodes := nodes } ∧
      insertNode db.library.nodes (folderNode nodeId parentId name nameKey) = .ok nodes ∧
      (∀ p, parentId = some p →
        isFolder db.library.nodes p = true ∧ cappedDepth db.library.nodes p < 256) ∧
      db.library.nodes.length < 10000 := by
  unfold v4CreateFolder at h
  split at h
  · cases h
  next actor _ =>
    simp only [ite_error_eq_ok] at h
    obtain ⟨_, _, h⟩ := h
    split at h
    · split at h <;> cases h
    next hfolder =>
      simp only [ite_error_eq_ok] at h
      obtain ⟨hdepth, hcount, h⟩ := h
      split at h
      · cases h
      next nodes hins =>
        refine ⟨nodes, (left_of_ok h).symm, hins, ?_, by omega⟩
        rintro p rfl
        simp only [Option.any_some, decide_eq_true_eq, Decidable.not_not, Nat.not_le] at hfolder hdepth
        exact ⟨hfolder, hdepth⟩

/-- A rename changes nothing, or the two name columns of one row whose siblings
do not use the new key. -/
theorem v4AdminRenameLibraryNode_ok {db db' : Db} {name nameKey : String} {r : Bool}
    (h : v4AdminRenameLibraryNode db token nodeId name nameKey = .ok (db', r)) :
    db' = db ∨ ∃ node, nodeById db.library.nodes nodeId = some node ∧
      siblingNameTaken db.library.nodes node.id node.parentId nameKey = false ∧
      db' = { db with
        library.nodes := updateWhere (fun n => n.id = nodeId)
          (fun n => { n with name := name, nameKey := nameKey }) db.library.nodes } := by
  unfold v4AdminRenameLibraryNode at h
  split at h
  · cases h
  rw [ite_error_eq_ok] at h
  obtain ⟨_, h⟩ := h
  split at h
  · exact Or.inl (left_of_ok h).symm
  split at h
  · exact Or.inl (left_of_ok h).symm
  next node hnode =>
    rw [ite_error_eq_ok] at h
    obtain ⟨hname, h⟩ := h
    exact Or.inr ⟨node, hnode, by simpa using hname,
      (left_of_ok h).symm⟩

/-- A folder deletion changes nothing, or removes one childless folder that no
reservation names. -/
theorem v4AdminDeleteFolder_ok {db db' : Db} {r : DeleteFolderResult}
    (h : v4AdminDeleteFolder db token nodeId = .ok (db', r)) :
    db' = db ∨ (∃ node, nodeById db.library.nodes nodeId = some node ∧ node.kind = .folder) ∧
      (∀ n ∈ db.library.nodes, n.parentId ≠ some nodeId) ∧
      db' = { db with library := deleteNode db.library nodeId } := by
  unfold v4AdminDeleteFolder at h
  split at h
  · cases h
  split at h
  · exact Or.inl (left_of_ok h).symm
  next node hnode =>
    split at h
    · exact Or.inl (left_of_ok h).symm
    next hkind =>
      split at h
      · exact Or.inl (left_of_ok h).symm
      next hchild =>
        rw [ite_error_eq_ok] at h
        obtain ⟨_, h⟩ := h
        refine Or.inr ⟨⟨node, hnode, by simpa using hkind⟩, by simpa using hchild,
          (left_of_ok h).symm⟩

end LocalRag.Library
