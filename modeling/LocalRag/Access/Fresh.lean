import LocalRag.Access.Granted

/-!
# Effective access is fresh

`effective_document_access` is a derived table: a row counts only while it
carries the current `authorization_version`. `Fresh` says that the rows that
count are exactly the ones a rebuild would compute now. The calls that write an
input of the computation end with the rebuild (`accessInv_rebuild`), or change
no grant (`Access.Granted`), with three exceptions:

* `v4_admin_apply_acl` for `set_create_children_grant` moves the version on and
  rebuilds nothing, so every row stops counting;
* `v4_admin_reset_user` takes an account out of the active state and leaves its
  rows current;
* `v4_consume_activation` makes an account active and adds none of its rows.

`FreshGuard` is the condition under which each of them is harmless, on the
state the call finds: nobody active is granted anything, the account that is
reset, or activated, is granted nothing. `accessInv_step` shows that a step that
meets it keeps the table fresh, and `fresh_run` that a run of such steps does,
with what it means for `v4_can_read_document`.
-/

namespace LocalRag.Access

open LocalRag.Core Library Storage

/-- The rows with the current version are the ones a rebuild would compute. -/
def Fresh (db : Db) : Prop :=
  ∀ u d, hasCurrentAccess db u d = true ↔ (u, d) ∈ effectivePairs db.library db.accounts

/-- What the freshness argument carries from call to call. -/
structure AccessInv (db : Db) : Prop where
  users : Keyed (·.id) db.accounts.users
  tree : TreeInv db.library.nodes
  bound : ∀ row ∈ db.library.effectiveAccess,
    row.authorizationVersion ≤ db.accounts.epochs.authorizationVersion
  fresh : Fresh db

/-! ## Accounts -/

variable {users : List User} {u : UserId}

theorem isActiveMember_iff :
    isActiveMember users u = true ↔ ∃ a ∈ users, a.id = u ∧ a.status = .active ∧
      a.deletedAt = none ∧ a.role = .member := by
  simp [isActiveMember]

variable {userId : UserId}

/-- A change to one account leaves the others' membership alone. -/
theorem isActiveMember_updateWhere_ne {p : User → Bool} {f : User → User}
    (hf : ∀ a, (f a).id = a.id) (hp : ∀ a, p a = true → a.id = userId) (hu : u ≠ userId) :
    isActiveMember (updateWhere p f users) u = true ↔ isActiveMember users u = true := by
  rw [isActiveMember_iff, isActiveMember_iff]
  constructor
  · rintro ⟨a, ha, hid, hrest⟩
    obtain ⟨a₀, ha₀, rfl⟩ := mem_updateWhere.mp ha
    split at hid
    next hpa => exact absurd (((hf a₀).symm.trans hid).symm.trans (hp a₀ hpa)) hu
    next hpa =>
      rw [if_neg hpa] at hrest
      exact ⟨a₀, ha₀, hid, hrest⟩
  · rintro ⟨a, ha, hid, hrest⟩
    have hpa : ¬ p a = true := fun hpa => hu (hid.symm.trans (hp a hpa))
    exact ⟨a, mem_updateWhere.mpr ⟨a, ha, by rw [if_neg hpa]⟩, hid, hrest⟩

theorem not_activeMember_resetPending (userId : UserId) :
    ¬ isActiveMember (updateWhere (fun a => a.id = userId ∧ a.deletedAt = none) resetPending
      users) userId = true := by
  rw [isActiveMember_iff]
  rintro ⟨a, ha, hid, hstatus, hdel, _⟩
  obtain ⟨a₀, ha₀, rfl⟩ := mem_updateWhere.mp ha
  split at hstatus
  · exact absurd hstatus (by simp [resetPending])
  next hc =>
    rw [if_neg hc] at hid hdel
    exact hc (by simp [hid, hdel])

variable {db : Db}

/-- The activated account was pending, hence no active member before. -/
theorem activationUser_pending {hash : HexText} (h : activationUser db hash = some userId) :
    ∃ a ∈ db.accounts.users, a.id = userId ∧ a.status = .pendingActivation := by
  unfold activationUser at h
  obtain ⟨c, _, hc⟩ := List.exists_of_findSome?_eq_some h
  split at hc
  · obtain ⟨a, ha, rfl⟩ := Option.map_eq_some_iff.mp hc
    have hcond := List.find?_some ha
    simp only [decide_eq_true_eq] at hcond
    exact ⟨a, List.mem_of_find?_eq_some ha, rfl, hcond.2.1⟩
  · exact absurd hc (by simp)

/-- Who is an active member after an activation: whoever was before, and the
activated account if it is a member. -/
theorem activeMember_activated (hkeyed : Keyed (·.id) users) {a : User} (ha : a ∈ users)
    {passwordHash : String}
    (hm : isActiveMember (updateWhere (fun b => b.id = a.id) (activated passwordHash) users) u =
      true) : (u ≠ a.id ∧ isActiveMember users u = true) ∨ (u = a.id ∧ a.role = .member) := by
  by_cases hu : u = a.id
  · obtain ⟨b, hb, hid, _, _, hrole⟩ := isActiveMember_iff.mp hm
    obtain ⟨b₀, hb₀, rfl⟩ := mem_updateWhere.mp hb
    have hcols : (if (b₀.id = a.id : Bool) then activated passwordHash b₀ else b₀).id = b₀.id ∧
        (if (b₀.id = a.id : Bool) then activated passwordHash b₀ else b₀).role = b₀.role := by
      split <;> exact ⟨rfl, rfl⟩
    rw [hcols.1] at hid
    rw [hcols.2, hkeyed.eq hb₀ ha (hid.trans hu)] at hrole
    exact Or.inr ⟨hu, hrole⟩
  · have hp : ∀ b : User, decide (b.id = a.id) = true → b.id = a.id := fun b hb => by
      simpa using hb
    exact Or.inl ⟨hu, (isActiveMember_updateWhere_ne (f := activated passwordHash) (fun _ => rfl) hp hu).mp
      hm⟩

/-! ## The guard -/

/-- Some file is granted to the user: uploaded by them, or a grant on its walk
names them. -/
def hasGrantedFile (lib : Library) (acc : Accounts) (u : UserId) : Bool :=
  lib.nodes.any fun n => n.kind = .file ∧
    (n.uploaderUserId = some u ∨ u ∈ pathPrincipals lib acc n.id)

theorem hasGrantedFile_iff {lib : Library} (h : TreeInv lib.nodes) {acc : Accounts} :
    hasGrantedFile lib acc u = true ↔ ∃ d, Granted lib acc u d := by
  rw [hasGrantedFile, List.any_eq_true]
  constructor
  · rintro ⟨n, hn, hcond⟩
    simp only [decide_eq_true_eq] at hcond
    obtain ⟨d, hd⟩ := Option.isSome_iff_exists.mp (h.file n hn hcond.1).1
    exact ⟨d, n, hn, hcond.1, hd, hcond.2.imp id
      (mem_pathPrincipals h (List.mem_map_of_mem hn)).mp⟩
  · rintro ⟨d, n, hn, hk, _, hu⟩
    refine ⟨n, hn, ?_⟩
    simp only [decide_eq_true_eq]
    exact ⟨hk, hu.imp id (mem_pathPrincipals h (List.mem_map_of_mem hn)).mpr⟩

/-- The preview is one of `set_create_children_grant`. -/
def isCreateChildrenPreview (db : Db) (previewId : PreviewId) : Bool :=
  (db.library.aclPreviews.find? fun p => p.id = previewId).any fun p =>
    match p.operation with
    | .setCreateChildrenGrant .. => true
    | _ => false

/-- The condition on the state a call finds, for the three calls that change the
access or its version without rebuilding. -/
def FreshGuard (db : Db) : Call → Prop
  | .applyAcl _ _ previewId _ => isCreateChildrenPreview db previewId = true →
    ∀ a ∈ db.accounts.users, isActiveMember db.accounts.users a.id = true →
      hasGrantedFile db.library db.accounts a.id = false
  | .resetUser _ userId _ _ => isActiveMember db.accounts.users userId = true →
    hasGrantedFile db.library db.accounts userId = false
  | .consumeActivation _ hash _ _ _ _ _ =>
    ∀ a ∈ db.accounts.users, activationUser db hash = some a.id → a.role = .member →
      hasGrantedFile db.library db.accounts a.id = false
  | _ => True

instance (db : Db) (call : Call) : Decidable (FreshGuard db call) := by
  unfold FreshGuard
  split <;> infer_instance

/-! ## One step -/

/-- After a rebuild the table is fresh, whatever it was before. -/
theorem fresh_rebuild (db : Db) : Fresh (v4RebuildEffectiveDocumentAccess db) := by
  intro u d
  change _ ↔ (u, d) ∈ effectivePairs db.library db.accounts
  simp only [hasCurrentAccess, v4RebuildEffectiveDocumentAccess, List.any_map, List.any_eq_true,
    Function.comp, decide_eq_true_eq]
  constructor
  · rintro ⟨p, hp, rfl, rfl, _⟩
    exact hp
  · exact fun hp => ⟨(u, d), hp, rfl, rfl, trivial⟩

theorem accessInv_rebuild (husers : Keyed (·.id) db.accounts.users)
    (htree : TreeInv db.library.nodes) : AccessInv (v4RebuildEffectiveDocumentAccess db) where
  users := husers
  tree := htree
  bound := by
    intro row hrow
    obtain ⟨p, _, rfl⟩ := List.mem_map.mp hrow
    exact Nat.le_refl _
  fresh := fresh_rebuild db

/-- Freshness after a change that leaves the grants and the rows alone: it is
enough that the granted pairs of active members stay the same. -/
theorem AccessInv.of_pairs {db' : Db} (h : AccessInv db)
    (husers : Keyed (·.id) db'.accounts.users) (htree : TreeInv db'.library.nodes)
    (hrows : db'.library.effectiveAccess = db.library.effectiveAccess)
    (hversion : db'.accounts.epochs.authorizationVersion =
      db.accounts.epochs.authorizationVersion)
    (hpairs : ∀ u d, (isActiveMember db'.accounts.users u = true ∧
        Granted db'.library db'.accounts u d) ↔
      (isActiveMember db.accounts.users u = true ∧ Granted db.library db.accounts u d)) :
    AccessInv db' where
  users := husers
  tree := htree
  bound := by
    rw [hrows, hversion]
    exact h.bound
  fresh := by
    intro u d
    rw [mem_effectivePairs htree, hpairs u d, ← mem_effectivePairs h.tree, ← h.fresh u d]
    unfold hasCurrentAccess
    rw [hrows, hversion]

theorem accessInv_resetUser (h : AccessInv db)
    (hguard : isActiveMember db.accounts.users userId = true →
      hasGrantedFile db.library db.accounts userId = false) (sessions : List Session)
    (challenges : List PreAuthChallenge) :
    AccessInv { db with
      accounts.users := updateWhere (fun a => a.id = userId ∧ a.deletedAt = none) resetPending
        db.accounts.users
      accounts.sessions := sessions
      accounts.challenges := challenges } := by
  refine h.of_pairs (h.users.updateWhere fun _ => rfl) h.tree rfl rfl fun u d => ?_
  by_cases hu : u = userId
  · subst hu
    refine iff_of_false (fun hc => not_activeMember_resetPending u hc.1) fun ⟨hact, hg⟩ => ?_
    rw [(hasGrantedFile_iff h.tree).mpr ⟨d, hg⟩] at hguard
    exact absurd (hguard hact) (by simp)
  · refine and_congr_left fun _ => isActiveMember_updateWhere_ne (fun _ => rfl) ?_ hu
    intro a ha
    simp only [decide_eq_true_eq] at ha
    exact ha.1

theorem accessInv_consumeActivation (h : AccessInv db) {hash : HexText} {passwordHash : String}
    (hact : activationUser db hash = some userId)
    (hguard : ∀ a ∈ db.accounts.users, activationUser db hash = some a.id → a.role = .member →
      hasGrantedFile db.library db.accounts a.id = false) (sessions : List Session)
    (challenges : List PreAuthChallenge) :
    AccessInv { db with
      accounts.users := updateWhere (fun a => a.id = userId) (activated passwordHash)
        db.accounts.users
      accounts.sessions := sessions
      accounts.challenges := challenges } := by
  refine h.of_pairs (h.users.updateWhere fun _ => rfl) h.tree rfl rfl fun u d => ?_
  obtain ⟨a, ha, rfl, hpending⟩ := activationUser_pending hact
  constructor
  · rintro ⟨hm, hg⟩
    rcases activeMember_activated h.users ha hm with ⟨_, hm'⟩ | ⟨rfl, hrole⟩
    · exact ⟨hm', hg⟩
    · -- a member that just became active is granted nothing, by the guard
      have hgf := hguard a ha hact hrole
      have hg' : Granted db.library db.accounts a.id d := hg
      rw [(hasGrantedFile_iff h.tree).mpr ⟨d, hg'⟩] at hgf
      exact absurd hgf (by simp)
  · rintro ⟨hm, hg⟩
    have hne : u ≠ a.id := by
      rintro rfl
      obtain ⟨b, hb, hid, hstatus, _⟩ := isActiveMember_iff.mp hm
      rw [h.users.eq hb ha hid, hpending] at hstatus
      exact absurd hstatus (by simp)
    have hp : ∀ b : User, decide (b.id = a.id) = true → b.id = a.id := fun b hb => by
      simpa using hb
    exact ⟨(isActiveMember_updateWhere_ne (f := activated passwordHash) (fun _ => rfl) hp
      hne).mpr hm, hg⟩

/-- The create-children arm: the version passes every row, so the table is fresh
only if nothing is granted. -/
theorem accessInv_createChildren (h : AccessInv db)
    (hguard : ∀ a ∈ db.accounts.users, isActiveMember db.accounts.users a.id = true →
      hasGrantedFile db.library db.accounts a.id = false) (grants : List FolderCreateGrant)
    (previews : List AclPreview) :
    AccessInv { db with
      library.folderCreateGrants := grants
      library.aclPreviews := previews
      accounts.epochs.authorizationVersion :=
        db.accounts.epochs.authorizationVersion + 1 } where
  users := h.users
  tree := h.tree
  bound := fun row hrow => Nat.le_succ_of_le (h.bound row hrow)
  fresh := by
    intro u d
    refine iff_of_false ?_ ?_
    · intro hc
      simp only [hasCurrentAccess, List.any_eq_true, decide_eq_true_eq] at hc
      obtain ⟨row, hrow, _, _, hv⟩ := hc
      have := h.bound row hrow
      omega
    · intro hp
      obtain ⟨hm, hg⟩ := (mem_effectivePairs h.tree).mp
        (show (u, d) ∈ effectivePairs db.library db.accounts from hp)
      obtain ⟨a, ha, rfl, _⟩ := isActiveMember_iff.mp hm
      have hgf := hguard a ha hm
      rw [(hasGrantedFile_iff h.tree).mpr ⟨d, hg⟩] at hgf
      exact absurd hgf (by simp)

theorem accessInv_created (h : AccessInv db) {actor : UserId} {reservationId : ReservationId}
    {ids : CommitIds} {request : UploadRequest} {content : Content} {nodes : List LibraryNode}
    (htree : TreeInv nodes) :
    AccessInv (createdDb db actor reservationId ids request content nodes) := by
  have hr : AccessInv (v4RebuildEffectiveDocumentAccess { db with
      content := content
      library.nodes := nodes
      library.accessGrants := db.library.accessGrants ++ uploadGrants actor ids request }) :=
    accessInv_rebuild h.users htree
  -- spending the reservation writes no column the invariant reads
  exact ⟨hr.users, hr.tree, hr.bound, hr.fresh⟩

/-- An effect of a call that meets the guard keeps the table fresh. -/
theorem AccessInv.effect {db' : Db} {call : Call} (h : AccessInv db) (hguard : FreshGuard db call)
    (he : Effect db call db') : AccessInv db' := by
  cases he with
  | activate challenged sessions challenges =>
    exact accessInv_consumeActivation h challenged hguard sessions challenges
  | reset sessions challenges => exact accessInv_resetUser h hguard sessions challenges
  | setUser => exact accessInv_rebuild (h.users.updateWhere fun _ => rfl) h.tree
  | @createFolder _ nodeId parentId name nameKey _ inserted parent =>
    have hleaf : LeafOk db.library.nodes (folderNode nodeId parentId name nameKey) :=
      leafOk_folderNode fun p hp => (parent p hp).1
    exact h.of_pairs h.users (h.tree.insert hleaf inserted) rfl rfl fun u d =>
      and_congr_right fun _ => granted_insert_folder h.tree hleaf rfl inserted
  | rename mem free =>
    exact h.of_pairs h.users (h.tree.rename mem free) rfl rfl fun u d =>
      and_congr_right fun _ => granted_rename h.tree (h.tree.rename mem free)
  | deleteFolder mem folder leaf =>
    exact h.of_pairs h.users (h.tree.erase leaf) rfl rfl fun u d =>
      and_congr_right fun _ => granted_delete_folder h.tree mem folder leaf
  | createChildren found kind createGrants =>
    refine accessInv_createChildren h (hguard ?_) createGrants _
    rw [isCreateChildrenPreview, found, Option.any_some, kind]
  | applyAcl performed =>
    obtain ⟨_, _, _, _, hstep, _, rfl⟩ := applyOperation_ok (fun _ => False) performed
    exact accessInv_rebuild h.users (hstep.treeInv h.tree)
  | upload _ _ node parent =>
    exact accessInv_created h (h.tree.insert (leafOk_fileNode parent) node)
  | deleteDocument done =>
    obtain ⟨_, _, node, _, _, _, _, _, hleaf, rfl⟩ := v4AdminDeleteDocument_ok done
    exact accessInv_rebuild h.users (h.tree.erase hleaf)
  | same | tick | sessions | previewAcl | stored => exact ⟨h.users, h.tree, h.bound, h.fresh⟩

/-- A call that meets the guard keeps the table fresh. -/
theorem accessInv_step (db : Db) (call : Call) (hguard : FreshGuard db call)
    (h : AccessInv db) : AccessInv (step db call) :=
  h.effect hguard (step_effect db call)

/-! ## Runs -/

theorem accessInv_installed (h : Installed db) : AccessInv db where
  users := h.users
  tree := by
    rw [h.nodes]
    exact treeInv_nil
  bound := by simp [h.effectiveAccess]
  fresh := by
    intro u d
    simp [hasCurrentAccess, effectivePairs, principals, h.effectiveAccess, h.nodes]

theorem accessInv_run (h : Installed db) {calls : List Call}
    (hguard : Along step FreshGuard db calls) : AccessInv (run step db calls) :=
  run_inv AccessInv accessInv_step hguard (accessInv_installed h)

/-- One account, one role. -/
theorem not_admin_of_member (husers : Keyed (·.id) db.accounts.users)
    (hmember : isActiveMember db.accounts.users u = true) : actorIsAdmin db (some u) = false := by
  obtain ⟨a, ha, rfl, _, _, hrole⟩ := isActiveMember_iff.mp hmember
  rw [actorIsAdmin, List.any_eq_false]
  intro b hb hcond
  simp only [decide_eq_true_eq, Option.some.injEq] at hcond
  rw [husers.eq ha hb hcond.1, hcond.2.1] at hrole
  exact absurd hrole (by simp)

/-- While the table is fresh, a member reads exactly what is granted. -/
theorem AccessInv.canRead_iff (h : AccessInv db)
    (hmember : isActiveMember db.accounts.users u = true) (d : DocumentId) :
    canReadDocument db (some u) d = true ↔ Granted db.library db.accounts u d := by
  have hrow : hasCurrentAccess db u d = true ↔ Granted db.library db.accounts u d := by
    rw [h.fresh u d, mem_effectivePairs h.tree]
    exact and_iff_right hmember
  have huploader : isUploader db u d = true → Granted db.library db.accounts u d := by
    intro hup
    rw [isUploader, List.any_eq_true] at hup
    obtain ⟨n, hn, hcond⟩ := hup
    simp only [decide_eq_true_eq] at hcond
    -- only a file node carries a document
    have hkind : n.kind = .file := by
      cases hk : n.kind with
      | file => rfl
      | folder => exact absurd hcond.1 (by simp [(h.tree.folder n hn hk).1])
    exact ⟨n, hn, hkind, hcond.1, Or.inl hcond.2⟩
  rw [canReadDocument, not_admin_of_member h.users hmember, Bool.false_or, Option.any_some,
    Option.any_some, Bool.or_eq_true, hrow]
  exact ⟨fun hc => hc.elim huploader id, Or.inr⟩

/-- After every run whose calls meet the guard, the rows that count are the ones
a rebuild would compute, and a member reads exactly what is granted. -/
theorem fresh_run {db : Db} (h : Installed db) {calls : List Call}
    (hguard : Along step FreshGuard db calls) :
    Fresh (run step db calls) ∧
    ∀ token u, v4CurrentActorId (run step db calls) token = some u →
      isActiveMember (run step db calls).accounts.users u = true →
      ∀ d, v4CanReadDocument (run step db calls) token d = true ↔
        Granted (run step db calls).library (run step db calls).accounts u d := by
  have hinv := accessInv_run h hguard
  refine ⟨hinv.fresh, fun token u hactor hmember d => ?_⟩
  rw [v4CanReadDocument, hactor]
  exact hinv.canRead_iff hmember d

/-- The administrator uploads the document `30` into the folder `10` and grants
the folder to the member `2`. -/
def sharingCalls : List Call :=
  [.createFolder (some (.digest 1)) 10 none "Reports" "reports",
    .uploadPreflight (some (.digest 1)) 20 (sampleUpload 7 (some 10) "a.pdf"),
    .commitUpload (some (.digest 1)) 20 ⟨30, 31, 32, 33, 34⟩ (sampleUpload 7 (some 10) "a.pdf"),
    .previewAcl (some (.digest 1)) 40 (.setGrant 10 (some 2) none true),
    .applyAcl (some (.digest 1)) 41 40
      ⟨.setGrant 10 (some 2) none true, [2], [32], [30], 1, 1, 1⟩]

theorem fresh_run_sharing :
    Along step FreshGuard sampleDb sharingCalls ∧ Fresh (run step sampleDb sharingCalls) ∧
      v4CanReadDocument (run step sampleDb sharingCalls) (some (.digest 2)) 30 = true :=
  ⟨by decide +kernel, (fresh_run installed_sampleDb (by decide +kernel)).1, by decide +kernel⟩

/-- The administrator then lets the member create children in the folder. -/
def createChildrenCalls : List Call :=
  [.previewAcl (some (.digest 1)) 42 (.setCreateChildrenGrant 10 (some 2) none true),
    .applyAcl (some (.digest 1)) 43 42
      ⟨.setCreateChildrenGrant 10 (some 2) none true, [2], [10], [], 1, 1, 0⟩]

/-- The second grant takes the first one away: the member is still granted the
document, no row counts, and the read is refused. -/
theorem not_fresh_createChildren :
    Installed sampleDb ∧
    ¬ Fresh (run step sampleDb (sharingCalls ++ createChildrenCalls)) ∧
    (2, 30) ∈ effectivePairs (run step sampleDb (sharingCalls ++ createChildrenCalls)).library
      (run step sampleDb (sharingCalls ++ createChildrenCalls)).accounts ∧
    v4CanReadDocument (run step sampleDb (sharingCalls ++ createChildrenCalls))
      (some (.digest 2)) 30 = false := by
  have hgranted : (2, 30) ∈ effectivePairs
      (run step sampleDb (sharingCalls ++ createChildrenCalls)).library
      (run step sampleDb (sharingCalls ++ createChildrenCalls)).accounts := by
    decide +kernel
  have hrow : hasCurrentAccess (run step sampleDb (sharingCalls ++ createChildrenCalls)) 2 30 =
      false := by
    decide +kernel
  refine ⟨installed_sampleDb, fun hfresh => ?_, hgranted, by decide +kernel⟩
  rw [(hfresh 2 30).mpr hgranted] at hrow
  exact absurd hrow (by simp)

end LocalRag.Access
