import LocalRag.Access.Walk

/-!
# Accounts and sessions

`v4_current_actor_id`, `v4_require_admin`, `v4_issue_login_session`,
`v4_logout`, `v4_consume_activation`, `v4_admin_reset_user` of `0001_v4_baseline`
and `v4_admin_set_user` as `0004` replaces it.

The session token is the `rag.session_token_hash` setting of the connection:
every function below resolves its caller from it, as the SQL does. A function
returns the database it leaves and its result, or the error that aborts its
transaction. Audit rows are not modelled; nothing reads them back.
-/

namespace LocalRag.Access

open LocalRag.Core

/-- `account.status = 'active' AND account.deleted_at IS NULL`. -/
def User.isActive (u : User) : Bool := u.status = .active ∧ u.deletedAt = none

/-- The account row with this primary key. -/
def userById (users : List User) (u : UserId) : Option User := users.find? fun a => a.id = u

/-- `v4_current_actor_id`. -/
def v4CurrentActorId (db : Db) (token : Option HexText) : Option UserId :=
  db.accounts.sessions.findSome? fun s =>
    if token = some s.tokenHash ∧ s.revokedAt = none ∧ db.now < s.idleExpiresAt ∧
        db.now < s.absoluteExpiresAt ∧
        s.issuedAuthenticationEpoch = db.accounts.epochs.authenticationVersion ∧
        s.issuedSessionEpoch = db.accounts.epochs.sessionEpoch then
      (db.accounts.users.find? fun a => a.id = s.userId ∧ User.isActive a ∧
        s.issuedAuthenticationVersion = a.authenticationVersion).map (·.id)
    else none

/-- `v4_can_read_document`, as the session calls it. -/
def v4CanReadDocument (db : Db) (token : Option HexText) (d : DocumentId) : Bool :=
  canReadDocument db (v4CurrentActorId db token) d

/-- `IF v_actor IS NULL THEN RAISE 'authentication required'`. -/
def requireActor (db : Db) (token : Option HexText) : Except SqlError UserId :=
  match v4CurrentActorId db token with
  | none => .error ⟨"28000", "authentication required"⟩
  | some u => .ok u

/-- `v4_require_admin`. -/
def v4RequireAdmin (db : Db) (token : Option HexText) : Except SqlError UserId :=
  match v4CurrentActorId db token with
  | none => .error ⟨"42501", "administrator capability required"⟩
  | some u =>
    if actorIsAdmin db (some u) then .ok u
    else .error ⟨"42501", "administrator capability required"⟩

/-- `p LIKE '$argon2id$%'`. -/
def isArgon2idHash (hash : String) : Bool := "$argon2id$".toList.isPrefixOf hash.toList

/-- `v4_issue_login_session`. -/
def v4IssueLoginSession (db : Db) (sessionId : SessionId) (userId : UserId)
    (expectedAuthenticationVersion : Nat) (sessionTokenHash csrfTokenHash : HexText)
    (idleExpiresAt absoluteExpiresAt : Time) : Except SqlError (Db × User) :=
  match db.accounts.users.find? fun a => a.id = userId ∧ User.isActive a ∧
      a.authenticationVersion = expectedAuthenticationVersion with
  | none => .error noDataFound
  | some account =>
    if ¬ sessionTokenHash.wellFormed ∨ ¬ csrfTokenHash.wellFormed ∨ idleExpiresAt ≤ db.now ∨
        db.now + 30 * minute < idleExpiresAt ∨ idleExpiresAt ≠ absoluteExpiresAt then
      .error ⟨"22023", "invalid session issue request"⟩
    else if db.accounts.sessions.any fun s => s.id = sessionId then
      .error (uniqueViolation "sessions_pkey")
    else if db.accounts.sessions.any fun s => s.tokenHash = sessionTokenHash then
      .error (uniqueViolation "uq_sessions_token_hash")
    else
      .ok ({ db with
        accounts.sessions := db.accounts.sessions ++ [{
          id := sessionId
          userId := userId
          tokenHash := sessionTokenHash
          issuedAuthenticationVersion := account.authenticationVersion
          issuedAuthenticationEpoch := db.accounts.epochs.authenticationVersion
          issuedSessionEpoch := db.accounts.epochs.sessionEpoch
          idleExpiresAt := idleExpiresAt
          absoluteExpiresAt := absoluteExpiresAt
          revokedAt := none }] }, account)

/-- `v4_logout`. -/
def v4Logout (db : Db) (sessionTokenHash : HexText) : Except SqlError (Db × Unit) :=
  .ok ({ db with
    accounts.sessions := updateWhere
      (fun s => s.tokenHash = sessionTokenHash ∧ s.revokedAt = none)
      (fun s => { s with revokedAt := some db.now }) db.accounts.sessions }, ())

/-- The account an unspent activation challenge belongs to. -/
def activationUser (db : Db) (activationTokenHash : HexText) : Option UserId :=
  db.accounts.challenges.findSome? fun c =>
    if c.tokenHash = activationTokenHash ∧ c.consumedAt = none ∧ c.revokedAt = none ∧
        db.now < c.expiresAt then
      (db.accounts.users.find? fun a => a.id = c.userId ∧ a.status = .pendingActivation ∧
        a.passwordHash = none).map (·.id)
    else none

/-- The account row after `v4_consume_activation`. -/
def activated (passwordHash : String) (a : User) : User :=
  { a with
    status := .active
    passwordHash := some passwordHash
    authenticationVersion := a.authenticationVersion + 1 }

/-- `v4_consume_activation`. The account becomes active and gets a session; the
effective access table is left as it is. -/
def v4ConsumeActivation (db : Db) (sessionId : SessionId) (activationTokenHash : HexText)
    (passwordHash : String) (sessionTokenHash csrfTokenHash : HexText)
    (idleExpiresAt absoluteExpiresAt : Time) : Except SqlError (Db × UserId) :=
  match activationUser db activationTokenHash with
  | none => .error noDataFound
  | some userId =>
    if ¬ isArgon2idHash passwordHash then .error ⟨"22023", "invalid password verifier"⟩
    else
      let db' : Db := { db with
        accounts.challenges := updateWhere (fun c => c.tokenHash = activationTokenHash)
          (fun c => { c with consumedAt := some db.now }) db.accounts.challenges
        accounts.users := updateWhere (fun a => a.id = userId) (activated passwordHash)
          db.accounts.users }
      match userById db'.accounts.users userId with
      | none => .error noDataFound
      | some account =>
        match v4IssueLoginSession db' sessionId userId account.authenticationVersion
            sessionTokenHash csrfTokenHash idleExpiresAt absoluteExpiresAt with
        | .error e => .error e
        | .ok (db'', _) => .ok (db'', userId)

/-- `SELECT count(*) … WHERE role = 'admin' AND status = 'active' AND deleted_at IS NULL`. -/
def activeAdminCount (users : List User) : Nat :=
  (users.filter fun a => a.role = .admin ∧ User.isActive a).length

/-- `UPDATE sessions SET revoked_at WHERE user_id = … AND revoked_at IS NULL`. -/
def revokeSessions (db : Db) (userId : UserId) : List Session :=
  updateWhere (fun s => s.userId = userId ∧ s.revokedAt = none)
    (fun s => { s with revokedAt := some db.now }) db.accounts.sessions

/-- The account row after `v4_admin_reset_user`. -/
def resetPending (a : User) : User :=
  { a with
    status := .pendingActivation
    passwordHash := none
    authenticationVersion := a.authenticationVersion + 1 }

/-- `v4_admin_reset_user`. The account leaves the active state; the effective
access table is left as it is. -/
def v4AdminResetUser (db : Db) (token : Option HexText) (userId : UserId)
    (challengeTokenHash : HexText) (expiresAt : Time) : Except SqlError (Db × Unit) :=
  match v4RequireAdmin db token with
  | .error e => .error e
  | .ok _ =>
    match userById db.accounts.users userId with
    | none => .error ⟨"RAG02", "user state changed or no longer exists"⟩
    | some current =>
      if ¬ challengeTokenHash.wellFormed ∨ db.now + 30 * minute < expiresAt ∨
          expiresAt ≤ db.now then
        .error ⟨"22023", "invalid reset request"⟩
      else if current.status = .deleted ∨ current.deletedAt ≠ none then
        .error ⟨"RAG04", "deleted users are irreversible"⟩
      else if current.role = .admin ∧ current.status = .active ∧
          activeAdminCount db.accounts.users ≤ 1 then
        .error ⟨"RAG03", "cannot reset the final active administrator"⟩
      else if db.accounts.challenges.any fun c => c.tokenHash = challengeTokenHash then
        .error (uniqueViolation "uq_pre_auth_challenges_token_hash")
      else
        .ok ({ db with
          accounts.users := updateWhere (fun a => a.id = userId ∧ a.deletedAt = none)
            resetPending db.accounts.users
          accounts.sessions := revokeSessions db userId
          accounts.challenges := updateWhere
            (fun c => c.userId = userId ∧ c.consumedAt = none ∧ c.revokedAt = none)
            (fun c => { c with revokedAt := some db.now }) db.accounts.challenges ++
            [{ userId := userId, tokenHash := challengeTokenHash, expiresAt := expiresAt,
               consumedAt := none, revokedAt := none }] }, ())

/-- The account row after `v4_admin_set_user`. -/
def userSet (now : Time) (role : Role) (status : UserStatus) (a : User) : User :=
  { a with
    role := role
    status := status
    passwordHash := if status = .deleted then none else a.passwordHash
    deletedAt := if status = .deleted then some now else none
    authenticationVersion := a.authenticationVersion + 1 }

/-- `v4_admin_set_user` (`0004`). -/
def v4AdminSetUser (db : Db) (token : Option HexText) (userId : UserId) (role : Role)
    (status : UserStatus) : Except SqlError (Db × Unit) :=
  match v4RequireAdmin db token with
  | .error e => .error e
  | .ok _ =>
    match userById db.accounts.users userId with
    | none => .error ⟨"RAG02", "user state changed or no longer exists"⟩
    | some current =>
      if status = .pendingActivation then .error ⟨"22023", "invalid user state"⟩
      else if current.status = .deleted then
        .error ⟨"RAG04", "deleted users are irreversible"⟩
      else if current.role = .admin ∧ current.status = .active ∧
          (role ≠ .admin ∨ status ≠ .active) ∧ activeAdminCount db.accounts.users ≤ 1 then
        .error ⟨"RAG03", "cannot remove the final enabled administrator"⟩
      else if status = .active ∧ current.passwordHash = none then
        .error (checkViolation "ck_users_active_password")
      else
        let changed : Db := { db with
          accounts.users := updateWhere (fun a => a.id = userId) (userSet db.now role status)
            db.accounts.users
          accounts.sessions := revokeSessions db userId }
        let stripped : Db := if status = .active then changed else { changed with
          accounts.teamMembers := deleteWhere (fun m => m.userId = userId)
            changed.accounts.teamMembers
          library.accessGrants := deleteWhere (fun g => g.userId = some userId)
            changed.library.accessGrants
          library.folderCreateGrants := deleteWhere (fun g => g.userId = some userId)
            changed.library.folderCreateGrants }
        .ok (v4RebuildEffectiveDocumentAccess stripped, ())

/-! ## What each call can do -/

theorem v4IssueLoginSession_ok {db db' : Db} {sessionId userId version : Nat}
    {tokenHash csrfHash : HexText} {idle absolute : Time} {account : User}
    (h : v4IssueLoginSession db sessionId userId version tokenHash csrfHash idle absolute =
      .ok (db', account)) :
    ∃ sessions, db' = { db with accounts.sessions := sessions } := by
  unfold v4IssueLoginSession at h
  split at h
  · cases h
  · simp only [ite_error_eq_ok] at h
    obtain ⟨_, _, _, h⟩ := h
    exact ⟨_, (left_of_ok h).symm⟩

/-- Activation: the account of a live challenge becomes active. -/
theorem v4ConsumeActivation_ok {db db' : Db} {sessionId userId : Nat} {activationHash : HexText}
    {passwordHash : String} {tokenHash csrfHash : HexText} {idle absolute : Time}
    (h : v4ConsumeActivation db sessionId activationHash passwordHash tokenHash csrfHash idle
      absolute = .ok (db', userId)) :
    activationUser db activationHash = some userId ∧
    ∃ sessions challenges, db' = { db with
      accounts.users := updateWhere (fun a => a.id = userId) (activated passwordHash)
        db.accounts.users
      accounts.sessions := sessions
      accounts.challenges := challenges } := by
  unfold v4ConsumeActivation at h
  split at h
  · cases h
  next u hu =>
    dsimp only at h
    rw [ite_error_eq_ok] at h
    obtain ⟨_, h⟩ := h
    split at h
    · cases h
    split at h
    · cases h
    next db'' account hissue =>
      obtain ⟨rfl, rfl⟩ : db'' = db' ∧ u = userId := by simpa using h
      obtain ⟨sessions, rfl⟩ := v4IssueLoginSession_ok hissue
      exact ⟨hu, sessions, _, rfl⟩

/-- Reset: the account leaves the active state, its sessions are revoked. -/
theorem v4AdminResetUser_ok {db db' : Db} {token : Option HexText} {userId : UserId}
    {challengeHash : HexText} {expiresAt : Time}
    (h : v4AdminResetUser db token userId challengeHash expiresAt = .ok (db', ())) :
    ∃ sessions challenges, db' = { db with
      accounts.users := updateWhere (fun a => a.id = userId ∧ a.deletedAt = none) resetPending
        db.accounts.users
      accounts.sessions := sessions
      accounts.challenges := challenges } := by
  unfold v4AdminResetUser at h
  split at h
  · cases h
  split at h
  · cases h
  · simp only [ite_error_eq_ok] at h
    obtain ⟨_, _, _, _, h⟩ := h
    exact ⟨_, _, (left_of_ok h).symm⟩

/-- Set user: accounts and grants change, then the rebuild. -/
theorem v4AdminSetUser_ok {db db' : Db} {token : Option HexText} {userId : UserId} {role : Role}
    {status : UserStatus} (h : v4AdminSetUser db token userId role status = .ok (db', ())) :
    ∃ sessions members grants createGrants, db' = v4RebuildEffectiveDocumentAccess { db with
      accounts.users := updateWhere (fun a => a.id = userId) (userSet db.now role status)
        db.accounts.users
      accounts.sessions := sessions
      accounts.teamMembers := members
      library.accessGrants := grants
      library.folderCreateGrants := createGrants } := by
  unfold v4AdminSetUser at h
  split at h
  · cases h
  split at h
  · cases h
  · simp only [ite_error_eq_ok] at h
    obtain ⟨_, _, _, _, h⟩ := h
    by_cases hs : status = .active
    · rw [if_pos hs] at h
      exact ⟨_, _, _, _, (left_of_ok h).symm⟩
    · rw [if_neg hs] at h
      exact ⟨_, _, _, _, (left_of_ok h).symm⟩

end LocalRag.Access
