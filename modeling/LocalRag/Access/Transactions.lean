import LocalRag.Access.Accounts
import LocalRag.Core.Locks

/-!
# The account functions, statement by statement

`v4_admin_set_user`, `v4_admin_reset_user`, `v4_change_password`, `v4_consume_activation`,
`v4_issue_login_session`, `v4_refresh_session` and `v4_logout` again, each as the transaction
it runs in, cut between its statements. `Access.Accounts` has what such a call does when it
runs alone.

Mirroring notes.
* READ COMMITTED: a statement reads what is committed when it begins. A row it has to wait for
  is read again when its lock is free, and tested again; the rows it is joined with are not.
* `statement_timestamp()` is the time of the client's statement, which is the call as a whole.
* A row a transaction has written is its own until it ends, so the writes are applied when it
  commits. The rows of one `UPDATE sessions` are locked at once.
* A key of a unique index is locked like a row by the transaction that inserts it.
* Deadlocks, timeouts and clients that go away end a transaction at any time (`rollback`).
* `set_user` takes grants and memberships away and rebuilds; nothing here reads these, and the
  lock on `security_epochs` this needs is left out.
* `csrf_token_hash` and `last_seen_at`, which only the refresh reads, stand in `SessionVisit`.
-/

namespace LocalRag.Access

open LocalRag.Core

structure SessionVisit where
  sessionId : SessionId
  csrfTokenHash : HexText
  lastSeenAt : Time

/-- What the API makes up for a session it asks for. -/
structure NewSession where
  id : SessionId
  tokenHash : HexText
  csrfTokenHash : HexText
  idleExpiresAt : Time
  absoluteExpiresAt : Time

inductive AccountCall where
  | setUser (token : Option HexText) (userId : UserId) (role : Role) (status : UserStatus)
  | resetUser (token : Option HexText) (userId : UserId) (challengeTokenHash : HexText)
      (expiresAt : Time)
  | changePassword (currentSessionTokenHash : HexText) (expectedAuthenticationVersion : Nat)
      (newPasswordHash : String) (replacement : NewSession)
  | consumeActivation (activationTokenHash : HexText) (passwordHash : String)
      (session : NewSession)
  | issueLoginSession (userId : UserId) (expectedAuthenticationVersion : Nat)
      (session : NewSession)
  | refreshSession (sessionTokenHash csrfTokenHash : HexText) (expiresAt : Time)
  | logout (sessionTokenHash : HexText)

/-- What a transaction can hold. -/
inductive LockKey where
  | user (id : UserId)
  | session (id : SessionId)
  | sessionToken (tokenHash : HexText)
  | challenge (tokenHash : HexText)
  /-- `pg_advisory_xact_lock(hashtextextended('rag-v4-final-admin', 0))`. -/
  | finalAdmin
deriving DecidableEq

/-- How far a call is, with what its statements have returned. -/
inductive CallPhase where
  | begun
  /-- Behind `v4_require_admin`. -/
  | authorised
  /-- A `SELECT … FOR UPDATE` has this row in its snapshot. -/
  | found (userId : UserId)
  /-- The same, or an `UPDATE`, with the session row of the snapshot. -/
  | foundSession (session : Session)
  /-- The account is locked, and this is its row. -/
  | locked (account : User)
  /-- The advisory lock is held, too. -/
  | serialised (account : User)
  /-- Behind `UPDATE users`; the row as it was before. -/
  | updated (account : User)
  /-- Behind `UPDATE sessions`. -/
  | revoked (account : User) (sessionIds : List SessionId)
  /-- The function has returned; the sessions it has updated. -/
  | ended (account : Option User) (sessionIds : List SessionId)

structure Transaction where
  call : AccountCall
  startedAt : Time
  phase : CallPhase

abbrev TransactionId := Nat

/-- What is committed, and the transactions that run. -/
structure AccountSite where
  db : Db
  visits : List SessionVisit
  transactions : TransactionId → Option Transaction
  locks : LockTable LockKey TransactionId

/-! ## Statements -/

/-- What a statement of `tx` reads. -/
def snapshot (s : AccountSite) (tx : Transaction) : Db := { s.db with now := tx.startedAt }

def goOn (s : AccountSite) (i : TransactionId) (tx : Transaction) (phase : CallPhase) :
    AccountSite :=
  { s with transactions := Function.update s.transactions i (some { tx with phase := phase }) }

def rollback (s : AccountSite) (i : TransactionId) : AccountSite :=
  { s with
    transactions := Function.update s.transactions i none
    locks := s.locks.release i }

/-- The locks are taken, or waited for. -/
def locking (s : AccountSite) (i : TransactionId) (keys : List LockKey)
    (k : AccountSite → AccountSite) : AccountSite :=
  if s.locks.free i keys then k { s with locks := s.locks.take i keys } else s

/-- The conjunction that `v4_current_actor_id` and the session functions share. -/
def isLive (db : Db) (session : Session) : Bool :=
  session.revokedAt = none ∧ db.now < session.idleExpiresAt ∧
  db.now < session.absoluteExpiresAt ∧
  session.issuedAuthenticationEpoch = db.accounts.epochs.authenticationVersion ∧
  session.issuedSessionEpoch = db.accounts.epochs.sessionEpoch ∧
  db.accounts.users.any fun a =>
    a.id = session.userId ∧ User.isActive a ∧
    session.issuedAuthenticationVersion = a.authenticationVersion

/-- The sessions of `UPDATE sessions SET revoked_at WHERE user_id = … AND revoked_at IS NULL`. -/
def openSessions (db : Db) (userId : UserId) : List SessionId :=
  (db.accounts.sessions.filter fun x => x.userId = userId ∧ x.revokedAt = none).map (·.id)

/-- What `v4_admin_set_user` refuses before, and the database at, its `UPDATE users`. -/
def setUserRefused (db : Db) (current : User) (role : Role) (status : UserStatus) : Bool :=
  status = .pendingActivation ∨ current.status = .deleted ∨
  (current.role = .admin ∧ current.status = .active ∧ (role ≠ .admin ∨ status ≠ .active) ∧
    activeAdminCount db.accounts.users ≤ 1) ∨
  (status = .active ∧ current.passwordHash = none)

/-- How the two administrators' functions begin: `v4_require_admin`, the row, the advisory
lock. -/
def adminStatement (s : AccountSite) (i : TransactionId) (tx : Transaction)
    (token : Option HexText) (userId : UserId) (rest : CallPhase → AccountSite) : AccountSite :=
  match tx.phase with
  | .begun =>
    match v4RequireAdmin (snapshot s tx) token with
    | .error _ => rollback s i
    | .ok _ => goOn s i tx .authorised
  | .authorised =>
    match userById s.db.accounts.users userId with
    | none => rollback s i
    | some _ => goOn s i tx (.found userId)
  | .found _ =>
    locking s i [.user userId] fun s =>
      match userById s.db.accounts.users userId with
      | none => rollback s i
      | some current => goOn s i tx (.locked current)
  | .locked current => locking s i [.finalAdmin] fun s => goOn s i tx (.serialised current)
  | phase => rest phase

def setUserStatement (s : AccountSite) (i : TransactionId) (tx : Transaction)
    (token : Option HexText) (userId : UserId) (role : Role) (status : UserStatus) :
    AccountSite :=
  adminStatement s i tx token userId fun
  | .serialised current =>
    if setUserRefused s.db current role status then rollback s i
    else goOn s i tx (.updated current)
  | .updated current =>
    locking s i ((openSessions s.db userId).map .session) fun s =>
      goOn s i tx (.ended (some current) (openSessions s.db userId))
  | _ => s

/-- What `v4_admin_reset_user` refuses before its `UPDATE users`. -/
def resetRefused (db : Db) (current : User) (challengeTokenHash : HexText) (expiresAt : Time) :
    Bool :=
  ¬ challengeTokenHash.wellFormed ∨ db.now + 30 * minute < expiresAt ∨ expiresAt ≤ db.now ∨
  current.status = .deleted ∨ current.deletedAt ≠ none ∨
  (current.role = .admin ∧ current.status = .active ∧
    activeAdminCount db.accounts.users ≤ 1)

/-- The challenges a reset revokes. -/
def openChallenges (db : Db) (userId : UserId) : List HexText :=
  (db.accounts.challenges.filter fun c =>
    c.userId = userId ∧ c.consumedAt = none ∧ c.revokedAt = none).map (·.tokenHash)

def resetUserStatement (s : AccountSite) (i : TransactionId) (tx : Transaction)
    (token : Option HexText) (userId : UserId) (challengeTokenHash : HexText)
    (expiresAt : Time) : AccountSite :=
  adminStatement s i tx token userId fun
  | .serialised current =>
    if resetRefused (snapshot s tx) current challengeTokenHash expiresAt then rollback s i
    else goOn s i tx (.updated current)
  | .updated current =>
    locking s i ((openSessions s.db userId).map .session ++
        (openChallenges s.db userId).map .challenge ++ [.challenge challengeTokenHash]) fun s =>
      if s.db.accounts.challenges.any fun c => c.tokenHash = challengeTokenHash then rollback s i
      else goOn s i tx (.ended (some current) (openSessions s.db userId))
  | _ => s

/-- `v4_issue_login_session`, from its checks on; `account` is the row it has locked. -/
def issueStatement (s : AccountSite) (i : TransactionId) (tx : Transaction) (account : User)
    (session : NewSession) (sessionIds : List SessionId) (before : User) : AccountSite :=
  if ¬ User.isActive account ∨ ¬ session.tokenHash.wellFormed ∨
      ¬ session.csrfTokenHash.wellFormed ∨ session.idleExpiresAt ≤ tx.startedAt ∨
      tx.startedAt + 30 * minute < session.idleExpiresAt ∨
      session.idleExpiresAt ≠ session.absoluteExpiresAt then rollback s i
  else
    locking s i [.session session.id, .sessionToken session.tokenHash] fun s =>
      if s.db.accounts.sessions.any fun x =>
          x.id = session.id ∨ x.tokenHash = session.tokenHash then rollback s i
      else goOn s i tx (.ended (some before) sessionIds)

/-- The account row after `v4_change_password`. -/
def passwordChanged (newPasswordHash : String) (a : User) : User :=
  { a with
    passwordHash := some newPasswordHash
    authenticationVersion := a.authenticationVersion + 1 }

def changePasswordStatement (s : AccountSite) (i : TransactionId) (tx : Transaction)
    (currentSessionTokenHash : HexText) (expectedAuthenticationVersion : Nat)
    (newPasswordHash : String) (replacement : NewSession) : AccountSite :=
  match tx.phase with
  | .begun =>
    match s.db.accounts.sessions.find? fun x =>
        x.tokenHash = currentSessionTokenHash ∧ isLive (snapshot s tx) x ∧
        x.issuedAuthenticationVersion = expectedAuthenticationVersion with
    | none => rollback s i
    | some session => goOn s i tx (.foundSession session)
  | .foundSession session =>
    locking s i [.user session.userId] fun s =>
      match userById s.db.accounts.users session.userId with
      | none => rollback s i
      | some account =>
        -- the session is the one of the snapshot
        if User.isActive account ∧
            account.authenticationVersion = expectedAuthenticationVersion ∧
            session.issuedAuthenticationVersion = account.authenticationVersion then
          goOn s i tx (.locked account)
        else rollback s i
  | .locked account =>
    if isArgon2idHash newPasswordHash then goOn s i tx (.updated account) else rollback s i
  | .updated account =>
    locking s i ((openSessions s.db account.id).map .session) fun s =>
      goOn s i tx (.revoked account (openSessions s.db account.id))
  | .revoked account sessionIds =>
    issueStatement s i tx (passwordChanged newPasswordHash account) replacement sessionIds account
  | _ => s

def consumeActivationStatement (s : AccountSite) (i : TransactionId) (tx : Transaction)
    (activationTokenHash : HexText) (passwordHash : String) (session : NewSession) :
    AccountSite :=
  match tx.phase with
  | .begun =>
    match activationUser (snapshot s tx) activationTokenHash with
    | none => rollback s i
    | some userId => goOn s i tx (.found userId)
  | .found userId =>
    locking s i [.challenge activationTokenHash, .user userId] fun s =>
      match userById s.db.accounts.users userId with
      | none => rollback s i
      | some account =>
        if activationUser (snapshot s tx) activationTokenHash = some userId then
          goOn s i tx (.locked account)
        else rollback s i
  | .locked account =>
    if isArgon2idHash passwordHash then goOn s i tx (.updated account) else rollback s i
  | .updated account =>
    issueStatement s i tx (activated passwordHash account) session [] account
  | _ => s

def issueLoginSessionStatement (s : AccountSite) (i : TransactionId) (tx : Transaction)
    (userId : UserId) (expectedAuthenticationVersion : Nat) (session : NewSession) :
    AccountSite :=
  let fits := fun a : User =>
    User.isActive a ∧ a.authenticationVersion = expectedAuthenticationVersion
  match tx.phase with
  | .begun =>
    if (userById s.db.accounts.users userId).any fun a => fits a then goOn s i tx (.found userId)
    else rollback s i
  | .found _ =>
    locking s i [.user userId] fun s =>
      match userById s.db.accounts.users userId with
      | none => rollback s i
      | some account => if fits account then goOn s i tx (.locked account) else rollback s i
  | .locked account => issueStatement s i tx account session [] account
  | _ => s

/-- `session_row.last_seen_at <= statement_timestamp() - interval '5 minutes'`. -/
def refreshDue (s : AccountSite) (tx : Transaction) (sessionId : SessionId) : Bool :=
  s.visits.any fun v => v.sessionId = sessionId ∧ v.lastSeenAt + 5 * minute ≤ tx.startedAt

def refreshSessionStatement (s : AccountSite) (i : TransactionId) (tx : Transaction)
    (sessionTokenHash csrfTokenHash : HexText) (expiresAt : Time) : AccountSite :=
  match tx.phase with
  | .begun =>
    if ¬ sessionTokenHash.wellFormed ∨ ¬ csrfTokenHash.wellFormed ∨ expiresAt ≤ tx.startedAt ∨
        tx.startedAt + 30 * minute < expiresAt then rollback s i
    else
      match s.db.accounts.sessions.find? fun x =>
          x.tokenHash = sessionTokenHash ∧ isLive (snapshot s tx) x ∧
          (s.visits.any fun v => v.sessionId = x.id ∧ v.csrfTokenHash = csrfTokenHash) ∧
          refreshDue s tx x.id with
      | none => goOn s i tx (.ended none [])
      | some session => goOn s i tx (.foundSession session)
  | .foundSession session =>
    locking s i [.session session.id] fun s =>
      -- `valid` is materialised: of the row that was waited for only this is tested again
      if refreshDue s tx session.id then goOn s i tx (.ended none [session.id])
      else goOn s i tx (.ended none [])
  | _ => s

def logoutStatement (s : AccountSite) (i : TransactionId) (tx : Transaction)
    (sessionTokenHash : HexText) : AccountSite :=
  match tx.phase with
  | .begun =>
    match s.db.accounts.sessions.find? fun x =>
        x.tokenHash = sessionTokenHash ∧ x.revokedAt = none with
    | none => goOn s i tx (.ended none [])
    | some session => goOn s i tx (.foundSession session)
  | .foundSession session =>
    locking s i [.session session.id] fun s => goOn s i tx (.ended none [session.id])
  | _ => s

/-- The next statement of the call. -/
def statement (s : AccountSite) (i : TransactionId) (tx : Transaction) : AccountSite :=
  match tx.call with
  | .setUser token userId role status => setUserStatement s i tx token userId role status
  | .resetUser token userId challengeTokenHash expiresAt =>
    resetUserStatement s i tx token userId challengeTokenHash expiresAt
  | .changePassword currentSessionTokenHash version newPasswordHash replacement =>
    changePasswordStatement s i tx currentSessionTokenHash version newPasswordHash replacement
  | .consumeActivation activationTokenHash passwordHash session =>
    consumeActivationStatement s i tx activationTokenHash passwordHash session
  | .issueLoginSession userId version session =>
    issueLoginSessionStatement s i tx userId version session
  | .refreshSession sessionTokenHash csrfTokenHash expiresAt =>
    refreshSessionStatement s i tx sessionTokenHash csrfTokenHash expiresAt
  | .logout sessionTokenHash => logoutStatement s i tx sessionTokenHash

/-! ## Commit -/

/-- `UPDATE sessions SET revoked_at = statement_timestamp()`, of these rows. -/
def revokeRows (revokedAt : Time) (sessionIds : List SessionId) (sessions : List Session) :
    List Session :=
  updateWhere (fun x => x.id ∈ sessionIds ∧ x.revokedAt = none)
    (fun x => { x with revokedAt := some revokedAt }) sessions

/-- The row of a session that is issued for an account row. -/
def issuedSession (db : Db) (account : User) (session : NewSession) : Session where
  id := session.id
  userId := account.id
  tokenHash := session.tokenHash
  issuedAuthenticationVersion := account.authenticationVersion
  issuedAuthenticationEpoch := db.accounts.epochs.authenticationVersion
  issuedSessionEpoch := db.accounts.epochs.sessionEpoch
  idleExpiresAt := session.idleExpiresAt
  absoluteExpiresAt := session.absoluteExpiresAt
  revokedAt := none

def issuedVisit (startedAt : Time) (session : NewSession) : SessionVisit :=
  ⟨session.id, session.csrfTokenHash, startedAt⟩

/-- The accounts behind a call that updated `current` and `sessionIds`. -/
def committedAccounts (db : Db) (tx : Transaction) (account : Option User)
    (sessionIds : List SessionId) : Accounts :=
  let a := db.accounts
  match tx.call, account with
  | .setUser _ userId role status, some _ =>
    { a with
      users := updateWhere (fun u => u.id = userId) (userSet tx.startedAt role status) a.users
      sessions := revokeRows tx.startedAt sessionIds a.sessions }
  | .resetUser _ userId challengeTokenHash expiresAt, some _ =>
    { a with
      users := updateWhere (fun u => u.id = userId ∧ u.deletedAt = none) resetPending a.users
      sessions := revokeRows tx.startedAt sessionIds a.sessions
      challenges := updateWhere
        (fun c => c.userId = userId ∧ c.consumedAt = none ∧ c.revokedAt = none)
        (fun c => { c with revokedAt := some tx.startedAt }) a.challenges ++
        [{ userId := userId, tokenHash := challengeTokenHash, expiresAt := expiresAt,
           consumedAt := none, revokedAt := none }] }
  | .changePassword _ _ newPasswordHash replacement, some account =>
    { a with
      users := updateWhere (fun u => u.id = account.id) (passwordChanged newPasswordHash) a.users
      sessions := revokeRows tx.startedAt sessionIds a.sessions ++
        [issuedSession db (passwordChanged newPasswordHash account) replacement] }
  | .consumeActivation activationTokenHash passwordHash session, some account =>
    { a with
      challenges := updateWhere (fun c => c.tokenHash = activationTokenHash)
        (fun c => { c with consumedAt := some tx.startedAt }) a.challenges
      users := updateWhere (fun u => u.id = account.id) (activated passwordHash) a.users
      sessions := a.sessions ++ [issuedSession db (activated passwordHash account) session] }
  | .issueLoginSession _ _ session, some account =>
    { a with sessions := a.sessions ++ [issuedSession db account session] }
  | .refreshSession _ _ expiresAt, _ =>
    { a with
      sessions := updateWhere (fun x => x.id ∈ sessionIds)
        (fun x => { x with idleExpiresAt := expiresAt, absoluteExpiresAt := expiresAt })
        a.sessions }
  | .logout _, _ => { a with sessions := revokeRows tx.startedAt sessionIds a.sessions }
  | _, none => a

def committedVisits (visits : List SessionVisit) (tx : Transaction)
    (sessionIds : List SessionId) : List SessionVisit :=
  match tx.call with
  | .changePassword _ _ _ session => visits ++ [issuedVisit tx.startedAt session]
  | .consumeActivation _ _ session => visits ++ [issuedVisit tx.startedAt session]
  | .issueLoginSession _ _ session => visits ++ [issuedVisit tx.startedAt session]
  | .refreshSession _ _ _ =>
    updateWhere (fun v => v.sessionId ∈ sessionIds) (fun v => { v with lastSeenAt := tx.startedAt })
      visits
  | _ => visits

/-! ## Steps -/

inductive AccountAct where
  | begin (i : TransactionId) (call : AccountCall)
  | statement (i : TransactionId)
  | commit (i : TransactionId)
  | rollback (i : TransactionId)
  | tick (elapsed : Time)

def beginCall (s : AccountSite) (i : TransactionId) (call : AccountCall) : AccountSite :=
  match s.transactions i with
  | some _ => s
  | none =>
    { s with transactions := Function.update s.transactions i (some ⟨call, s.db.now, .begun⟩) }

def commitCall (s : AccountSite) (i : TransactionId) : AccountSite :=
  match s.transactions i with
  | some ⟨call, startedAt, .ended account sessionIds⟩ =>
    let tx : Transaction := ⟨call, startedAt, .ended account sessionIds⟩
    { s with
      db.accounts := committedAccounts s.db tx account sessionIds
      visits := committedVisits s.visits tx sessionIds
      transactions := Function.update s.transactions i none
      locks := s.locks.release i }
  | _ => s

def statementOf (s : AccountSite) (i : TransactionId) : AccountSite :=
  match s.transactions i with
  | some tx => statement s i tx
  | none => s

def accountStep (s : AccountSite) : AccountAct → AccountSite
  | .begin i call => beginCall s i call
  | .statement i => statementOf s i
  | .commit i => commitCall s i
  | .rollback i => rollback s i
  | .tick elapsed => { s with db.now := s.db.now + elapsed }

/-- Nobody has begun anything. -/
def idleSite (db : Db) (visits : List SessionVisit) : AccountSite where
  db := db
  visits := visits
  transactions := fun _ => none
  locks := fun _ => none

end LocalRag.Access
