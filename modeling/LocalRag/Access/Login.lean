import LocalRag.Core.Run
import LocalRag.Schema

/-!
# Signing in — the throttle of `login_throttles` and the attempts that overlap

`login` of `app/services/authentication.py` with the functions of
`0001_v4_baseline` it calls: `v4_login_blocked_until`, `v4_auth_lookup`,
`v4_record_login_failure`, `v4_clear_login_failures`.

An attempt is three steps with other attempts between them: a transaction that
reads the block and looks the account up, the password check outside any
transaction, and a transaction that records a failure or clears the record and
issues a session. A transaction is one step, and everything happens at the
state's `clock`, which the process and the database share (the product runs on
one machine).

What the model is given instead of computing: the account row a look-up finds,
whether Argon2 accepts the password, and whether `v4_issue_login_session` finds
the account it is asked for. Runs are over every such outcome.

`series` is read by no transition. It is the record the throttle is judged by:
how many failures of a client key came in a row, and when the last was recorded.
-/

namespace LocalRag.Login

open LocalRag.Core

/-- `interval '1 minute' * n`, in the microseconds of a `timestamptz`. -/
def minutes (n : Nat) : Nat := n * 60000000

/-- `interval '24 hours'`. -/
def day : Nat := minutes (24 * 60)

/-! ## The table -/

/-- A row of `login_throttles`; the client key is its primary key. -/
structure ThrottleRow where
  failureCount : Nat
  firstFailureAt : Nat
  blockedUntil : Option Nat
  updatedAt : Nat
deriving Repr, DecidableEq

abbrev LoginThrottles := HexText → Option ThrottleRow

/-- `updated_at < statement_timestamp() - interval '24 hours'`. -/
def ThrottleRow.aged (now : Nat) (r : ThrottleRow) : Bool := r.updatedAt + day < now

/-- `DELETE FROM login_throttles WHERE updated_at < …`. -/
def deleteAged (now : Nat) (throttles : LoginThrottles) : LoginThrottles :=
  fun k => (throttles k).filter fun r => !r.aged now

def invalidThrottleKey : SqlError := ⟨"22023", "invalid throttle key"⟩

/-- `v4_login_blocked_until`. -/
def v4LoginBlockedUntil (throttles : LoginThrottles) (now : Nat) (keyHash : HexText) :
    Except SqlError (LoginThrottles × Option Nat) :=
  if ¬ keyHash.wellFormed then .error invalidThrottleKey
  else
    .ok (deleteAged now throttles,
      (deleteAged now throttles keyHash).bind fun r => r.blockedUntil.filter (now < ·))

/-- The columns `v4_auth_lookup` takes from `users`. -/
structure AuthAccount where
  userId : UserId
  accountStatus : UserStatus
  authenticationVersion : Nat
deriving Repr, DecidableEq

/-- The row of `v4_auth_lookup`: the account, when the name has one, and the
block, which `login` does not look at. -/
structure AuthLookup where
  account : Option AuthAccount
  blockedUntil : Option Nat
deriving Repr, DecidableEq

/-- `v4_auth_lookup`. -/
def v4AuthLookup (throttles : LoginThrottles) (now : Nat) (account : Option AuthAccount)
    (clientKeyHash : HexText) : AuthLookup where
  account := account
  blockedUntil :=
    if clientKeyHash.wellFormed then
      (throttles clientKeyHash).bind fun r => r.blockedUntil.filter (now < ·)
    else none

/-- `ON CONFLICT (key_hash) DO UPDATE`: the row after one more failure. -/
def ThrottleRow.failed (now : Nat) (r : ThrottleRow) : ThrottleRow where
  failureCount := if r.aged now then 1 else min (r.failureCount + 1) 100
  firstFailureAt := if r.aged now then now else r.firstFailureAt
  blockedUntil :=
    if 5 ≤ (if r.aged now then 1 else min (r.failureCount + 1) 100) then
      some (now + min (minutes 15) (minutes (min (r.failureCount + 1) 100 - 4)))
    else none
  updatedAt := now

/-- The row `v4_record_login_failure` leaves. -/
def failedRow (now : Nat) : Option ThrottleRow → ThrottleRow
  | none => { failureCount := 1, firstFailureAt := now, blockedUntil := none, updatedAt := now }
  | some r => r.failed now

/-- `v4_record_login_failure`. -/
def v4RecordLoginFailure (throttles : LoginThrottles) (now : Nat) (keyHash : HexText) :
    Except SqlError (LoginThrottles × Option Nat) :=
  if ¬ keyHash.wellFormed then .error invalidThrottleKey
  else
    let row := failedRow now (deleteAged now throttles keyHash)
    .ok (fun k => if k = keyHash then some row else deleteAged now throttles k, row.blockedUntil)

/-- `v4_clear_login_failures`. -/
def v4ClearLoginFailures (throttles : LoginThrottles) (keyHash : HexText) : LoginThrottles :=
  fun k => if k = keyHash ∧ keyHash.wellFormed then none else throttles k

/-! ## Attempts -/

/-- How far a call of `login` has come. -/
inductive Stage where
  | begun
  | lookedUp (row : AuthLookup)
  | verified (row : AuthLookup) (invalid : Bool)
  | ended
deriving Repr, DecidableEq

/-- A call of `login` with the `now` it took at its start. -/
structure Attempt where
  clientKey : HexText
  now : Nat
  stage : Stage
deriving Repr, DecidableEq

/-- The attempt passed the check and has not come to its second transaction. -/
def Stage.underWay : Stage → Bool
  | .lookedUp _ => true
  | .verified _ _ => true
  | _ => false

/-- The password was found wrong and the failure is not recorded yet. -/
def Stage.foundWrong : Stage → Bool
  | .verified _ invalid => invalid
  | _ => false

/-- `row is None or row.user_id is None or not password_matches or
row.account_status != "active"`. -/
def isInvalid (row : AuthLookup) (passwordMatches : Bool) : Bool :=
  match row.account with
  | none => true
  | some account => !passwordMatches || account.accountStatus != .active

/-- The failures of a client key in a row, and when the last was recorded. -/
structure Series where
  failures : Nat
  failedAt : Nat
deriving Repr, DecidableEq

/-- The failures in a row as they stand at `now`: 24 quiet hours end a series. -/
def Series.consecutive (f : Series) (now : Nat) : Nat :=
  if f.failedAt + day < now then 0 else f.failures

structure LoginState where
  clock : Nat
  throttles : LoginThrottles
  attempts : List Attempt
  series : HexText → Series

/-- Before the first attempt. -/
def LoginState.initial : LoginState where
  clock := 0
  throttles := fun _ => none
  attempts := []
  series := fun _ => ⟨0, 0⟩

/-- What happens next: a call of `login` starts, an attempt takes its first
transaction (the account the name has at that moment), checks the password or
takes its second transaction (whether the session could be issued), or time passes. -/
inductive LoginEvent where
  | start (clientKey : HexText)
  | check (i : Nat) (account : Option AuthAccount)
  | verify (i : Nat) (passwordMatches : Bool)
  | finish (i : Nat) (issued : Bool)
  | tick (elapsed : Nat)
deriving Repr, DecidableEq

def LoginState.setStage (s : LoginState) (i : Nat) (a : Attempt) (stage : Stage) : LoginState :=
  { s with attempts := s.attempts.set i { a with stage := stage } }

/-- The first transaction up to `raise InvalidCredentials`: the table it leaves, or
nothing when it raised and was rolled back. -/
def checkBlock (s : LoginState) (a : Attempt) : Option LoginThrottles :=
  match v4LoginBlockedUntil s.throttles s.clock a.clientKey with
  | .error _ => none
  | .ok (throttles, blockedUntil) =>
    if blockedUntil.any (a.now < ·) then none else some throttles

/-- The first transaction of `login`. -/
def check (s : LoginState) (i : Nat) (a : Attempt) (account : Option AuthAccount) : LoginState :=
  match checkBlock s a with
  | none => s.setStage i a .ended
  | some throttles =>
    { s.setStage i a (.lookedUp (v4AuthLookup throttles s.clock account a.clientKey)) with
      throttles := throttles }

/-- The second transaction of `login`, for an attempt that failed. -/
def recordFailure (s : LoginState) (i : Nat) (a : Attempt) : LoginState :=
  match v4RecordLoginFailure s.throttles s.clock a.clientKey with
  | .error _ => s.setStage i a .ended
  | .ok (throttles, _) =>
    { s.setStage i a .ended with
      throttles := throttles
      series := fun k =>
        if k = a.clientKey then ⟨(s.series k).consecutive s.clock + 1, s.clock⟩ else s.series k }

/-- The second transaction of `login`, for an attempt that succeeded. Where no
session is issued the transaction is rolled back, the clearing with it. -/
def issueSession (s : LoginState) (i : Nat) (a : Attempt) (issued : Bool) : LoginState :=
  if issued then
    { s.setStage i a .ended with
      throttles := v4ClearLoginFailures s.throttles a.clientKey
      series := fun k => if k = a.clientKey then ⟨0, s.clock⟩ else s.series k }
  else s.setStage i a .ended

/-- The attempt `i`, if there is one, goes on. -/
def LoginState.onAttempt (s : LoginState) (i : Nat) (next : Attempt → LoginState) : LoginState :=
  match s.attempts[i]? with
  | none => s
  | some a => next a

def step (s : LoginState) : LoginEvent → LoginState
  | .start clientKey => { s with attempts := s.attempts ++ [⟨clientKey, s.clock, .begun⟩] }
  | .check i account => s.onAttempt i fun a =>
    match a.stage with
    | .begun => check s i a account
    | _ => s
  | .verify i passwordMatches => s.onAttempt i fun a =>
    match a.stage with
    | .lookedUp row => s.setStage i a (.verified row (isInvalid row passwordMatches))
    | _ => s
  | .finish i issued => s.onAttempt i fun a =>
    match a.stage with
    | .verified _ true => recordFailure s i a
    | .verified _ false => issueSession s i a issued
    | _ => s
  | .tick elapsed => { s with clock := s.clock + elapsed }

/-! ## What is counted -/

/-- The attempts of a client key between their two transactions. -/
def inFlight (s : LoginState) (key : HexText) : Nat :=
  s.attempts.countP fun a => a.clientKey = key && a.stage.underWay

/-- The wrong passwords of a client key that no failure stands for yet. -/
def wrongPending (s : LoginState) (key : HexText) : Nat :=
  s.attempts.countP fun a => a.clientKey = key && a.stage.foundWrong

/-- The failures a row, if there is one, holds against its key. -/
def standing (now : Nat) : Option ThrottleRow → Nat
  | none => 0
  | some r => if r.aged now then 0 else r.failureCount

/-- The failures the table holds against a client key. -/
def failureCount (s : LoginState) (key : HexText) : Nat := standing s.clock (s.throttles key)

/-- How long a row blocks from its last failure on. -/
def ThrottleRow.blockLength (r : ThrottleRow) : Nat :=
  match r.blockedUntil with
  | none => 0
  | some blockedUntil => blockedUntil - r.updatedAt

/-- The pause after `failures` failures in a row. -/
def pause (failures : Nat) : Nat := minutes (min 15 (failures - 4))

end LocalRag.Login
