import LocalRag.Access.Accounts

/-!
# Owner setup — one owner, five guesses

Mirrors `0007_owner_setup`: `v8_issue_setup_code`, `v8_verify_setup_code` and
`v8_complete_owner_setup` over the one row of `owner_setup`, and `v4_bootstrap_admin` of
`0001_v4_baseline`, which makes the account.

The history of calls and answers is kept beside the row, newest first, so that "since the last
issue" is the part of it before the first issue met (`sinceIssue`). `SetupInv` reads
the row off that part: the code is the one issued last, the failure counter is the number of
wrong guesses since, and a challenge on the row was accepted since, with that code. An issue
empties that part and clears the challenge, a wrong guess clears it too, and both
gates refuse at five failures; that is the whole argument.

Mirroring notes.
* Every call is one step. An issue and a completion hold the advisory lock from their first
  statement to the end of their transaction, and a verification and a completion hold the row
  lock from their first read of the row, so what another call can do in between is nothing
  this call reads.
* `statement_timestamp()` is the time the caller's statement began, so a call that waited for a
  lock carries an older time than one that ran before it. Times need not be in order here.
* The hashes are texts: `DatabaseSetupGateway` always sends digests. SQL's NULL, which no
  comparison refuses, is not sent.
* `cntrl` is the locale's class `[[:cntrl:]]`.
-/

namespace LocalRag.Admin

open LocalRag.Core Access

/-- The row of `owner_setup`. -/
structure OwnerSetup where
  codeHash : Option HexText
  codeIssuedAt : Option Time
  codeExpiresAt : Option Time
  failedAttempts : Nat
  maxAttempts : Nat
  challengeHash : Option HexText
  challengeExpiresAt : Option Time
  consumedAt : Option Time
deriving Repr, DecidableEq

/-- `INSERT INTO public.owner_setup (singleton) VALUES (true)`. -/
def OwnerSetup.inserted : OwnerSetup where
  codeHash := none
  codeIssuedAt := none
  codeExpiresAt := none
  failedAttempts := 0
  maxAttempts := 5
  challengeHash := none
  challengeExpiresAt := none
  consumedAt := none

structure SetupDb where
  users : List User
  row : OwnerSetup
deriving DecidableEq

/-- The account a completion asks for; `id` is what `gen_random_uuid()` draws. -/
structure OwnerAccount where
  id : UserId
  username : String
  displayName : String
  passwordHash : String
deriving Repr, DecidableEq

/-! ## The functions -/

/-- `v8_issue_setup_code`. -/
def v8IssueSetupCode (db : SetupDb) (codeHash : HexText) (expiresAt now : Time) :
    Except SqlError SetupDb :=
  if db.users ≠ [] then .error ⟨"55000", "owner setup is unavailable"⟩
  else if ¬ codeHash.wellFormed ∨ expiresAt ≤ now ∨ now + 15 * minute < expiresAt then
    .error ⟨"22023", "invalid owner setup code contract"⟩
  else
    .ok { db with row := {
      codeHash := some codeHash
      codeIssuedAt := some now
      codeExpiresAt := some expiresAt
      failedAttempts := 0
      maxAttempts := 5
      challengeHash := none
      challengeExpiresAt := none
      consumedAt := none } }

/-- The way a verification goes. `wrong` is the one that compared the code and found it
different, with the failures there are then. -/
inductive Verdict where
  | malformed | unavailable | expired | locked | wrong (failures : Nat) | accepted
deriving Repr, DecidableEq

/-- The checks of `v8_verify_setup_code`. -/
def verifyVerdict (db : SetupDb) (codeHash challengeHash : HexText)
    (challengeExpiresAt now : Time) : Verdict :=
  if ¬ codeHash.wellFormed ∨ ¬ challengeHash.wellFormed ∨ challengeExpiresAt ≤ now ∨
      now + 10 * minute < challengeExpiresAt then .malformed
  else if db.users ≠ [] ∨ db.row.consumedAt ≠ none then .unavailable
  else
    match db.row.codeHash, db.row.codeExpiresAt with
    | some code, some expiresAt =>
      if expiresAt ≤ now then .expired
      else if db.row.maxAttempts ≤ db.row.failedAttempts then .locked
      else if code ≠ codeHash then .wrong (min (db.row.failedAttempts + 1) db.row.maxAttempts)
      else .accepted
    | _, _ => .expired

/-- What `v8_verify_setup_code` returns. -/
def Verdict.text (maxAttempts : Nat) : Verdict → String
  | .malformed => "rejected"
  | .unavailable => "unavailable"
  | .expired => "expired"
  | .locked => "locked"
  | .wrong failures => if maxAttempts ≤ failures then "locked" else "rejected"
  | .accepted => "accepted"

/-- The row a verification leaves. -/
def OwnerSetup.verified (row : OwnerSetup) (challengeHash : HexText) (challengeExpiresAt : Time) :
    Verdict → OwnerSetup
  | .wrong failures =>
    { row with failedAttempts := failures, challengeHash := none, challengeExpiresAt := none }
  | .accepted =>
    { row with challengeHash := some challengeHash, challengeExpiresAt := some challengeExpiresAt }
  | _ => row

/-- `v8_verify_setup_code`. -/
def v8VerifySetupCode (db : SetupDb) (codeHash challengeHash : HexText)
    (challengeExpiresAt now : Time) : SetupDb × String :=
  let verdict := verifyVerdict db codeHash challengeHash challengeExpiresAt now
  ({ db with row := db.row.verified challengeHash challengeExpiresAt verdict },
    verdict.text db.row.maxAttempts)

/-- `p ~ '^[a-z0-9][a-z0-9._-]{1,30}[a-z0-9]$'`. -/
def isCanonicalUsername (username : String) : Bool :=
  3 ≤ username.toList.length ∧ username.toList.length ≤ 32 ∧
    username.toList.head?.any isLowerAlnum ∧ username.toList.getLast?.any isLowerAlnum ∧
    username.toList.all fun c => isLowerAlnum c ∨ c = '.' ∨ c = '_' ∨ c = '-'

/-- `v4_bootstrap_admin`, the table's CHECK of the display name last. -/
def v4BootstrapAdmin (cntrl : Char → Bool) (users : List User) (account : OwnerAccount) :
    Except SqlError (List User) :=
  if users ≠ [] then .error ⟨"55000", "bootstrap is unavailable after the first user"⟩
  else if ¬ isCanonicalUsername account.username then
    .error ⟨"22023", "invalid canonical username"⟩
  else if ¬ (1 ≤ account.displayName.length ∧ account.displayName.length ≤ 80) then
    .error ⟨"22023", "invalid display name"⟩
  else if ¬ isArgon2idHash account.passwordHash then
    .error ⟨"22023", "invalid Argon2id password verifier"⟩
  else if account.displayName.toList.any cntrl then
    .error (checkViolation "ck_users_display_name_no_controls")
  else
    .ok [{
      id := account.id
      role := .admin
      status := .active
      passwordHash := some account.passwordHash
      authenticationVersion := 1
      deletedAt := none }]

/-- `v8_complete_owner_setup`. -/
def v8CompleteOwnerSetup (cntrl : Char → Bool) (db : SetupDb) (challengeHash : HexText)
    (account : OwnerAccount) (now : Time) : Except SqlError (SetupDb × UserId) :=
  if db.row.consumedAt ≠ none ∨ db.row.codeHash = none ∨ db.row.codeExpiresAt.any (· ≤ now) ∨
      db.row.challengeHash = none ∨ db.row.challengeExpiresAt.any (· ≤ now) ∨
      db.row.challengeHash ≠ some challengeHash ∨
      db.row.maxAttempts ≤ db.row.failedAttempts ∨ db.users ≠ [] then
    .error ⟨"55000", "owner setup is unavailable"⟩
  else
    match v4BootstrapAdmin cntrl db.users account with
    | .error e => .error e
    | .ok users =>
      .ok (⟨users, { db.row with
        codeHash := none
        codeIssuedAt := none
        codeExpiresAt := none
        challengeHash := none
        challengeExpiresAt := none
        consumedAt := some now }⟩, account.id)

/-! ## Calls and their history -/

inductive SetupCall where
  | issue (codeHash : HexText) (expiresAt now : Time)
  | verify (codeHash challengeHash : HexText) (challengeExpiresAt now : Time)
  | complete (challengeHash : HexText) (account : OwnerAccount) (now : Time)
deriving Repr, DecidableEq

inductive SetupAnswer where
  | issued
  | verdict (verdict : Verdict)
  | owner (id : UserId)
  | raised (error : SqlError)
deriving Repr, DecidableEq

structure SetupEntry where
  call : SetupCall
  answer : SetupAnswer
deriving Repr, DecidableEq

/-- The database, and the calls so far with their answers, newest first. -/
structure Setup where
  db : SetupDb
  history : List SetupEntry

/-- Before the first call; there may be users from before the migration. -/
def Setup.new (users : List User) : Setup := ⟨⟨users, OwnerSetup.inserted⟩, []⟩

/-- The database after a call, and its answer. -/
def setupCall (cntrl : Char → Bool) (db : SetupDb) : SetupCall → SetupDb × SetupAnswer
  | .issue codeHash expiresAt now =>
    match v8IssueSetupCode db codeHash expiresAt now with
    | .error e => (db, .raised e)
    | .ok db' => (db', .issued)
  | .verify codeHash challengeHash challengeExpiresAt now =>
    ((v8VerifySetupCode db codeHash challengeHash challengeExpiresAt now).1,
      .verdict (verifyVerdict db codeHash challengeHash challengeExpiresAt now))
  | .complete challengeHash account now =>
    match v8CompleteOwnerSetup cntrl db challengeHash account now with
    | .error e => (db, .raised e)
    | .ok (db', id) => (db', .owner id)

def setupStep (cntrl : Char → Bool) (s : Setup) (call : SetupCall) : Setup :=
  ⟨(setupCall cntrl s.db call).1, ⟨call, (setupCall cntrl s.db call).2⟩ :: s.history⟩

/-- What happened since the last issue, newest first. -/
def sinceIssue (history : List SetupEntry) : List SetupEntry :=
  history.takeWhile (·.answer ≠ .issued)

/-- The code issued last, and when it expires. -/
def issuedCode : List SetupEntry → Option (HexText × Time)
  | [] => none
  | ⟨.issue codeHash expiresAt _, .issued⟩ :: _ => some (codeHash, expiresAt)
  | _ :: history => issuedCode history

/-- The verification compared a code and it was the wrong one. -/
def SetupEntry.wrong (e : SetupEntry) : Bool :=
  match e.answer with
  | .verdict (.wrong _) => true
  | _ => false

/-- The completion succeeded. -/
def SetupEntry.completed (e : SetupEntry) : Bool :=
  match e.answer with
  | .owner _ => true
  | _ => false

/-- The wrong codes compared since the last issue. -/
def wrongGuesses (history : List SetupEntry) : Nat := (sinceIssue history).countP (·.wrong)

variable {e : SetupEntry}

theorem sinceIssue_cons (h : e.answer ≠ .issued) (history : List SetupEntry) :
    sinceIssue (e :: history) = e :: sinceIssue history := by
  unfold sinceIssue
  rw [List.takeWhile_cons_of_pos (by simpa using h)]

theorem issuedCode_cons (h : e.answer ≠ .issued) (history : List SetupEntry) :
    issuedCode (e :: history) = issuedCode history := by
  obtain ⟨call, answer⟩ := e
  cases answer with
  | issued => exact absurd rfl h
  | verdict v => cases call <;> rfl
  | owner id => cases call <;> rfl
  | raised error => cases call <;> rfl

/-- The setup after these calls. -/
def setupAfter (cntrl : Char → Bool) (users : List User) (calls : List SetupCall) : Setup :=
  run (setupStep cntrl) (Setup.new users) calls

/-! ## What the functions do -/

variable {db : SetupDb} {codeHash : HexText} {now : Time}

theorem issue_ok {db' : SetupDb} {expiresAt : Time}
    (h : v8IssueSetupCode db codeHash expiresAt now = .ok db') :
    db'.users = db.users ∧ db'.row.codeHash = some codeHash ∧
      db'.row.codeExpiresAt = some expiresAt ∧ db'.row.failedAttempts = 0 ∧
      db'.row.maxAttempts = 5 ∧ db'.row.challengeHash = none := by
  unfold v8IssueSetupCode at h
  obtain ⟨-, h⟩ := ite_error_eq_ok.mp h
  obtain ⟨-, h⟩ := ite_error_eq_ok.mp h
  obtain rfl := Except.ok.inj h
  exact ⟨rfl, rfl, rfl, rfl, rfl, rfl⟩

variable {challengeHash : HexText}

/-- A verification that compares the code: the row has one that is current, and failures to spare. -/
theorem verdict_compared {challengeExpiresAt : Time} {v : Verdict}
    (hv : verifyVerdict db codeHash challengeHash challengeExpiresAt now = v)
    (hcompared : v = .accepted ∨ ∃ failures, v = .wrong failures) :
    ∃ code expiresAt, db.row.codeHash = some code ∧ db.row.codeExpiresAt = some expiresAt ∧
      now < expiresAt ∧ db.row.failedAttempts < db.row.maxAttempts ∧
      (v = .accepted → code = codeHash) ∧
      ∀ failures, v = .wrong failures →
        failures = min (db.row.failedAttempts + 1) db.row.maxAttempts := by
  unfold verifyVerdict at hv
  split at hv
  · subst hv
    simp at hcompared
  split at hv
  · subst hv
    simp at hcompared
  split at hv
  next code expiresAt hcode hexpires =>
    split at hv
    · subst hv
      simp at hcompared
    next hlive =>
      split at hv
      · subst hv
        simp at hcompared
      next hopen =>
        refine ⟨code, expiresAt, hcode, hexpires, Nat.lt_of_not_le hlive, by omega, ?_, ?_⟩
        · rintro rfl
          by_contra hne
          rw [if_pos hne] at hv
          exact absurd hv (by simp)
        · rintro failures rfl
          split at hv
          · exact (Verdict.wrong.inj hv).symm
          · exact absurd hv (by simp)
  next =>
    subst hv
    simp at hcompared

theorem complete_ok {cntrl : Char → Bool} {db' : SetupDb} {account : OwnerAccount} {id : UserId}
    (h : v8CompleteOwnerSetup cntrl db challengeHash account now = .ok (db', id)) :
    db.users = [] ∧ db.row.codeHash ≠ none ∧ db.row.challengeHash = some challengeHash ∧
      db.row.failedAttempts < db.row.maxAttempts ∧
      (∀ expiresAt, db.row.codeExpiresAt = some expiresAt → now < expiresAt) ∧
      (∀ expiresAt, db.row.challengeExpiresAt = some expiresAt → now < expiresAt) ∧
      db'.users ≠ [] ∧ db'.row.codeHash = none ∧ db'.row.challengeHash = none ∧
      db'.row.failedAttempts = db.row.failedAttempts ∧ db'.row.maxAttempts = db.row.maxAttempts := by
  unfold v8CompleteOwnerSetup at h
  obtain ⟨hopen, h⟩ := ite_error_eq_ok.mp h
  simp only [not_or, not_not] at hopen
  obtain ⟨-, hcode, hexpires, -, hchallengeExpires, hchallenge, hattempts, husers⟩ := hopen
  split at h
  · exact absurd h (by simp)
  next users hbootstrap =>
    obtain ⟨rfl, -⟩ := Prod.mk.inj (Except.ok.inj h)
    refine ⟨husers, hcode, hchallenge, by omega, ?_, ?_, ?_, rfl, rfl, rfl, rfl⟩
    · intro expiresAt hsome
      rw [hsome] at hexpires
      simpa using hexpires
    · intro expiresAt hsome
      rw [hsome] at hchallengeExpires
      simpa using hchallengeExpires
    · -- the account that was made
      unfold v4BootstrapAdmin at hbootstrap
      obtain ⟨-, hbootstrap⟩ := ite_error_eq_ok.mp hbootstrap
      obtain ⟨-, hbootstrap⟩ := ite_error_eq_ok.mp hbootstrap
      obtain ⟨-, hbootstrap⟩ := ite_error_eq_ok.mp hbootstrap
      obtain ⟨-, hbootstrap⟩ := ite_error_eq_ok.mp hbootstrap
      obtain ⟨-, hbootstrap⟩ := ite_error_eq_ok.mp hbootstrap
      rw [← Except.ok.inj hbootstrap]
      simp

/-! ## The invariant -/

/-- A verification since the last issue was accepted with this code, before it expired, for this
challenge. -/
def AcceptedSince (history : List SetupEntry) (code : HexText) (expiresAt : Time)
    (challenge : HexText) (challengeExpiresAt : Time) : Prop :=
  ∃ accepted, accepted < expiresAt ∧
    ⟨.verify code challenge challengeExpiresAt accepted, .verdict .accepted⟩ ∈ sinceIssue history

/-- The row is what happened since the last issue. -/
structure SetupInv (s : Setup) : Prop where
  attempts : s.db.row.failedAttempts = wrongGuesses s.history
  max : s.db.row.maxAttempts = 5
  bound : s.db.row.failedAttempts ≤ 5
  code : ∀ code, s.db.row.codeHash = some code → ∃ expiresAt,
    s.db.row.codeExpiresAt = some expiresAt ∧ issuedCode s.history = some (code, expiresAt)
  challenge : ∀ challenge, s.db.row.challengeHash = some challenge →
    ∃ code expiresAt challengeExpiresAt, s.db.row.codeHash = some code ∧
      s.db.row.codeExpiresAt = some expiresAt ∧
      s.db.row.challengeExpiresAt = some challengeExpiresAt ∧
      AcceptedSince s.history code expiresAt challenge challengeExpiresAt
  once : s.history.countP (·.completed) ≤ 1
  owned : 0 < s.history.countP (·.completed) → s.db.users ≠ []

theorem setupInv_new (users : List User) : SetupInv (Setup.new users) := by
  constructor
  all_goals simp [Setup.new, OwnerSetup.inserted, wrongGuesses, sinceIssue]

section Steps

variable {cntrl : Char → Bool} {s : Setup}

theorem wrongGuesses_cons (h : e.answer ≠ .issued) (history : List SetupEntry) :
    wrongGuesses (e :: history) = wrongGuesses history + if e.wrong then 1 else 0 := by
  unfold wrongGuesses
  rw [sinceIssue_cons h, List.countP_cons]

/-- A call that raises leaves its answer and nothing else. -/
theorem raised_inv (hs : SetupInv s) (call : SetupCall) (error : SqlError) :
    SetupInv ⟨s.db, ⟨call, .raised error⟩ :: s.history⟩ := by
  constructor
  · rw [wrongGuesses_cons (by simp)]
    exact hs.attempts
  · exact hs.max
  · exact hs.bound
  · rw [issuedCode_cons (by simp)]
    exact hs.code
  · intro challenge hchallenge
    obtain ⟨code, expiresAt, challengeExpiresAt, hcode, hexpires, hce, accepted, hlt, hin⟩ :=
      hs.challenge challenge hchallenge
    refine ⟨code, expiresAt, challengeExpiresAt, hcode, hexpires, hce, accepted, hlt, ?_⟩
    rw [sinceIssue_cons (by simp)]
    exact List.mem_cons_of_mem _ hin
  · rw [List.countP_cons_of_neg (by simp [SetupEntry.completed])]
    exact hs.once
  · rw [List.countP_cons_of_neg (by simp [SetupEntry.completed])]
    exact hs.owned

theorem issue_inv (hs : SetupInv s) {expiresAt : Time}
    (h : v8IssueSetupCode s.db codeHash expiresAt now = .ok db) :
    SetupInv ⟨db, ⟨.issue codeHash expiresAt now, .issued⟩ :: s.history⟩ := by
  obtain ⟨husers, hcode, hexpires, hfailed, hmax, hchallenge⟩ := issue_ok h
  constructor
  · rw [hfailed]
    rfl
  · exact hmax
  · rw [hfailed]
    omega
  · intro code hsome
    rw [hcode] at hsome
    obtain rfl := Option.some.inj hsome
    exact ⟨expiresAt, hexpires, rfl⟩
  · intro challenge hsome
    rw [hchallenge] at hsome
    exact absurd hsome (by simp)
  · rw [List.countP_cons_of_neg (by simp [SetupEntry.completed])]
    exact hs.once
  · rw [List.countP_cons_of_neg (by simp [SetupEntry.completed]), husers]
    exact hs.owned

theorem verify_inv (hs : SetupInv s) (codeHash challengeHash : HexText)
    (challengeExpiresAt now : Time) :
    SetupInv (setupStep cntrl s (.verify codeHash challengeHash challengeExpiresAt now)) := by
  unfold setupStep
  show SetupInv ⟨⟨s.db.users, s.db.row.verified challengeHash challengeExpiresAt
    (verifyVerdict s.db codeHash challengeHash challengeExpiresAt now)⟩, _ :: s.history⟩
  show SetupInv ⟨_, ⟨_, .verdict
    (verifyVerdict s.db codeHash challengeHash challengeExpiresAt now)⟩ :: s.history⟩
  generalize hv : verifyVerdict s.db codeHash challengeHash challengeExpiresAt now = v
  have hanswer : (⟨.verify codeHash challengeHash challengeExpiresAt now, .verdict v⟩ :
      SetupEntry).answer ≠ .issued := by simp
  have hcompleted : ¬ (⟨.verify codeHash challengeHash challengeExpiresAt now, .verdict v⟩ :
      SetupEntry).completed = true := by simp [SetupEntry.completed]
  -- a verdict without comparison changes nothing
  have hsame : ((∃ failures, v = .wrong failures) ∨ v = .accepted) ∨
      (s.db.row.verified challengeHash challengeExpiresAt v = s.db.row ∧
        (⟨.verify codeHash challengeHash challengeExpiresAt now, .verdict v⟩ :
          SetupEntry).wrong = false) := by
    cases v with
    | wrong failures => exact Or.inl (Or.inl ⟨failures, rfl⟩)
    | accepted => exact Or.inl (Or.inr rfl)
    | _ => exact Or.inr ⟨rfl, rfl⟩
  rcases hsame with (⟨failures, rfl⟩ | rfl) | ⟨hrow, hwrong⟩
  · obtain ⟨code, expiresAt, hcode, hexpires, -, hopen, -, hfailures⟩ :=
      verdict_compared hv (Or.inr ⟨failures, rfl⟩)
    have hmax := hs.max
    have hattempts := hs.attempts
    have hcount : failures = s.db.row.failedAttempts + 1 := by
      rw [hfailures failures rfl]
      omega
    constructor
    · rw [wrongGuesses_cons hanswer]
      show failures = wrongGuesses s.history + 1
      omega
    · exact hs.max
    · show failures ≤ 5
      omega
    · rw [issuedCode_cons hanswer]
      exact hs.code
    · intro challenge hsome
      exact absurd hsome (by simp [OwnerSetup.verified])
    · rw [List.countP_cons_of_neg hcompleted]
      exact hs.once
    · rw [List.countP_cons_of_neg hcompleted]
      exact hs.owned
  · obtain ⟨code, expiresAt, hcode, hexpires, hlive, -, hmatch, -⟩ :=
      verdict_compared hv (Or.inl rfl)
    obtain rfl := hmatch rfl
    constructor
    · rw [wrongGuesses_cons hanswer]
      exact hs.attempts
    · exact hs.max
    · exact hs.bound
    · rw [issuedCode_cons hanswer]
      exact hs.code
    · intro challenge hsome
      obtain rfl : challengeHash = challenge := Option.some.inj hsome
      refine ⟨code, expiresAt, challengeExpiresAt, hcode, hexpires, rfl, now, hlive, ?_⟩
      rw [sinceIssue_cons hanswer]
      exact List.mem_cons_self
    · rw [List.countP_cons_of_neg hcompleted]
      exact hs.once
    · rw [List.countP_cons_of_neg hcompleted]
      exact hs.owned
  · rw [hrow]
    constructor
    · rw [wrongGuesses_cons hanswer, hwrong]
      exact hs.attempts
    · exact hs.max
    · exact hs.bound
    · rw [issuedCode_cons hanswer]
      exact hs.code
    · intro challenge hsome
      obtain ⟨code, expiresAt, expires, hcode, hexpires, hce, accepted, hlt, hin⟩ :=
        hs.challenge challenge hsome
      refine ⟨code, expiresAt, expires, hcode, hexpires, hce, accepted, hlt, ?_⟩
      rw [sinceIssue_cons hanswer]
      exact List.mem_cons_of_mem _ hin
    · rw [List.countP_cons_of_neg hcompleted]
      exact hs.once
    · rw [List.countP_cons_of_neg hcompleted]
      exact hs.owned

theorem complete_inv (hs : SetupInv s) {account : OwnerAccount} {id : UserId}
    (h : v8CompleteOwnerSetup cntrl s.db challengeHash account now = .ok (db, id)) :
    SetupInv ⟨db, ⟨.complete challengeHash account now, .owner id⟩ :: s.history⟩ := by
  obtain ⟨husers, -, -, -, -, -, howned, hcode, hchallenge, hfailed, hmax⟩ := complete_ok h
  -- an owner from before would be a user
  have hfirst : s.history.countP (·.completed) = 0 := by
    by_contra hne
    exact hs.owned (by omega) husers
  constructor
  · rw [wrongGuesses_cons (by simp), hfailed]
    exact hs.attempts
  · rw [hmax]
    exact hs.max
  · rw [hfailed]
    exact hs.bound
  · intro code hsome
    rw [hcode] at hsome
    exact absurd hsome (by simp)
  · intro challenge hsome
    rw [hchallenge] at hsome
    exact absurd hsome (by simp)
  · rw [List.countP_cons_of_pos rfl, hfirst]
  · intro _
    exact howned

theorem setupStep_inv (cntrl : Char → Bool) (s : Setup) (call : SetupCall) (hs : SetupInv s) :
    SetupInv (setupStep cntrl s call) := by
  cases call with
  | issue codeHash expiresAt now =>
    cases h : v8IssueSetupCode s.db codeHash expiresAt now with
    | error e =>
      simp only [setupStep, setupCall, h]
      exact raised_inv hs _ e
    | ok db =>
      simp only [setupStep, setupCall, h]
      exact issue_inv hs h
  | verify codeHash challengeHash challengeExpiresAt now =>
    exact verify_inv hs codeHash challengeHash challengeExpiresAt now
  | complete challengeHash account now =>
    cases h : v8CompleteOwnerSetup cntrl s.db challengeHash account now with
    | error e =>
      simp only [setupStep, setupCall, h]
      exact raised_inv hs _ e
    | ok result =>
      obtain ⟨db, id⟩ := result
      simp only [setupStep, setupCall, h]
      exact complete_inv hs h

end Steps

theorem setupAfter_inv (cntrl : Char → Bool) (users : List User) (calls : List SetupCall) :
    SetupInv (setupAfter cntrl users calls) :=
  run_inv_of_step SetupInv (fun s call hs => setupStep_inv cntrl s call hs) calls
    (setupInv_new users)

/-- After the fifth wrong guess no code is compared and nothing is completed. -/
theorem locked_of_five {cntrl : Char → Bool} {s : Setup} (hs : SetupInv s)
    (h : wrongGuesses s.history = 5) :
    (∀ codeHash challengeHash challengeExpiresAt now,
      verifyVerdict s.db codeHash challengeHash challengeExpiresAt now ≠ .accepted ∧
      ∀ failures, verifyVerdict s.db codeHash challengeHash challengeExpiresAt now ≠
        .wrong failures) ∧
    ∀ challengeHash account now,
      ∃ e, v8CompleteOwnerSetup cntrl s.db challengeHash account now = .error e := by
  have hmax := hs.max
  have hattempts := hs.attempts
  constructor
  · intro codeHash challengeHash challengeExpiresAt now
    constructor
    · intro hv
      obtain ⟨-, -, -, -, -, hopen, -⟩ := verdict_compared hv (Or.inl rfl)
      omega
    · intro failures hv
      obtain ⟨-, -, -, -, -, hopen, -⟩ := verdict_compared hv (Or.inr ⟨failures, rfl⟩)
      omega
  · intro challengeHash account now
    cases hc : v8CompleteOwnerSetup cntrl s.db challengeHash account now with
    | error e => exact ⟨e, rfl⟩
    | ok result =>
      obtain ⟨db, id⟩ := result
      obtain ⟨-, -, -, hopen, -⟩ := complete_ok hc
      omega

/-- Over any calls at most one completion succeeds. Since the last issue at most five wrong codes
were compared, and after five nothing but an issue opens the setup again. A completion that succeeds
finds no user and an accepted verification of its challenge with the code issued last, both
unexpired. -/
theorem setup_run (cntrl : Char → Bool) (users : List User) (calls : List SetupCall) :
    (setupAfter cntrl users calls).history.countP (·.completed) ≤ 1 ∧
    wrongGuesses (setupAfter cntrl users calls).history ≤ 5 ∧
    (wrongGuesses (setupAfter cntrl users calls).history = 5 →
      (∀ codeHash challengeHash challengeExpiresAt now,
        verifyVerdict (setupAfter cntrl users calls).db codeHash challengeHash challengeExpiresAt
          now ≠ .accepted ∧
        ∀ failures, verifyVerdict (setupAfter cntrl users calls).db codeHash challengeHash
          challengeExpiresAt now ≠ .wrong failures) ∧
      ∀ challengeHash account now, ∃ e, v8CompleteOwnerSetup cntrl
        (setupAfter cntrl users calls).db challengeHash account now = .error e) ∧
    ∀ challengeHash account now db id,
      v8CompleteOwnerSetup cntrl (setupAfter cntrl users calls).db challengeHash account now =
        .ok (db, id) →
      (setupAfter cntrl users calls).db.users = [] ∧
      ∃ code expiresAt challengeExpiresAt,
        issuedCode (setupAfter cntrl users calls).history = some (code, expiresAt) ∧
        now < expiresAt ∧ now < challengeExpiresAt ∧
        AcceptedSince (setupAfter cntrl users calls).history code expiresAt challengeHash
          challengeExpiresAt := by
  have hs := setupAfter_inv cntrl users calls
  have hattempts := hs.attempts
  have hbound := hs.bound
  refine ⟨hs.once, by omega, fun h => locked_of_five hs h, ?_⟩
  intro challengeHash account now db id h
  obtain ⟨husers, -, hchallenge, -, hlive, hchallengeLive, -⟩ := complete_ok h
  obtain ⟨code, expiresAt, challengeExpiresAt, hcode, hexpires, hce, haccepted⟩ :=
    hs.challenge challengeHash hchallenge
  obtain ⟨expires, hexpires', hissued⟩ := hs.code code hcode
  rw [hexpires] at hexpires'
  obtain rfl := Option.some.inj hexpires'
  exact ⟨husers, code, expiresAt, challengeExpiresAt, hissued, hlive _ hexpires,
    hchallengeLive _ hce, haccepted⟩

-- a setup that goes through
example : (setupAfter (fun _ => false) [] [.issue (.digest 1) (10 * minute) 0,
    .verify (.digest 1) (.digest 2) (5 * minute) minute,
    .complete (.digest 2) ⟨7, "owner", "Owner", "$argon2id$"⟩ (2 * minute)]).db.users.length = 1 := by
  decide +kernel

end LocalRag.Admin
