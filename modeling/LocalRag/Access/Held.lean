import LocalRag.Access.Transactions

/-!
# What a transaction on the accounts holds

Between its statements a transaction relies on two things: that the account row it has locked
is still the one it read, and that behind its update there is an active administrator. Both
are facts about what is committed, which others change meanwhile; the row lock keeps the
first, the advisory lock the second (`Holds`). The last-administrator test counts under the
advisory lock, and whoever takes an administrator away commits with it.

Here: each statement of each call leads to a phase whose `Holds` it has seen to
(`statement_inv`). What the commits do to the others is in `Access.Stale`.
-/

namespace LocalRag.Access

open LocalRag.Core

/-! ## What is claimed of the committed state -/

def HasAdmin (users : List User) : Prop := ∃ a ∈ users, a.role = .admin ∧ User.isActive a = true

/-- What the constraints of the tables say, and that no session is ahead of its account. -/
structure AccountsOk (a : Accounts) : Prop where
  users : Keyed (·.id) a.users
  tokens : Keyed (·.tokenHash) a.sessions
  issued : ∀ x ∈ a.sessions, ∀ u ∈ a.users, u.id = x.userId →
    x.issuedAuthenticationVersion ≤ u.authenticationVersion

/-! ## Calls -/

/-- The calls that can take an administrator away. -/
def AccountCall.isAdminCall : AccountCall → Bool
  | .setUser _ _ _ _ | .resetUser _ _ _ _ => true
  | _ => false

/-- The calls that update the account. -/
def AccountCall.rewrites : AccountCall → Bool
  | .setUser _ _ _ _ | .resetUser _ _ _ _ | .changePassword _ _ _ _
  | .consumeActivation _ _ _ => true
  | _ => false

def AccountCall.isRefresh : AccountCall → Bool
  | .refreshSession _ _ _ => true
  | _ => false

/-- The account an administrator's call names. -/
def AccountCall.userId : AccountCall → Option UserId
  | .setUser _ userId _ _ | .resetUser _ userId _ _ => some userId
  | _ => none

def AccountCall.newSession : AccountCall → Option NewSession
  | .changePassword _ _ _ session | .consumeActivation _ _ session
  | .issueLoginSession _ _ session => some session
  | _ => none

def CallPhase.account : CallPhase → Option User
  | .locked account => some account
  | .serialised account => some account
  | .updated account => some account
  | .revoked account _ => some account
  | .ended account _ => account
  | _ => none

/-- The advisory lock has been asked for. -/
def CallPhase.isSerial : CallPhase → Bool
  | .serialised _ | .updated _ | .revoked _ _ | .ended _ _ => true
  | _ => false

/-- `UPDATE users` has run. -/
def CallPhase.isWritten : CallPhase → Bool
  | .updated _ | .revoked _ _ | .ended _ _ => true
  | _ => false

def CallPhase.isEnded : CallPhase → Bool
  | .ended (some _) _ => true
  | _ => false

/-- The accounts behind the call. -/
def rewritten (tx : Transaction) (account : User) (users : List User) : List User :=
  match tx.call with
  | .setUser _ userId role status =>
    updateWhere (fun u => u.id = userId) (userSet tx.startedAt role status) users
  | .resetUser _ userId _ _ =>
    updateWhere (fun u => u.id = userId ∧ u.deletedAt = none) resetPending users
  | .changePassword _ _ newPasswordHash _ =>
    updateWhere (fun u => u.id = account.id) (passwordChanged newPasswordHash) users
  | .consumeActivation _ passwordHash _ =>
    updateWhere (fun u => u.id = account.id) (activated passwordHash) users
  | _ => users

/-! ## The invariant -/

/-- What a transaction has, and what it knows of what is committed. -/
structure Holds (a : Accounts) (locks : LockTable LockKey TransactionId) (i : TransactionId)
    (tx : Transaction) : Prop where
  /-- The row it has locked is still the one it read. -/
  row : ∀ account, tx.phase.account = some account →
    locks (.user account.id) = some i ∧ userById a.users account.id = some account
  named : ∀ account userId, tx.phase.account = some account → tx.call.userId = some userId →
    account.id = userId
  serial : tx.call.isAdminCall = true → tx.phase.isSerial = true → locks .finalAdmin = some i
  /-- Behind its update there is an administrator. -/
  spared : tx.call.isAdminCall = true → tx.phase.isWritten = true → ∀ account,
    tx.phase.account = some account → HasAdmin (rewritten tx account a.users)
  whole : ∀ token userId tokenHash expiresAt,
    tx.call = .resetUser token userId tokenHash expiresAt → tx.phase.isWritten = true →
      ∀ account, tx.phase.account = some account → account.deletedAt = none
  fresh : tx.phase.isEnded = true → ∀ session, tx.call.newSession = some session →
    locks (.sessionToken session.tokenHash) = some i ∧
      ∀ x ∈ a.sessions, x.tokenHash ≠ session.tokenHash

structure SiteInv (s : AccountSite) : Prop where
  accounts : AccountsOk s.db.accounts
  admin : HasAdmin s.db.accounts.users
  holds : ∀ i tx, s.transactions i = some tx → Holds s.db.accounts s.locks i tx

/-! ## Rewriting an account -/

/-- What an `UPDATE users` of these functions does: to one row, and it raises the version. -/
structure Rewrite (account : User) (p : User → Bool) (f : User → User) : Prop where
  only : ∀ u, p u = true → u.id = account.id
  hit : p account = true
  id : ∀ u, (f u).id = u.id
  raised : ∀ u, (f u).authenticationVersion = u.authenticationVersion + 1

/-- It takes no administrator away. -/
def Spares (f : User → User) : Prop :=
  ∀ u, u.role = .admin → User.isActive u = true → (f u).role = .admin ∧ User.isActive (f u) = true

theorem isActive_iff {u : User} :
    User.isActive u = true ↔ u.status = .active ∧ u.deletedAt = none := by
  unfold User.isActive
  exact decide_eq_true_iff

theorem spares_passwordChanged (hash : String) : Spares (passwordChanged hash) :=
  fun _ hrole hactive => ⟨hrole, hactive⟩

theorem spares_activated (hash : String) : Spares (activated hash) := by
  intro u hrole hactive
  exact ⟨hrole, isActive_iff.mpr ⟨rfl, (isActive_iff.mp hactive).2⟩⟩

variable {account : User}

/-- The update of a call, as such. -/
theorem rewritten_eq {a : Accounts} {locks : LockTable LockKey TransactionId} {i : TransactionId}
    {tx : Transaction} (h : Holds a locks i tx) (haccount : tx.phase.account = some account)
    (hwritten : tx.phase.isWritten = true) (hrewrites : tx.call.rewrites = true) :
    ∃ p f, (∀ users, rewritten tx account users = updateWhere p f users) ∧
      Rewrite account p f ∧ (tx.call.isAdminCall = false → Spares f) := by
  obtain ⟨call, startedAt, phase⟩ := tx
  cases call with
  | setUser token userId role status =>
    obtain rfl := h.named account userId haccount rfl
    exact ⟨_, _, fun _ => rfl, ⟨fun _ => of_decide_eq_true, decide_eq_true rfl, fun _ => rfl,
      fun _ => rfl⟩, nofun⟩
  | resetUser token userId tokenHash expiresAt =>
    obtain rfl := h.named account userId haccount rfl
    have hwhole := h.whole token account.id tokenHash expiresAt rfl hwritten account haccount
    exact ⟨_, _, fun _ => rfl, ⟨fun _ hu => (of_decide_eq_true hu).1,
      decide_eq_true ⟨rfl, hwhole⟩, fun _ => rfl, fun _ => rfl⟩, nofun⟩
  | changePassword tokenHash version hash session =>
    exact ⟨_, _, fun _ => rfl, ⟨fun _ => of_decide_eq_true, decide_eq_true rfl, fun _ => rfl,
      fun _ => rfl⟩, fun _ => spares_passwordChanged hash⟩
  | consumeActivation tokenHash hash session =>
    exact ⟨_, _, fun _ => rfl, ⟨fun _ => of_decide_eq_true, decide_eq_true rfl, fun _ => rfl,
      fun _ => rfl⟩, fun _ => spares_activated hash⟩
  | issueLoginSession userId version session => cases hrewrites
  | refreshSession tokenHash csrf expiresAt => cases hrewrites
  | logout tokenHash => cases hrewrites

theorem userById_eq (users : List User) (u : UserId) : userById users u = rowAt (·.id) users u :=
  rfl

variable {users : List User}

variable {p : User → Bool} {f : User → User}

/-- The row of another account. -/
theorem userById_rewrite (h : Rewrite account p f) {u : UserId} (hu : u ≠ account.id) :
    userById (updateWhere p f users) u = userById users u := by
  rw [userById_eq, userById_eq]
  exact rowAt_updateWhere_ne h.id h.only hu

/-- Two rewrites of two accounts, and the second takes no administrator away. -/
theorem hasAdmin_rewrite {other : User} {q : User → Bool} {g : User → User}
    (hp : Rewrite account p f) (hq : Rewrite other q g) (hne : other.id ≠ account.id)
    (hspares : Spares g) (h : HasAdmin (updateWhere p f users)) :
    HasAdmin (updateWhere p f (updateWhere q g users)) := by
  obtain ⟨w, hw, hrole, hactive⟩ := h
  obtain ⟨u, hu, rfl⟩ := mem_updateWhere.mp hw
  by_cases hqu : q u = true
  · -- the account of the other update is not the one of this
    have hpu : ∀ v : User, v.id = u.id → ¬ p v = true := fun v hv hpv =>
      hne ((hq.only u hqu).symm.trans (hv.symm.trans (hp.only v hpv)))
    rw [if_neg (hpu u rfl)] at hrole hactive
    refine ⟨g u, mem_updateWhere.mpr ⟨g u, mem_updateWhere.mpr ⟨u, hu, if_pos hqu⟩, ?_⟩,
      hspares u hrole hactive⟩
    rw [if_neg (hpu (g u) (hq.id u))]
  · exact ⟨_, mem_updateWhere.mpr ⟨u, mem_updateWhere.mpr ⟨u, hu, if_neg hqu⟩, rfl⟩, hrole,
      hactive⟩

theorem hasAdmin_spares (hspares : Spares f) (h : HasAdmin users) :
    HasAdmin (updateWhere p f users) := by
  obtain ⟨u, hu, hrole, hactive⟩ := h
  refine ⟨_, mem_updateWhere.mpr ⟨u, hu, rfl⟩, ?_⟩
  by_cases hp : p u = true
  · rw [if_pos hp]
    exact hspares u hrole hactive
  · rw [if_neg hp]
    exact ⟨hrole, hactive⟩

/-! ## The count -/

/-- More than one is one more than the account that is looked at. -/
theorem another_admin (hkeyed : Keyed (·.id) users) (userId : UserId)
    (hcount : 1 < activeAdminCount users) :
    ∃ a ∈ users, a.id ≠ userId ∧ a.role = .admin ∧ User.isActive a = true := by
  by_contra hnone
  have hall : ∀ a ∈ users.filter fun a => a.role = .admin ∧ User.isActive a, a.id = userId := by
    intro a ha
    obtain ⟨hmem, hadmin⟩ := List.mem_filter.mp ha
    have hadmin := of_decide_eq_true hadmin
    by_contra hne
    exact hnone ⟨a, hmem, hne, hadmin.1, hadmin.2⟩
  have hids : (users.filter fun a => a.role = .admin ∧ User.isActive a).map (·.id) =
      List.replicate (activeAdminCount users) userId := by
    rw [List.eq_replicate_iff]
    refine ⟨List.length_map _, fun id hid => ?_⟩
    obtain ⟨a, ha, rfl⟩ := List.mem_map.mp hid
    exact hall a ha
  have hnodup : (List.replicate (activeAdminCount users) userId).Nodup := by
    rw [← hids]
    exact hkeyed.filter _
  have := List.nodup_replicate.mp hnodup
  omega

variable {userId : UserId}

/-- An update of one account leaves the administrator there is elsewhere. -/
theorem hasAdmin_of_other (hp : ∀ u, p u = true → u.id = userId) {a : User} (ha : a ∈ users)
    (hne : a.id ≠ userId) (hadmin : a.role = .admin ∧ User.isActive a = true) :
    HasAdmin (updateWhere p f users) := by
  refine ⟨a, mem_updateWhere.mpr ⟨a, ha, if_neg fun hpa => hne (hp a hpa)⟩, hadmin⟩

/-- What `v4_admin_set_user` does not refuse leaves an administrator. -/
theorem setUser_spares (hkeyed : Keyed (·.id) users) (h : HasAdmin users) {current : User}
    {db : Db} (hdb : db.accounts.users = users) (hmem : current ∈ users) {role : Role}
    {status : UserStatus} (hok : setUserRefused db current role status = false) (now : Time) :
    HasAdmin (updateWhere (fun u => u.id = current.id) (userSet now role status) users) := by
  have hok := of_decide_eq_false hok
  simp only [not_or] at hok
  obtain ⟨-, -, hlast, -⟩ := hok
  obtain ⟨a, ha, hadmin⟩ := h
  by_cases hid : a.id = current.id
  · obtain rfl := hkeyed.eq ha hmem hid
    have hactive := isActive_iff.mp hadmin.2
    by_cases hstays : role = .admin ∧ status = .active
    · refine ⟨_, mem_updateWhere.mpr ⟨a, ha, if_pos (decide_eq_true rfl)⟩, hstays.1, ?_⟩
      refine isActive_iff.mpr ⟨hstays.2, ?_⟩
      show (if status = .deleted then some now else none) = none
      rw [hstays.2]
      rfl
    · have hcount : 1 < activeAdminCount users := by
        by_contra hle
        refine hlast ⟨hadmin.1, hactive.1, ?_, ?_⟩
        · by_contra hneither
          exact hstays (by simpa using hneither)
        · rw [hdb]
          omega
      obtain ⟨b, hb, hne, hb'⟩ := another_admin hkeyed a.id hcount
      exact hasAdmin_of_other (fun _ => of_decide_eq_true) hb hne hb'
  · exact hasAdmin_of_other (fun _ => of_decide_eq_true) ha hid hadmin

variable {tokenHash : HexText}

variable {expiresAt : Time}

/-- Nor does a reset take the last one. -/
theorem resetUser_spares (hkeyed : Keyed (·.id) users) (h : HasAdmin users) {current : User}
    {db : Db} (hdb : db.accounts.users = users) (hmem : current ∈ users)
    (hok : resetRefused db current tokenHash expiresAt = false) :
    HasAdmin (updateWhere (fun u => u.id = current.id ∧ u.deletedAt = none) resetPending users) := by
  have hok := of_decide_eq_false hok
  simp only [not_or] at hok
  obtain ⟨-, -, -, -, -, hlast⟩ := hok
  obtain ⟨a, ha, hadmin⟩ := h
  by_cases hid : a.id = current.id
  · obtain rfl := hkeyed.eq ha hmem hid
    have hcount : 1 < activeAdminCount users := by
      by_contra hle
      refine hlast ⟨hadmin.1, (isActive_iff.mp hadmin.2).1, ?_⟩
      rw [hdb]
      omega
    obtain ⟨b, hb, hne, hb'⟩ := another_admin hkeyed a.id hcount
    exact hasAdmin_of_other (fun _ hu => (of_decide_eq_true hu).1) hb hne hb'
  · exact hasAdmin_of_other (fun _ hu => (of_decide_eq_true hu).1) ha hid hadmin

/-! ## Statements keep it -/

section Holds

variable {a : Accounts} {locks locks' : LockTable LockKey TransactionId} {i : TransactionId}
  {tx : Transaction} {phase : CallPhase}

/-- Locks of others do not matter. -/
theorem Holds.frame (h : Holds a locks i tx)
    (hlocks : ∀ k, locks k = some i → locks' k = some i) : Holds a locks' i tx where
  row := fun account haccount => ⟨hlocks _ (h.row account haccount).1, (h.row account haccount).2⟩
  named := h.named
  serial := fun hcall hphase => hlocks _ (h.serial hcall hphase)
  spared := h.spared
  whole := h.whole
  fresh := fun hended session hsession =>
    ⟨hlocks _ (h.fresh hended session hsession).1, (h.fresh hended session hsession).2⟩

/-- Before a row is locked. -/
theorem Holds.free (haccount : tx.phase.account = none)
    (hserial : tx.call.isAdminCall = true → tx.phase.isSerial = false)
    (hended : tx.phase.isEnded = false) : Holds a locks i tx where
  row := fun _ hrow => nomatch haccount.symm.trans hrow
  named := fun _ _ hrow => nomatch haccount.symm.trans hrow
  serial := fun hcall hphase => nomatch (hserial hcall).symm.trans hphase
  spared := fun _ _ _ hrow => nomatch haccount.symm.trans hrow
  whole := fun _ _ _ _ _ _ _ hrow => nomatch haccount.symm.trans hrow
  fresh := fun hphase => nomatch hended.symm.trans hphase

/-- A row is locked, and read. -/
theorem Holds.lock (hphase : tx.phase = .locked account)
    (hlock : locks (.user account.id) = some i)
    (hrow : userById a.users account.id = some account)
    (hnamed : ∀ userId, tx.call.userId = some userId → account.id = userId) :
    Holds a locks i tx where
  row := by
    intro found hfound
    rw [hphase] at hfound
    obtain rfl := Option.some.inj hfound
    exact ⟨hlock, hrow⟩
  named := by
    intro found userId hfound
    rw [hphase] at hfound
    obtain rfl := Option.some.inj hfound
    exact hnamed userId
  serial := fun _ hserial => by
    rw [hphase] at hserial
    cases hserial
  spared := fun _ hwritten => by
    rw [hphase] at hwritten
    cases hwritten
  whole := fun _ _ _ _ _ hwritten => by
    rw [hphase] at hwritten
    cases hwritten
  fresh := fun hended => by
    rw [hphase] at hended
    cases hended

/-- The call goes on with its row. -/
theorem Holds.advance (h : Holds a locks i tx) (haccount : phase.account = tx.phase.account)
    (hserial : tx.call.isAdminCall = true → phase.isSerial = true → locks .finalAdmin = some i)
    (hwritten : tx.call.isAdminCall = true → phase.isWritten = true → ∀ account,
      tx.phase.account = some account → HasAdmin (rewritten tx account a.users))
    (hwhole : ∀ token userId tokenHash expiresAt,
      tx.call = .resetUser token userId tokenHash expiresAt → phase.isWritten = true →
        ∀ account, tx.phase.account = some account → account.deletedAt = none)
    (hfresh : phase.isEnded = true → ∀ session, tx.call.newSession = some session →
      locks (.sessionToken session.tokenHash) = some i ∧
        ∀ x ∈ a.sessions, x.tokenHash ≠ session.tokenHash) :
    Holds a locks i { tx with phase := phase } where
  row := fun account hrow => h.row account (haccount.symm.trans hrow)
  named := fun account userId hrow => h.named account userId (haccount.symm.trans hrow)
  serial := hserial
  spared := fun hcall hphase account hrow => hwritten hcall hphase account (haccount.symm.trans hrow)
  whole := fun token userId tokenHash expiresAt hcall hphase account hrow =>
    hwhole token userId tokenHash expiresAt hcall hphase account (haccount.symm.trans hrow)
  fresh := hfresh

/-- It goes on behind its update. -/
theorem Holds.after (h : Holds a locks i tx) (hold : tx.phase.isWritten = true)
    (hserial : tx.phase.isSerial = true) (haccount : phase.account = tx.phase.account)
    (hfresh : phase.isEnded = true → ∀ session, tx.call.newSession = some session →
      locks (.sessionToken session.tokenHash) = some i ∧
        ∀ x ∈ a.sessions, x.tokenHash ≠ session.tokenHash) :
    Holds a locks i { tx with phase := phase } :=
  h.advance haccount (fun hcall _ => h.serial hcall hserial) (fun hcall _ => h.spared hcall hold)
    (fun token userId tokenHash expiresAt hcall _ =>
      h.whole token userId tokenHash expiresAt hcall hold) hfresh

/-- A call that is none of an administrator's. -/
theorem Holds.onward (h : Holds a locks i tx) (hcall : tx.call.isAdminCall = false)
    (haccount : phase.account = tx.phase.account)
    (hfresh : phase.isEnded = true → ∀ session, tx.call.newSession = some session →
      locks (.sessionToken session.tokenHash) = some i ∧
        ∀ x ∈ a.sessions, x.tokenHash ≠ session.tokenHash) :
    Holds a locks i { tx with phase := phase } := by
  refine h.advance haccount ?_ ?_ ?_ hfresh
  · exact fun hadmin => nomatch hcall.symm.trans hadmin
  · exact fun hadmin => nomatch hcall.symm.trans hadmin
  · intro token userId tokenHash expiresAt hreset
    rw [hreset] at hcall
    cases hcall

end Holds

section Statements

variable {s : AccountSite} {i : TransactionId} {tx : Transaction}

theorem goOn_inv (h : SiteInv s) {phase : CallPhase}
    (hnew : Holds s.db.accounts s.locks i { tx with phase := phase }) :
    SiteInv (goOn s i tx phase) where
  accounts := h.accounts
  admin := h.admin
  holds := by
    intro j other hother
    change Function.update s.transactions i _ j = some other at hother
    by_cases hj : j = i
    · subst hj
      rw [Function.update_self] at hother
      obtain rfl := Option.some.inj hother
      exact hnew
    · rw [Function.update_of_ne hj] at hother
      exact h.holds j other hother

theorem rollback_inv (h : SiteInv s) (i : TransactionId) : SiteInv (rollback s i) where
  accounts := h.accounts
  admin := h.admin
  holds := by
    intro j other hother
    change Function.update s.transactions i none j = some other at hother
    by_cases hj : j = i
    · subst hj
      rw [Function.update_self] at hother
      cases hother
    · rw [Function.update_of_ne hj] at hother
      exact (h.holds j other hother).frame fun _ => LockTable.release_other hj

theorem locking_inv (h : SiteInv s) {keys : List LockKey} {k : AccountSite → AccountSite}
    (hk : ∀ s' : AccountSite, s'.db = s.db → s'.transactions = s.transactions → SiteInv s' →
      (∀ key ∈ keys, s'.locks key = some i) → SiteInv (k s')) : SiteInv (locking s i keys k) := by
  unfold locking
  split
  next hfree =>
    refine hk _ rfl rfl ⟨h.accounts, h.admin, fun j other hother => ?_⟩ fun key hkey =>
      LockTable.take_mem hkey
    refine (h.holds j other hother).frame fun key hkey => ?_
    by_cases hj : j = i
    · subst hj
      exact LockTable.take_mono hkey
    · exact LockTable.take_other hfree hj hkey
  next => exact h

theorem userById_id {u : UserId} (h : userById users u = some account) : account.id = u :=
  rowAt_key (show rowAt (·.id) users u = some account from h)

/-- `SELECT … FOR UPDATE` has its row. -/
theorem locked_inv (h : SiteInv s) (hlock : s.locks (.user userId) = some i)
    (hrow : userById s.db.accounts.users userId = some account)
    (hnamed : ∀ named, tx.call.userId = some named → userId = named) :
    SiteInv (goOn s i tx (.locked account)) := by
  obtain rfl := userById_id hrow
  exact goOn_inv h (Holds.lock rfl hlock hrow hnamed)

variable {session : NewSession}

/-- A new session is inserted. -/
theorem issueStatement_inv (h : SiteInv s) (htx : s.transactions i = some tx)
    (hcall : tx.call.isAdminCall = false) {before : User}
    (hsession : tx.call.newSession = some session) {sessionIds : List SessionId}
    (hbefore : tx.phase.account = some before) :
    SiteInv (issueStatement s i tx account session sessionIds before) := by
  unfold issueStatement
  split
  next => exact rollback_inv h i
  next =>
    refine locking_inv h fun s' hdb htxs h' hlocks => ?_
    split
    next => exact rollback_inv h' i
    next hunique =>
      refine goOn_inv h' ((h'.holds i tx (htxs ▸ htx)).onward hcall hbefore.symm ?_)
      intro _ new hnew
      obtain rfl := Option.some.inj (hsession.symm.trans hnew)
      refine ⟨hlocks _ (List.mem_cons_of_mem _ List.mem_cons_self), fun x hx hsame => ?_⟩
      exact hunique (List.any_eq_true.mpr ⟨x, hx, decide_eq_true (.inr hsame)⟩)

variable {token : Option HexText}

/-- The beginning of an administrator's call. -/
theorem adminStatement_inv (h : SiteInv s) (htx : s.transactions i = some tx)
    (hcall : tx.call.userId = some userId) {rest : CallPhase → AccountSite}
    (hrest : ∀ phase, tx.phase = phase → SiteInv (rest phase)) :
    SiteInv (adminStatement s i tx token userId rest) := by
  unfold adminStatement
  split
  next =>
    split
    next => exact rollback_inv h i
    next => exact goOn_inv h (Holds.free rfl (fun _ => rfl) rfl)
  next =>
    split
    next => exact rollback_inv h i
    next => exact goOn_inv h (Holds.free rfl (fun _ => rfl) rfl)
  next =>
    refine locking_inv h fun s' _ _ h' hlocks => ?_
    split
    next => exact rollback_inv h' i
    next current hrow =>
      refine locked_inv h' (hlocks _ List.mem_cons_self) hrow fun named hnamed => ?_
      exact Option.some.inj (hcall.symm.trans hnamed)
  next current hphase =>
    refine locking_inv h fun s' _ htxs h' hlocks => ?_
    have hholds := h'.holds i tx (htxs ▸ htx)
    refine goOn_inv h' (hholds.advance ?_ (fun _ _ => hlocks _ List.mem_cons_self) nofun nofun
      nofun)
    rw [hphase]
    rfl
  next phase _ _ _ _ => exact hrest _ rfl

theorem setUserStatement_inv (h : SiteInv s) (htx : s.transactions i = some tx) {role : Role}
    {status : UserStatus} (hcall : tx.call = .setUser token userId role status) :
    SiteInv (setUserStatement s i tx token userId role status) := by
  have hholds := h.holds i tx htx
  refine adminStatement_inv h htx (by rw [hcall]; rfl) fun phase hphase => ?_
  split
  next current =>
    split
    next => exact rollback_inv h i
    next hok =>
      have haccount : tx.phase.account = some current := by
        rw [hphase]
        rfl
      have hrow := (hholds.row current haccount).2
      have hid := hholds.named current userId haccount (by rw [hcall]; rfl)
      refine goOn_inv h (hholds.advance haccount.symm ?_ ?_ ?_ nofun)
      · intro hadmin _
        refine hholds.serial hadmin ?_
        rw [hphase]
        rfl
      · intro _ _ account hsame
        obtain rfl := Option.some.inj (haccount.symm.trans hsame)
        unfold rewritten
        rw [hcall, ← hid]
        exact setUser_spares h.accounts.users h.admin rfl (List.mem_of_find?_eq_some hrow)
          (Bool.eq_false_iff.mpr hok) _
      · intro _ _ _ _ hreset
        rw [hcall] at hreset
        cases hreset
  next current =>
    refine locking_inv h fun s' _ htxs h' _ => ?_
    refine goOn_inv h' ((h'.holds i tx (htxs ▸ htx)).after ?_ ?_ ?_ ?_)
    · rw [hphase]
      rfl
    · rw [hphase]
      rfl
    · rw [hphase]
      rfl
    · intro _ session hsession
      rw [hcall] at hsession
      cases hsession
  next => exact h

theorem resetUserStatement_inv (h : SiteInv s) (htx : s.transactions i = some tx)
    (hcall : tx.call = .resetUser token userId tokenHash expiresAt) :
    SiteInv (resetUserStatement s i tx token userId tokenHash expiresAt) := by
  have hholds := h.holds i tx htx
  refine adminStatement_inv h htx (by rw [hcall]; rfl) fun phase hphase => ?_
  split
  next current =>
    split
    next => exact rollback_inv h i
    next hok =>
      have hok := Bool.eq_false_iff.mpr hok
      have haccount : tx.phase.account = some current := by
        rw [hphase]
        rfl
      have hrow := (hholds.row current haccount).2
      have hid := hholds.named current userId haccount (by rw [hcall]; rfl)
      refine goOn_inv h (hholds.advance haccount.symm ?_ ?_ ?_ nofun)
      · intro hadmin _
        refine hholds.serial hadmin ?_
        rw [hphase]
        rfl
      · intro _ _ account hsame
        obtain rfl := Option.some.inj (haccount.symm.trans hsame)
        unfold rewritten
        rw [hcall, ← hid]
        have hsame : (snapshot s tx).accounts.users = s.db.accounts.users := rfl
        exact resetUser_spares h.accounts.users h.admin hsame (List.mem_of_find?_eq_some hrow) hok
      · intro _ _ _ _ _ _ account hsame
        obtain rfl := Option.some.inj (haccount.symm.trans hsame)
        have hrefused := of_decide_eq_false hok
        simp only [not_or, not_not] at hrefused
        exact hrefused.2.2.2.2.1
  next current =>
    refine locking_inv h fun s' _ htxs h' _ => ?_
    split
    next => exact rollback_inv h' i
    next =>
      refine goOn_inv h' ((h'.holds i tx (htxs ▸ htx)).after ?_ ?_ ?_ ?_)
      · rw [hphase]
        rfl
      · rw [hphase]
        rfl
      · rw [hphase]
        rfl
      · intro _ session hsession
        rw [hcall] at hsession
        cases hsession
  next => exact h

theorem changePasswordStatement_inv (h : SiteInv s) (htx : s.transactions i = some tx)
    {version : Nat} {hash : String}
    (hcall : tx.call = .changePassword tokenHash version hash session) :
    SiteInv (changePasswordStatement s i tx tokenHash version hash session) := by
  have hadmin : tx.call.isAdminCall = false := by
    rw [hcall]
    rfl
  have hnamed : ∀ userId named, tx.call.userId = some named → userId = named := by
    intro _ _ hsome
    rw [hcall] at hsome
    cases hsome
  unfold changePasswordStatement
  split
  next =>
    split
    next => exact rollback_inv h i
    next => exact goOn_inv h (Holds.free rfl (fun _ => rfl) rfl)
  next found _ =>
    refine locking_inv h fun s' _ _ h' hlocks => ?_
    split
    next => exact rollback_inv h' i
    next account hrow =>
      split
      next => exact locked_inv h' (hlocks _ List.mem_cons_self) hrow (hnamed _)
      next => exact rollback_inv h' i
  next account hphase =>
    split
    next => exact goOn_inv h ((h.holds i tx htx).onward hadmin (by rw [hphase]; rfl) nofun)
    next => exact rollback_inv h i
  next account hphase =>
    refine locking_inv h fun s' _ htxs h' _ => ?_
    exact goOn_inv h' ((h'.holds i tx (htxs ▸ htx)).onward hadmin (by rw [hphase]; rfl) nofun)
  next account sessionIds hphase =>
    exact issueStatement_inv h htx hadmin (by rw [hcall]; rfl) (by rw [hphase]; rfl)
  next => exact h

theorem consumeActivationStatement_inv (h : SiteInv s) (htx : s.transactions i = some tx)
    {hash : String} (hcall : tx.call = .consumeActivation tokenHash hash session) :
    SiteInv (consumeActivationStatement s i tx tokenHash hash session) := by
  have hadmin : tx.call.isAdminCall = false := by
    rw [hcall]
    rfl
  have hnamed : ∀ userId named, tx.call.userId = some named → userId = named := by
    intro _ _ hsome
    rw [hcall] at hsome
    cases hsome
  unfold consumeActivationStatement
  split
  next =>
    split
    next => exact rollback_inv h i
    next => exact goOn_inv h (Holds.free rfl (fun _ => rfl) rfl)
  next userId _ =>
    refine locking_inv h fun s' _ _ h' hlocks => ?_
    split
    next => exact rollback_inv h' i
    next account hrow =>
      split
      next =>
        exact locked_inv h' (hlocks _ (List.mem_cons_of_mem _ List.mem_cons_self)) hrow (hnamed _)
      next => exact rollback_inv h' i
  next account hphase =>
    split
    next => exact goOn_inv h ((h.holds i tx htx).onward hadmin (by rw [hphase]; rfl) nofun)
    next => exact rollback_inv h i
  next account hphase =>
    exact issueStatement_inv h htx hadmin (by rw [hcall]; rfl) (by rw [hphase]; rfl)
  next => exact h

theorem issueLoginSessionStatement_inv (h : SiteInv s) (htx : s.transactions i = some tx)
    {version : Nat} (hcall : tx.call = .issueLoginSession userId version session) :
    SiteInv (issueLoginSessionStatement s i tx userId version session) := by
  have hadmin : tx.call.isAdminCall = false := by
    rw [hcall]
    rfl
  have hnamed : ∀ userId named, tx.call.userId = some named → userId = named := by
    intro _ _ hsome
    rw [hcall] at hsome
    cases hsome
  unfold issueLoginSessionStatement
  dsimp only
  split
  next =>
    split
    next => exact goOn_inv h (Holds.free rfl (fun _ => rfl) rfl)
    next => exact rollback_inv h i
  next =>
    refine locking_inv h fun s' _ _ h' hlocks => ?_
    split
    next => exact rollback_inv h' i
    next account hrow =>
      split
      next => exact locked_inv h' (hlocks _ List.mem_cons_self) hrow (hnamed _)
      next => exact rollback_inv h' i
  next account hphase =>
    exact issueStatement_inv h htx hadmin (by rw [hcall]; rfl) (by rw [hphase]; rfl)
  next => exact h

theorem refreshSessionStatement_inv (h : SiteInv s) {csrf : HexText}
    (hcall : tx.call = .refreshSession tokenHash csrf expiresAt) :
    SiteInv (refreshSessionStatement s i tx tokenHash csrf expiresAt) := by
  have hadmin : tx.call.isAdminCall = false := by
    rw [hcall]
    rfl
  have hdone : ∀ {s' : AccountSite} (ids : List SessionId), SiteInv s' →
      SiteInv (goOn s' i tx (.ended none ids)) := fun ids h' =>
    goOn_inv h' (Holds.free rfl (fun hcall => nomatch hadmin.symm.trans hcall) rfl)
  unfold refreshSessionStatement
  split
  next =>
    split
    next => exact rollback_inv h i
    next =>
      split
      next => exact hdone [] h
      next => exact goOn_inv h (Holds.free rfl (fun _ => rfl) rfl)
  next =>
    refine locking_inv h fun s' _ _ h' _ => ?_
    split
    next => exact hdone _ h'
    next => exact hdone [] h'
  next => exact h

theorem logoutStatement_inv (h : SiteInv s) (hcall : tx.call = .logout tokenHash) :
    SiteInv (logoutStatement s i tx tokenHash) := by
  have hadmin : tx.call.isAdminCall = false := by
    rw [hcall]
    rfl
  have hdone : ∀ {s' : AccountSite} (ids : List SessionId), SiteInv s' →
      SiteInv (goOn s' i tx (.ended none ids)) := fun ids h' =>
    goOn_inv h' (Holds.free rfl (fun hcall => nomatch hadmin.symm.trans hcall) rfl)
  unfold logoutStatement
  split
  next =>
    split
    next => exact hdone [] h
    next => exact goOn_inv h (Holds.free rfl (fun _ => rfl) rfl)
  next => exact locking_inv h fun s' _ _ h' _ => hdone _ h'
  next => exact h

/-- A statement of any call. -/
theorem statement_inv (h : SiteInv s) (htx : s.transactions i = some tx) :
    SiteInv (statement s i tx) := by
  unfold statement
  split
  next hcall => exact setUserStatement_inv h htx hcall
  next hcall => exact resetUserStatement_inv h htx hcall
  next hcall => exact changePasswordStatement_inv h htx hcall
  next hcall => exact consumeActivationStatement_inv h htx hcall
  next hcall => exact issueLoginSessionStatement_inv h htx hcall
  next hcall => exact refreshSessionStatement_inv h hcall
  next hcall => exact logoutStatement_inv h hcall

end Statements

end LocalRag.Access
