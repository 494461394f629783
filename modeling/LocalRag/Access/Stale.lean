import LocalRag.Access.Held

/-!
# Never without an administrator, never with a stale session

The transactions of `Access.Transactions` in any order. Three things are said of what is
committed, and why each holds:
- there is an active administrator: whoever takes one away has counted under the advisory
  lock, and until it commits nobody else can take one away (`Holds.spared`);
- a session that was issued before its account was rewritten is never valid again: every
  rewrite raises `authentication_version`, and it never falls (`Raised`);
- a session that is not valid is never valid later, as long as no refresh commits behind the
  deadline it extends. `valid` is computed when the statement begins, and nothing tests it
  again when the row is written.
-/

namespace LocalRag.Access

open LocalRag.Core

/-! ## Commits keep it -/

/-- What becomes of a session row. -/
structure Aged (x x' : Session) : Prop where
  userId : x'.userId = x.userId
  tokenHash : x'.tokenHash = x.tokenHash
  issuedVersion : x'.issuedAuthenticationVersion = x.issuedAuthenticationVersion
  issuedEpoch : x'.issuedAuthenticationEpoch = x.issuedAuthenticationEpoch
  issuedSession : x'.issuedSessionEpoch = x.issuedSessionEpoch
  revoked : x'.revokedAt = none → x.revokedAt = none

/-- Its deadline is where it was. -/
def SameDeadline (x x' : Session) : Prop :=
  x'.idleExpiresAt = x.idleExpiresAt ∧ x'.absoluteExpiresAt = x.absoluteExpiresAt

theorem Aged.refl (x : Session) : Aged x x := ⟨rfl, rfl, rfl, rfl, rfl, id⟩

/-- Every account is the one it was, or its version is a higher one. -/
def Raised (users users' : List User) : Prop :=
  ∀ u' ∈ users', ∃ u ∈ users, u.id = u'.id ∧
    (u' = u ∨ u.authenticationVersion < u'.authenticationVersion)

theorem Raised.refl (users : List User) : Raised users users :=
  fun u hu => ⟨u, hu, rfl, .inl rfl⟩

theorem raised_rewrite {account : User} {p : User → Bool} {f : User → User}
    (h : Rewrite account p f) (users : List User) : Raised users (updateWhere p f users) := by
  intro u' hu'
  obtain ⟨u, hu, rfl⟩ := mem_updateWhere.mp hu'
  refine ⟨u, hu, ?_⟩
  by_cases hp : p u = true
  · rw [if_pos hp, h.id, h.raised]
    exact ⟨rfl, .inr (Nat.lt_succ_self _)⟩
  · rw [if_neg hp]
    exact ⟨rfl, .inl rfl⟩

/-- What a commit makes of the accounts. -/
structure Committed (a a' : Accounts) (tx : Transaction) (sessionIds : List SessionId) : Prop where
  epochs : a'.epochs = a.epochs
  raised : Raised a.users a'.users
  /-- Every session is still there; only a refresh moves the deadline of one. -/
  aged : ∀ x ∈ a.sessions, ∃ x' ∈ a'.sessions, Aged x x' ∧
    (SameDeadline x x' ∨ tx.call.isRefresh = true ∧ x.id ∈ sessionIds)
  /-- Every session was there, or is the one the call issues. -/
  traced : ∀ x' ∈ a'.sessions, (∃ x ∈ a.sessions, Aged x x') ∨
    tx.phase.isEnded = true ∧ ∃ session, tx.call.newSession = some session ∧
      x'.tokenHash = session.tokenHash
  ok : AccountsOk a'

variable {users : List User}

theorem keyed_rewritten (tx : Transaction) (h : Keyed (·.id) users) (account : User) :
    Keyed (·.id) (rewritten tx account users) := by
  obtain ⟨call, startedAt, phase⟩ := tx
  cases call with
  | issueLoginSession userId version session => exact h
  | refreshSession tokenHash csrf expiresAt => exact h
  | logout tokenHash => exact h
  | _ => exact h.updateWhere fun _ => rfl

theorem aged_revokeRows (now : Time) (ids : List SessionId) (x : Session) :
    ∃ x', (∀ sessions, x ∈ sessions → x' ∈ revokeRows now ids sessions) ∧ Aged x x' ∧
      SameDeadline x x' := by
  by_cases hrow : x.id ∈ ids ∧ x.revokedAt = none
  · refine ⟨{ x with revokedAt := some now }, fun sessions hx => ?_, ⟨rfl, rfl, rfl, rfl, rfl,
      nofun⟩, rfl, rfl⟩
    exact mem_updateWhere.mpr ⟨x, hx, if_pos (decide_eq_true hrow)⟩
  · refine ⟨x, fun sessions hx => ?_, Aged.refl x, rfl, rfl⟩
    exact mem_updateWhere.mpr ⟨x, hx, if_neg fun hp => hrow (of_decide_eq_true hp)⟩

theorem traced_revokeRows {now : Time} {ids : List SessionId} {sessions : List Session}
    {x' : Session} (h : x' ∈ revokeRows now ids sessions) : ∃ x ∈ sessions, Aged x x' := by
  obtain ⟨x, hx, rfl⟩ := mem_updateWhere.mp h
  refine ⟨x, hx, ?_⟩
  split
  next => exact ⟨rfl, rfl, rfl, rfl, rfl, nofun⟩
  next => exact Aged.refl x

variable {tx : Transaction} {sessionIds : List SessionId}

variable {a : Accounts}

/-- Rows are updated, and none is inserted. -/
theorem committed_update (h : AccountsOk a) {sessions : List Session}
    {challenges : List PreAuthChallenge} (hraised : Raised a.users users)
    (hkeyed : Keyed (·.id) users)
    (haged : ∀ x ∈ a.sessions, ∃ x' ∈ sessions, Aged x x' ∧
      (SameDeadline x x' ∨ tx.call.isRefresh = true ∧ x.id ∈ sessionIds))
    (htraced : ∀ x' ∈ sessions, ∃ x ∈ a.sessions, Aged x x')
    (htokens : Keyed (·.tokenHash) sessions) :
    Committed a { a with users := users, sessions := sessions, challenges := challenges } tx
      sessionIds where
  epochs := rfl
  raised := hraised
  aged := haged
  traced := fun x' hx' => .inl (htraced x' hx')
  ok := by
    refine ⟨hkeyed, htokens, fun x' hx' u' hu' hid => ?_⟩
    obtain ⟨x, hx, haged⟩ := htraced x' hx'
    obtain ⟨u, hu, huid, hu'⟩ := hraised u' hu'
    have hle := h.issued x hx u hu (huid.trans (hid.trans haged.userId))
    rw [haged.issuedVersion]
    rcases hu' with rfl | hlt
    · exact hle
    · omega

/-- The session of a call is inserted on top. -/
theorem committed_issue {a' : Accounts} (h : Committed a a' tx sessionIds)
    (hended : tx.phase.isEnded = true) {session : NewSession}
    (hsession : tx.call.newSession = some session) {y : Session}
    (hnew : ∀ x ∈ a.sessions, x.tokenHash ≠ session.tokenHash)
    (hold : ∀ x' ∈ a'.sessions, ∃ x ∈ a.sessions, Aged x x')
    (htoken : y.tokenHash = session.tokenHash)
    (hversion : ∀ u' ∈ a'.users, u'.id = y.userId →
      y.issuedAuthenticationVersion ≤ u'.authenticationVersion) :
    Committed a { a' with sessions := a'.sessions ++ [y] } tx sessionIds where
  epochs := h.epochs
  raised := h.raised
  aged := by
    intro x hx
    obtain ⟨x', hx', haged⟩ := h.aged x hx
    exact ⟨x', List.mem_append_left _ hx', haged⟩
  traced := by
    intro x' hx'
    rcases List.mem_append.mp hx' with hbefore | hlast
    · exact h.traced x' hbefore
    · obtain rfl := List.mem_singleton.mp hlast
      exact .inr ⟨hended, session, hsession, htoken⟩
  ok := by
    refine ⟨h.ok.users, h.ok.tokens.append fun x' hx' hsame => ?_, fun x' hx' u' hu' hid => ?_⟩
    · obtain ⟨x, hx, haged⟩ := hold x' hx'
      exact hnew x hx (haged.tokenHash.symm.trans (hsame.trans htoken))
    · rcases List.mem_append.mp hx' with hbefore | hlast
      · exact h.ok.issued x' hbefore u' hu' hid
      · obtain rfl := List.mem_singleton.mp hlast
        exact hversion u' hu' hid

/-- A refresh moves deadlines. -/
theorem committed_refresh (h : AccountsOk a) (hcall : tx.call.isRefresh = true)
    (sessionIds : List SessionId) (expiresAt : Time) :
    Committed a
      { a with
        sessions := updateWhere (fun x => x.id ∈ sessionIds)
          (fun x => { x with idleExpiresAt := expiresAt, absoluteExpiresAt := expiresAt })
          a.sessions } tx sessionIds := by
  refine committed_update h (Raised.refl _) h.users (fun x hx => ?_) (fun x' hx' => ?_)
    (h.tokens.updateWhere fun _ => rfl)
  · refine ⟨_, mem_updateWhere.mpr ⟨x, hx, rfl⟩, ?_⟩
    by_cases hid : x.id ∈ sessionIds
    · rw [if_pos (decide_eq_true hid)]
      exact ⟨⟨rfl, rfl, rfl, rfl, rfl, id⟩, .inr ⟨hcall, hid⟩⟩
    · rw [if_neg fun hp => hid (of_decide_eq_true hp)]
      exact ⟨Aged.refl x, .inl ⟨rfl, rfl⟩⟩
  · obtain ⟨x, hx, rfl⟩ := mem_updateWhere.mp hx'
    refine ⟨x, hx, ?_⟩
    split
    next => exact ⟨rfl, rfl, rfl, rfl, rfl, id⟩
    next => exact Aged.refl x

/-- The version of a rewritten account. -/
theorem version_rewrite {account : User} {p : User → Bool} {f : User → User}
    (h : Rewrite account p f) (hkeyed : Keyed (·.id) users)
    (hrow : userById users account.id = some account) :
    ∀ u' ∈ updateWhere p f users, u'.id = account.id →
      u'.authenticationVersion = account.authenticationVersion + 1 := by
  intro u' hu' hid
  obtain ⟨u, hu, rfl⟩ := mem_updateWhere.mp hu'
  have huid : u.id = account.id := by
    split at hid
    next => exact (h.id u).symm.trans hid
    next => exact hid
  obtain rfl := hkeyed.eq hu (List.mem_of_find?_eq_some hrow) huid
  rw [if_pos h.hit, h.raised]

variable {s : AccountSite} {i : TransactionId} {account : Option User}

/-- What any commit makes of the accounts. -/
theorem committedAccounts_ok (h : SiteInv s) (htx : s.transactions i = some tx)
    (hphase : tx.phase = .ended account sessionIds) :
    Committed s.db.accounts (committedAccounts s.db tx account sessionIds) tx sessionIds := by
  have hholds := h.holds i tx htx
  have hok := h.accounts
  have hkeep : ∀ x ∈ s.db.accounts.sessions, ∃ x' ∈ s.db.accounts.sessions, Aged x x' ∧
      (SameDeadline x x' ∨ tx.call.isRefresh = true ∧ x.id ∈ sessionIds) :=
    fun x hx => ⟨x, hx, Aged.refl x, .inl ⟨rfl, rfl⟩⟩
  have hrevoke : ∀ now, ∀ x ∈ s.db.accounts.sessions,
      ∃ x' ∈ revokeRows now sessionIds s.db.accounts.sessions, Aged x x' ∧
        (SameDeadline x x' ∨ tx.call.isRefresh = true ∧ x.id ∈ sessionIds) := by
    intro now x hx
    obtain ⟨x', hx', haged, hsame⟩ := aged_revokeRows now sessionIds x
    exact ⟨x', hx' _ hx, haged, .inl hsame⟩
  have htraced : ∀ now, ∀ x' ∈ revokeRows now sessionIds s.db.accounts.sessions,
      ∃ x ∈ s.db.accounts.sessions, Aged x x' := fun now x' hx' => traced_revokeRows hx'
  have hself : ∀ x' ∈ s.db.accounts.sessions, ∃ x ∈ s.db.accounts.sessions, Aged x x' :=
    fun x' hx' => ⟨x', hx', Aged.refl x'⟩
  have hrevoked : ∀ now, Keyed (·.tokenHash) (revokeRows now sessionIds s.db.accounts.sessions) :=
    fun now => hok.tokens.updateWhere fun _ => rfl
  have hnothing : Committed s.db.accounts s.db.accounts tx sessionIds :=
    committed_update hok (Raised.refl _) hok.users hkeep hself hok.tokens
  obtain ⟨call, startedAt, phase⟩ := tx
  obtain rfl : phase = .ended account sessionIds := hphase
  cases account with
  | none =>
    cases call with
    | refreshSession tokenHash csrf expiresAt => exact committed_refresh hok rfl sessionIds expiresAt
    | logout tokenHash =>
      exact committed_update hok (Raised.refl _) hok.users (hrevoke startedAt) (htraced startedAt)
        (hrevoked startedAt)
    | _ => exact hnothing
  | some account =>
    have hrow := (hholds.row account rfl).2
    have hkeyed := fun call => keyed_rewritten ⟨call, startedAt, .ended account sessionIds⟩
      hok.users account
    have hrewrite : call.rewrites = true →
        Raised s.db.accounts.users (rewritten ⟨call, startedAt, .ended account sessionIds⟩ account
          s.db.accounts.users) ∧
        ∀ u' ∈ rewritten ⟨call, startedAt, .ended account sessionIds⟩ account s.db.accounts.users,
          u'.id = account.id → u'.authenticationVersion = account.authenticationVersion + 1 := by
      intro hrewrites
      obtain ⟨p, f, heq, hp, -⟩ := rewritten_eq hholds rfl rfl hrewrites
      rw [heq]
      exact ⟨raised_rewrite hp _, version_rewrite hp hok.users hrow⟩
    have hnew := hholds.fresh rfl
    cases call with
    | setUser token userId role status =>
      exact committed_update hok (hrewrite rfl).1 (hkeyed (.setUser token userId role status))
        (hrevoke startedAt) (htraced startedAt) (hrevoked startedAt)
    | resetUser token userId tokenHash expiresAt =>
      exact committed_update hok (hrewrite rfl).1 (hkeyed (.resetUser token userId tokenHash expiresAt))
        (hrevoke startedAt) (htraced startedAt) (hrevoked startedAt)
    | changePassword tokenHash version hash session =>
      refine committed_issue (committed_update hok (hrewrite rfl).1
        (hkeyed (.changePassword tokenHash version hash session)) (hrevoke startedAt)
        (htraced startedAt) (hrevoked startedAt)) rfl rfl (hnew session rfl).2 (htraced startedAt) rfl ?_
      exact fun u' hu' hid => le_of_eq ((hrewrite rfl).2 u' hu' hid).symm
    | consumeActivation tokenHash hash session =>
      refine committed_issue (committed_update hok (hrewrite rfl).1
        (hkeyed (.consumeActivation tokenHash hash session)) hkeep hself hok.tokens) rfl rfl
        (hnew session rfl).2 hself rfl ?_
      exact fun u' hu' hid => le_of_eq ((hrewrite rfl).2 u' hu' hid).symm
    | issueLoginSession userId version session =>
      refine committed_issue hnothing rfl rfl (hnew session rfl).2 hself rfl fun u' hu' hid => ?_
      obtain rfl := hok.users.eq hu' (List.mem_of_find?_eq_some hrow) hid
      exact Nat.le_refl _
    | refreshSession tokenHash csrf expiresAt => exact committed_refresh hok rfl sessionIds expiresAt
    | logout tokenHash =>
      exact committed_update hok (Raised.refl _) hok.users (hrevoke startedAt) (htraced startedAt)
        (hrevoked startedAt)

/-- The accounts of a commit. -/
theorem committedAccounts_users (db : Db) (hphase : tx.phase = .ended account sessionIds) :
    (committedAccounts db tx account sessionIds).users = db.accounts.users ∨
      tx.call.rewrites = true ∧ ∃ row, tx.phase.account = some row ∧
        (committedAccounts db tx account sessionIds).users = rewritten tx row db.accounts.users := by
  obtain ⟨call, startedAt, phase⟩ := tx
  obtain rfl : phase = .ended account sessionIds := hphase
  cases account with
  | none =>
    left
    cases call <;> rfl
  | some row =>
    cases call with
    | issueLoginSession userId version session => exact .inl rfl
    | refreshSession tokenHash csrf expiresAt => exact .inl rfl
    | logout tokenHash => exact .inl rfl
    | _ => exact .inr ⟨rfl, row, rfl, rfl⟩

theorem isSerial_ended {phase : CallPhase} (h : phase = .ended account sessionIds) :
    phase.isSerial = true ∧ phase.isWritten = true := by
  rw [h]
  exact ⟨rfl, rfl⟩

/-- An administrator is left by what is committed. -/
theorem hasAdmin_committed (h : SiteInv s) (htx : s.transactions i = some tx)
    (hphase : tx.phase = .ended account sessionIds) :
    HasAdmin (committedAccounts s.db tx account sessionIds).users := by
  have hholds := h.holds i tx htx
  obtain ⟨-, hwritten⟩ := isSerial_ended hphase
  rcases committedAccounts_users s.db hphase with hsame | ⟨hrewrites, row, hrow, husers⟩
  · rw [hsame]
    exact h.admin
  · rw [husers]
    cases hadmin : tx.call.isAdminCall with
    | true => exact hholds.spared hadmin hwritten row hrow
    | false =>
      obtain ⟨p, f, heq, -, hspares⟩ := rewritten_eq hholds hrow hwritten hrewrites
      rw [heq]
      exact hasAdmin_spares (hspares hadmin) h.admin

/-- What another transaction holds is not touched by a commit. -/
theorem holds_committed (h : SiteInv s) {j : TransactionId} (hj : j ≠ i) {other : Transaction}
    (htx : s.transactions i = some tx) (hother : s.transactions j = some other)
    (hphase : tx.phase = .ended account sessionIds) :
    Holds (committedAccounts s.db tx account sessionIds) s.locks j other := by
  have hmine := h.holds i tx htx
  have hholds := h.holds j other hother
  obtain ⟨hserial, hwritten⟩ := isSerial_ended hphase
  have hcommitted := committedAccounts_ok h htx hphase
  have happart : ∀ {key}, s.locks key = some i → s.locks key = some j → False :=
    fun hi hj' => hj (Option.some.inj (hj'.symm.trans hi))
  refine ⟨fun row hrow => ?_, hholds.named, hholds.serial, ?_, hholds.whole, ?_⟩
  · obtain ⟨hlock, hread⟩ := hholds.row row hrow
    refine ⟨hlock, ?_⟩
    rcases committedAccounts_users s.db hphase with hsame | ⟨hrewrites, mine, hmineRow, husers⟩
    · rw [hsame, hread]
    · obtain ⟨p, f, heq, hp, -⟩ := rewritten_eq hmine hmineRow hwritten hrewrites
      rw [husers, heq, userById_rewrite hp, hread]
      intro hid
      rw [hid] at hlock
      exact happart (hmine.row mine hmineRow).1 hlock
  · intro hadmin hotherWritten row hrow
    have hspared := hholds.spared hadmin hotherWritten row hrow
    rcases committedAccounts_users s.db hphase with hsame | ⟨hrewrites, mine, hmineRow, husers⟩
    · rw [hsame]
      exact hspared
    · have hotherSerial : other.phase.isSerial = true := by
        cases hcase : other.phase <;> rw [hcase] at hotherWritten <;>
          first | rfl | cases hotherWritten
      -- only one of the two can have the advisory lock
      have hnot : tx.call.isAdminCall = false := by
        cases hcall : tx.call.isAdminCall with
        | false => rfl
        | true => exact (happart (hmine.serial hcall hserial) (hholds.serial hadmin hotherSerial)).elim
      obtain ⟨p, f, heq, hp, hspares⟩ := rewritten_eq hmine hmineRow hwritten hrewrites
      have hotherRewrites : other.call.rewrites = true := by
        cases hcase : other.call <;> rw [hcase] at hadmin <;> first | rfl | cases hadmin
      obtain ⟨q, g, hotherEq, hq, -⟩ := rewritten_eq hholds hrow hotherWritten hotherRewrites
      rw [husers, heq, hotherEq]
      rw [hotherEq] at hspared
      refine hasAdmin_rewrite hq hp (fun hid => ?_) (hspares hnot) hspared
      have hlock := (hmine.row mine hmineRow).1
      rw [hid] at hlock
      exact happart hlock (hholds.row row hrow).1
  · intro hended session hsession
    obtain ⟨hlock, hunused⟩ := hholds.fresh hended session hsession
    refine ⟨hlock, fun x' hx' hsame => ?_⟩
    rcases hcommitted.traced x' hx' with ⟨x, hx, haged⟩ | ⟨hmineEnded, mine, hmineSession, htoken⟩
    · exact hunused x hx (haged.tokenHash.symm.trans hsame)
    · have hlocked := (hmine.fresh hmineEnded mine hmineSession).1
      rw [← htoken, hsame] at hlocked
      exact happart hlocked hlock

theorem commitCall_inv (h : SiteInv s) (i : TransactionId) : SiteInv (commitCall s i) := by
  unfold commitCall
  split
  next call startedAt account sessionIds htx =>
    refine ⟨(committedAccounts_ok h htx rfl).ok, hasAdmin_committed h htx rfl, ?_⟩
    intro j other hother
    change Function.update s.transactions i none j = some other at hother
    by_cases hj : j = i
    · subst hj
      rw [Function.update_self] at hother
      cases hother
    · rw [Function.update_of_ne hj] at hother
      exact (holds_committed h hj htx hother rfl).frame fun _ => LockTable.release_other hj
  next => exact h

theorem accountStep_inv (s : AccountSite) (a : AccountAct) (h : SiteInv s) :
    SiteInv (accountStep s a) := by
  cases a with
  | begin i call =>
    show SiteInv (beginCall s i call)
    unfold beginCall
    split
    next => exact h
    next =>
      show SiteInv (goOn s i ⟨call, s.db.now, .begun⟩ .begun)
      exact goOn_inv h (Holds.free rfl (fun _ => rfl) rfl)
  | statement i =>
    show SiteInv (statementOf s i)
    unfold statementOf
    split
    next tx htx => exact statement_inv h htx
    next => exact h
  | commit i => exact commitCall_inv h i
  | rollback i => exact rollback_inv h i
  | tick elapsed => exact ⟨h.accounts, h.admin, h.holds⟩

variable {db : Db}

theorem idleSite_inv (hok : AccountsOk db.accounts) (hadmin : HasAdmin db.accounts.users)
    (visits : List SessionVisit) : SiteInv (idleSite db visits) := by
  refine ⟨hok, hadmin, fun i tx htx => ?_⟩
  change none = some tx at htx
  cases htx

/-! ## Sessions -/

variable {x : Session}

theorem isLive_iff : isLive db x = true ↔
    x.revokedAt = none ∧ db.now < x.idleExpiresAt ∧ db.now < x.absoluteExpiresAt ∧
    x.issuedAuthenticationEpoch = db.accounts.epochs.authenticationVersion ∧
    x.issuedSessionEpoch = db.accounts.epochs.sessionEpoch ∧
    ∃ u ∈ db.accounts.users, u.id = x.userId ∧ User.isActive u = true ∧
      x.issuedAuthenticationVersion = u.authenticationVersion := by
  unfold isLive
  rw [decide_eq_true_iff, List.any_eq_true]
  simp only [decide_eq_true_eq]

/-- What `v4_current_actor_id` says of a session's token. -/
theorem currentActor_none_iff (h : Keyed (·.tokenHash) db.accounts.sessions)
    (hx : x ∈ db.accounts.sessions) :
    v4CurrentActorId db (some x.tokenHash) = none ↔ isLive db x = false := by
  unfold v4CurrentActorId
  rw [List.findSome?_eq_none_iff, ← Bool.not_eq_true, isLive_iff]
  constructor
  · rintro hnone ⟨hrevoked, hidle, habsolute, hepoch, hsession, u, hu, huid, hactive, hversion⟩
    have hx' := hnone x hx
    rw [if_pos ⟨rfl, hrevoked, hidle, habsolute, hepoch, hsession⟩, Option.map_eq_none_iff,
      List.find?_eq_none] at hx'
    exact hx' u hu (decide_eq_true ⟨huid, hactive, hversion⟩)
  · intro hdead y hy
    split
    next hcond =>
      obtain ⟨htoken, hrest⟩ := hcond
      obtain rfl := h.eq hx hy (Option.some.inj htoken)
      rw [Option.map_eq_none_iff, List.find?_eq_none]
      intro u hu hfound
      obtain ⟨hrevoked, hidle, habsolute, hepoch, hsession⟩ := hrest
      exact hdead ⟨hrevoked, hidle, habsolute, hepoch, hsession, u, hu, of_decide_eq_true hfound⟩
    next => rfl

/-- A session that is there stays, and is only ever live if it was. -/
def Kept (s s' : AccountSite) : Prop :=
  ∀ x ∈ s.db.accounts.sessions, ∃ x' ∈ s'.db.accounts.sessions, x'.tokenHash = x.tokenHash ∧
    (isLive s'.db x' = true → isLive s.db x = true)

/-- A refresh commits before the deadline it extends. -/
def CommitOk (s : AccountSite) : AccountAct → Prop
  | .commit i => ∀ tx account sessionIds, s.transactions i = some tx →
      tx.phase = .ended account sessionIds → tx.call.isRefresh = true →
        ∀ x ∈ s.db.accounts.sessions, x.id ∈ sessionIds →
          s.db.now < x.idleExpiresAt ∧ s.db.now < x.absoluteExpiresAt
  | _ => True


/-- A session of the state before a commit, live behind it. -/
theorem live_committed (db' : Db) (hok : AccountsOk db.accounts)
    (h : Committed db.accounts db'.accounts tx sessionIds) (hnow : db'.now = db.now)
    {x' : Session} (hx : x ∈ db.accounts.sessions) (haged : Aged x x')
    (hdeadline : SameDeadline x x' ∨ db.now < x.idleExpiresAt ∧ db.now < x.absoluteExpiresAt)
    (hlive : isLive db' x' = true) : isLive db x = true := by
  obtain ⟨hrevoked, hidle, habsolute, hepoch, hsession, u', hu', hid, hactive, hversion⟩ :=
    isLive_iff.mp hlive
  rw [hnow] at hidle habsolute
  have htimes : db.now < x.idleExpiresAt ∧ db.now < x.absoluteExpiresAt := by
    rcases hdeadline with ⟨hsameIdle, hsameAbsolute⟩ | htimes
    · exact ⟨hsameIdle ▸ hidle, hsameAbsolute ▸ habsolute⟩
    · exact htimes
  obtain ⟨u, hu, huid, hraised⟩ := h.raised u' hu'
  have hsame : u' = u := by
    rcases hraised with hsame | hlt
    · exact hsame
    · -- the session would be ahead of its account
      have hle := hok.issued x hx u hu (huid.trans (hid.trans haged.userId))
      rw [haged.issuedVersion] at hversion
      omega
  rw [hsame] at hid hactive hversion
  exact isLive_iff.mpr ⟨haged.revoked hrevoked, htimes.1, htimes.2,
    haged.issuedEpoch ▸ (hepoch.trans (congrArg SecurityEpochs.authenticationVersion h.epochs)),
    haged.issuedSession ▸ (hsession.trans (congrArg SecurityEpochs.sessionEpoch h.epochs)),
    u, hu, hid.trans haged.userId, hactive, haged.issuedVersion ▸ hversion⟩

/-- Locks are no writes. -/
theorem locking_db {keys : List LockKey} {k : AccountSite → AccountSite}
    (hk : ∀ s' : AccountSite, s'.db = s.db → (k s').db = s.db) :
    (locking s i keys k).db = s.db := by
  unfold locking
  split
  next => exact hk _ rfl
  next => rfl

theorem ite_db {s' t : AccountSite} {p : Prop} [Decidable p] (h : s.db = t.db) (h' : s'.db = t.db) :
    (if p then s else s').db = t.db := by
  split
  next => exact h
  next => exact h'

theorem issueStatement_db (s : AccountSite) (i : TransactionId) (tx : Transaction)
    (account before : User) (session : NewSession) (sessionIds : List SessionId) :
    (issueStatement s i tx account session sessionIds before).db = s.db :=
  ite_db rfl (locking_db fun _ h => ite_db h h)

theorem adminStatement_db (s : AccountSite) (i : TransactionId) (tx : Transaction)
    (token : Option HexText) (userId : UserId) {rest : CallPhase → AccountSite}
    (hrest : ∀ phase, (rest phase).db = s.db) :
    (adminStatement s i tx token userId rest).db = s.db := by
  unfold adminStatement
  split
  next => split <;> rfl
  next => split <;> rfl
  next =>
    refine locking_db fun s' h => ?_
    split <;> exact h
  next => exact locking_db fun _ h => h
  next => exact hrest _

/-- A statement writes nothing that is committed. -/
theorem statement_db (s : AccountSite) (i : TransactionId) (tx : Transaction) :
    (statement s i tx).db = s.db := by
  unfold statement
  split
  next =>
    refine adminStatement_db s i tx _ _ fun phase => ?_
    split
    next => exact ite_db rfl rfl
    next => exact locking_db fun _ h => h
    next => rfl
  next =>
    refine adminStatement_db s i tx _ _ fun phase => ?_
    split
    next => exact ite_db rfl rfl
    next => exact locking_db fun _ h => ite_db h h
    next => rfl
  next =>
    unfold changePasswordStatement
    split
    next => split <;> rfl
    next =>
      refine locking_db fun s' h => ?_
      split
      next => exact h
      next => exact ite_db h h
    next => exact ite_db rfl rfl
    next => exact locking_db fun _ h => h
    next => exact issueStatement_db ..
    next => rfl
  next =>
    unfold consumeActivationStatement
    split
    next => split <;> rfl
    next =>
      refine locking_db fun s' h => ?_
      split
      next => exact h
      next => exact ite_db h h
    next => exact ite_db rfl rfl
    next => exact issueStatement_db ..
    next => rfl
  next =>
    unfold issueLoginSessionStatement
    dsimp only
    split
    next => exact ite_db rfl rfl
    next =>
      refine locking_db fun s' h => ?_
      split
      next => exact h
      next => exact ite_db h h
    next => exact issueStatement_db ..
    next => rfl
  next =>
    unfold refreshSessionStatement
    split
    next =>
      split
      next => rfl
      next => split <;> rfl
    next => exact locking_db fun _ h => ite_db h h
    next => rfl
  next =>
    unfold logoutStatement
    split
    next => split <;> rfl
    next => exact locking_db fun _ h => h
    next => rfl

theorem Kept.of_db {s' : AccountSite} (h : s'.db = s.db) : Kept s s' := by
  intro x hx
  refine ⟨x, h ▸ hx, rfl, fun hlive => ?_⟩
  rw [h] at hlive
  exact hlive

theorem commitCall_kept (h : SiteInv s) (hok : CommitOk s (.commit i)) :
    Kept s (commitCall s i) := by
  unfold commitCall
  split
  next call startedAt account sessionIds htx =>
    intro x hx
    have hcommitted := committedAccounts_ok h htx rfl
    obtain ⟨x', hx', haged, hdeadline⟩ := hcommitted.aged x hx
    refine ⟨x', hx', haged.tokenHash, fun hlive => ?_⟩
    refine live_committed { s.db with accounts := committedAccounts s.db _ account sessionIds }
      h.accounts hcommitted rfl hx haged ?_ hlive
    exact hdeadline.imp_right fun hrefresh =>
      hok _ account sessionIds htx rfl hrefresh.1 x hx hrefresh.2
  next => exact Kept.of_db rfl

theorem accountStep_kept (s : AccountSite) (a : AccountAct) (hok : CommitOk s a) (h : SiteInv s) :
    Kept s (accountStep s a) := by
  cases a with
  | begin i call =>
    show Kept s (beginCall s i call)
    unfold beginCall
    split
    next => exact Kept.of_db rfl
    next => exact Kept.of_db rfl
  | statement i =>
    show Kept s (statementOf s i)
    unfold statementOf
    split
    next tx _ => exact Kept.of_db (statement_db s i tx)
    next => exact Kept.of_db rfl
  | commit i => exact commitCall_kept h hok
  | rollback i => exact Kept.of_db rfl
  | tick elapsed =>
    refine fun x hx => ⟨x, hx, rfl, fun hlive => ?_⟩
    obtain ⟨hrevoked, hidle, habsolute, hrest⟩ := isLive_iff.mp hlive
    have hearlier : s.db.now ≤ s.db.now + elapsed := Nat.le_add_right _ _
    exact isLive_iff.mpr ⟨hrevoked, Nat.lt_of_le_of_lt hearlier hidle,
      Nat.lt_of_le_of_lt hearlier habsolute, hrest⟩

/-- The session with this token is behind its account. -/
def Outdated (a : Accounts) (tokenHash : HexText) : Prop :=
  ∃ x ∈ a.sessions, x.tokenHash = tokenHash ∧
    ∀ u ∈ a.users, u.id = x.userId → x.issuedAuthenticationVersion < u.authenticationVersion

variable {tokenHash : HexText}

theorem Outdated.dead (hok : AccountsOk db.accounts) (h : Outdated db.accounts tokenHash) :
    v4CurrentActorId db (some tokenHash) = none := by
  obtain ⟨x, hx, rfl, hbehind⟩ := h
  rw [currentActor_none_iff hok.tokens hx, ← Bool.not_eq_true, isLive_iff]
  rintro ⟨-, -, -, -, -, u, hu, hid, -, hversion⟩
  have := hbehind u hu hid
  omega

/-- It never catches up. -/
theorem Outdated.committed {a' : Accounts} (hcommitted : Committed a a' tx sessionIds)
    (h : Outdated a tokenHash) : Outdated a' tokenHash := by
  obtain ⟨x, hx, rfl, hbehind⟩ := h
  obtain ⟨x', hx', haged, -⟩ := hcommitted.aged x hx
  refine ⟨x', hx', haged.tokenHash, fun u' hu' hid => ?_⟩
  obtain ⟨u, hu, huid, hraised⟩ := hcommitted.raised u' hu'
  have hlt := hbehind u hu (huid.trans (hid.trans haged.userId))
  rw [haged.issuedVersion]
  rcases hraised with rfl | hgrown
  · exact hlt
  · omega

theorem accountStep_outdated (h : SiteInv s) (hout : Outdated s.db.accounts tokenHash)
    (a : AccountAct) : Outdated (accountStep s a).db.accounts tokenHash := by
  cases a with
  | begin i call =>
    show Outdated (beginCall s i call).db.accounts tokenHash
    unfold beginCall
    split <;> exact hout
  | statement i =>
    show Outdated (statementOf s i).db.accounts tokenHash
    unfold statementOf
    split
    next tx _ =>
      rw [statement_db]
      exact hout
    next => exact hout
  | commit i =>
    show Outdated (commitCall s i).db.accounts tokenHash
    unfold commitCall
    split
    next call startedAt account sessionIds htx =>
      exact hout.committed (committedAccounts_ok h htx rfl)
    next => exact hout
  | rollback i => exact hout
  | tick elapsed => exact hout

/-- The sessions of an account that is rewritten. -/
theorem commitCall_outdated (h : SiteInv s) (htx : s.transactions i = some tx) {account : User}
    (hphase : tx.phase = .ended (some account) sessionIds) (hrewrites : tx.call.rewrites = true)
    (hx : x ∈ s.db.accounts.sessions) (huser : x.userId = account.id) :
    Outdated (commitCall s i).db.accounts x.tokenHash := by
  have hholds := h.holds i tx htx
  have haccount : tx.phase.account = some account := by
    rw [hphase]
    rfl
  have hrow := (hholds.row account haccount).2
  have hcommitted := committedAccounts_ok h htx hphase
  have hcommit : (commitCall s i).db.accounts =
      committedAccounts s.db tx (some account) sessionIds := by
    obtain ⟨call, startedAt, phase⟩ := tx
    obtain rfl : phase = .ended (some account) sessionIds := hphase
    unfold commitCall
    rw [htx]
  obtain ⟨p, f, heq, hp, -⟩ := rewritten_eq hholds haccount (isSerial_ended hphase).2 hrewrites
  have husers : (committedAccounts s.db tx (some account) sessionIds).users =
      updateWhere p f s.db.accounts.users := by
    rw [← heq]
    obtain ⟨call, startedAt, phase⟩ := tx
    cases call <;> rfl
  obtain ⟨x', hx', haged, -⟩ := hcommitted.aged x hx
  rw [hcommit]
  refine ⟨x', hx', haged.tokenHash, fun u' hu' hid => ?_⟩
  rw [husers] at hu'
  rw [haged.issuedVersion, version_rewrite hp h.accounts.users hrow u' hu'
    (hid.trans (haged.userId.trans huser))]
  have := h.accounts.issued x hx account (List.mem_of_find?_eq_some hrow) huser.symm
  omega

/-! ## Every run -/

theorem site_run_inv (h : SiteInv s) (as : List AccountAct) : SiteInv (run accountStep s as) :=
  run_inv_of_step SiteInv accountStep_inv as h

theorem run_outdated (h : SiteInv s) (hout : Outdated s.db.accounts tokenHash)
    (as : List AccountAct) : Outdated (run accountStep s as).db.accounts tokenHash := by
  induction as generalizing s with
  | nil => exact hout
  | cons a as ih => exact ih (accountStep_inv s a h) (accountStep_outdated h hout a)

theorem run_kept (h : SiteInv s) {as : List AccountAct} (hok : Along accountStep CommitOk s as) :
    Kept s (run accountStep s as) := by
  induction as generalizing s with
  | nil => exact Kept.of_db rfl
  | cons a as ih =>
    intro x hx
    obtain ⟨x', hx', htoken, hlive⟩ := accountStep_kept s a hok.1 h x hx
    obtain ⟨x'', hx'', htoken', hlive'⟩ := ih (accountStep_inv s a h) hok.2 x' hx'
    exact ⟨x'', hx'', htoken'.trans htoken, fun hlater => hlive (hlive' hlater)⟩

/-- A session that is not valid after `as` is not valid at any later moment of the run. -/
def NeverRevived (s : AccountSite) (as bs : List AccountAct) : Prop :=
  ∀ x ∈ (run accountStep s as).db.accounts.sessions,
    v4CurrentActorId (run accountStep s as).db (some x.tokenHash) = none →
    v4CurrentActorId (run accountStep s (as ++ bs)).db (some x.tokenHash) = none

/-- The sessions an account has when `tx` commits are not valid at any later moment. -/
def LeftBehind (s : AccountSite) (as bs : List AccountAct) : Prop :=
  ∀ i tx account sessionIds, (run accountStep s as).transactions i = some tx →
    tx.phase = .ended (some account) sessionIds → tx.call.rewrites = true →
    ∀ x ∈ (run accountStep s as).db.accounts.sessions, x.userId = account.id →
      v4CurrentActorId (run accountStep s (as ++ .commit i :: bs)).db (some x.tokenHash) = none

/-- **An administrator, and no stale session.** Whatever the order of the statements: there is
an active administrator all along, and the sessions of an account that is rewritten are behind
it for good. And where every refresh commits in time, no session is ever revived. -/
theorem sessions_stay_stale {db : Db} (hok : AccountsOk db.accounts)
    (hadmin : HasAdmin db.accounts.users) (visits : List SessionVisit) :
    (∀ as, Always accountStep (fun s => HasAdmin s.db.accounts.users) (idleSite db visits) as) ∧
    (∀ as bs, LeftBehind (idleSite db visits) as bs) ∧
    ∀ as bs, Along accountStep CommitOk (idleSite db visits) (as ++ bs) →
      NeverRevived (idleSite db visits) as bs := by
  have hstart := idleSite_inv hok hadmin visits
  refine ⟨fun as => ?_, fun as bs => ?_, fun as bs hcommits => ?_⟩
  · exact always_of_step SiteInv (fun _ h => h.admin) accountStep_inv as hstart
  · intro i tx account sessionIds htx hphase hrewrites x hx huser
    have hinv := site_run_inv hstart as
    have hout := commitCall_outdated hinv htx hphase hrewrites hx huser
    rw [run_append, run_cons]
    have hnext := accountStep_inv _ (.commit i) hinv
    exact (run_outdated hnext hout bs).dead (site_run_inv hnext bs).accounts
  · intro x hx hdead
    have hinv := site_run_inv hstart as
    have hlater := (along_append.mp hcommits).2
    rw [run_append]
    obtain ⟨x', hx', htoken, hlive⟩ := run_kept hinv hlater x hx
    rw [currentActor_none_iff hinv.accounts.tokens hx, ← Bool.not_eq_true] at hdead
    rw [← htoken, currentActor_none_iff (site_run_inv hinv bs).accounts.tokens hx',
      ← Bool.not_eq_true]
    exact fun hrevived => hdead (hlive hrevived)

/-- One administrator, and one session of theirs that has half an hour. -/
def oneSession : Db where
  now := 29 * minute
  accounts :=
    { users := [⟨1, .admin, .active, some "$argon2id$", 1, none⟩]
      sessions := [⟨1, 1, .digest 5, 1, 1, 1, 30 * minute, 30 * minute, none⟩]
      challenges := []
      teams := []
      teamMembers := []
      epochs := ⟨1, 1, 1⟩ }
  library := ⟨[], [], [], [], []⟩
  storage := ⟨[], []⟩
  content := ⟨[], [], [], []⟩
  reprocessing := ⟨[], [], [], [], [], 1, [], []⟩
  chat := ⟨[], [], [], []⟩

theorem sessions_stay_stale_one :
    NeverRevived (idleSite oneSession []) [.tick (2 * minute)] [.begin 1 (.logout (.digest 5))] :=
  (sessions_stay_stale ⟨by decide, by decide, by decide⟩ ⟨_, List.mem_cons_self, rfl, rfl⟩ []).2.2
    _ _ ⟨trivial, trivial, trivial⟩

/-- A refresh that begins a minute before the deadline, and is not committed a minute behind
it. -/
def lateRefresh : List AccountAct :=
  [.begin 1 (.refreshSession (.digest 5) (.digest 6) (59 * minute)), .statement 1, .statement 1,
    .tick (2 * minute)]

/-- By then its session is not valid, and when it commits it is. -/
theorem refresh_revives :
    ¬ ∀ as bs, NeverRevived (idleSite oneSession [⟨1, .digest 6, 0⟩]) as bs := by
  intro h
  have hlater := h lateRefresh [.commit 1] _ List.mem_cons_self (by decide)
  exact absurd hlater (by decide)

end LocalRag.Access
