import LocalRag.Storage.Pending

/-!
# One round of the deletion worker

`ObjectDeletionService.run_once` in `app/services/object_deletions.py`: queue the
orphans of expired reservations, claim a row, delete the object, finish. A round
reports work when it claimed a row.

`v4_queue_expired_upload_orphans` selects the reservations by their outcome:
`mem_orphanKeys` says that the keys it queues are those of abandoned uploads that
have no row yet. `runOnce_ok` is what a round does: it sweeps, and then it claims
nothing because no row is due, or it removes one row that is.

Mirroring notes. `run_once` also recomputes the checksum in the key it claimed,
which every key of the outbox passes, and on a storage failure it releases the
row; rounds here are those whose storage delete succeeds or finds no object.
-/

namespace LocalRag.Storage

open LocalRag.Core Access Library

/-- The settings of a deletion service, within the bounds the functions check. -/
structure DeletionService where
  owner : String
  leaseSeconds : Nat
  graceSeconds : Nat
  lease_valid : 5 ≤ leaseSeconds ∧ leaseSeconds ≤ 3600
  grace_valid : 60 ≤ graceSeconds ∧ graceSeconds ≤ 86400

/-- The grace period as a duration. -/
def DeletionService.grace (service : DeletionService) : Time := service.graceSeconds * second

/-- What happens before a round, and what the round draws: the first id of the
rows it may insert, and its lease token. -/
structure Round where
  before : List Call
  deletionId : DeletionId
  leaseToken : LeaseToken
deriving Repr, DecidableEq

/-- `run_once`, when the storage delete succeeds (or finds no object): the
database it leaves and whether it worked. -/
def runOnce (service : DeletionService) (db : Db) (round : Round) : Except SqlError (Db × Bool) :=
  match v4QueueExpiredUploadOrphans db round.deletionId service.graceSeconds with
  | .error e => .error e
  | .ok (queued, _) =>
    match v4ClaimObjectDeletion queued service.owner service.leaseSeconds round.leaseToken [] with
    | .error e => .error e
    | .ok (claimed, none) => .ok (claimed, false)
    | .ok (claimed, some lease) =>
      match v4FinishObjectDeletion claimed lease.deletionId lease.leaseToken lease.fencingToken
          true none with
      | .error e => .error e
      | .ok (finished, _) => .ok (finished, true)

/-- The round reports no work, so the worker sleeps. -/
def Idle (service : DeletionService) (found : Db) (round : Round) : Prop :=
  ∃ db', runOnce service found round = .ok (db', false)

/-- An open reservation, or one that expired. -/
def mayBeSwept (r : UploadReservation) : Bool :=
  r.consumedAt = none ∨ r.outcome = some .expired

/-- An abandoned upload: a reservation of the key ran out at least `grace` ago,
and the key has no document and no reservation still running. -/
structure Abandoned (grace : Time) (db : Db) (key : ObjectKey) : Prop where
  overdue : ∃ r ∈ db.storage.reservations, r.objectKey = key ∧ mayBeSwept r = true ∧
    r.expiresAt + grace ≤ db.now
  noDocument : ∀ d ∈ db.content.documents, d.objectKey ≠ key
  noReservation : ∀ r ∈ db.storage.reservations, r.objectKey = key → r.consumedAt = none →
    r.expiresAt ≤ db.now

/-! ## What the sweep queues -/

variable {db : Db}

variable {key : ObjectKey}

/-- The reservations the sweep selects are those that may be swept and are overdue. -/
theorem mem_sweptKeys {grace : Time} :
    key ∈ sweptKeys (expireReservations db) grace ↔
      ∃ r ∈ db.storage.reservations, r.objectKey = key ∧ mayBeSwept r = true ∧
        r.expiresAt + grace ≤ db.now := by
  unfold sweptKeys
  rw [List.mem_dedup, List.mem_map]
  refine ⟨fun ⟨r', hr', hkey⟩ => ?_, fun ⟨r, hr, hkey, hswept, hover⟩ => ?_⟩
  · obtain ⟨hmem, hcond⟩ := List.mem_filter.mp hr'
    obtain ⟨r, hr, rfl⟩ := mem_updateWhere.mp hmem
    replace hcond := of_decide_eq_true hcond
    refine ⟨r, hr, ?_⟩
    by_cases hp : r.consumedAt = none ∧ r.expiresAt ≤ db.now
    · rw [if_pos (decide_eq_true hp)] at hcond hkey
      exact ⟨hkey, by simp [mayBeSwept, hp.1], hcond.2⟩
    · rw [if_neg (by simpa using hp)] at hcond hkey
      exact ⟨hkey, by simp [mayBeSwept, hcond.1], hcond.2⟩
  · have hle : r.expiresAt ≤ db.now := Nat.le_trans (Nat.le_add_right _ _) hover
    refine ⟨_, List.mem_filter.mpr ⟨mem_updateWhere.mpr ⟨r, hr, rfl⟩, ?_⟩, ?_⟩
    · by_cases hopen : r.consumedAt = none
      · rw [if_pos (by simp [hopen, hle])]
        exact decide_eq_true ⟨rfl, hover⟩
      · rw [if_neg (by simp [hopen])]
        exact decide_eq_true ⟨by simpa [mayBeSwept, hopen] using hswept, hover⟩
    · split
      · exact hkey
      · exact hkey

theorem hasActiveReservation_expire :
    hasActiveReservation (expireReservations db) key = false ↔
      ∀ r ∈ db.storage.reservations, r.objectKey = key → r.consumedAt = none →
        r.expiresAt ≤ db.now := by
  rw [hasActiveReservation, List.any_eq_false]
  refine ⟨fun h r hr hkey hopen => ?_, fun h r' hr' hactive => ?_⟩
  · by_cases hle : r.expiresAt ≤ db.now
    · exact hle
    · refine absurd ?_ (h _ (mem_updateWhere.mpr ⟨r, hr, rfl⟩))
      rw [if_neg (by simp [hle])]
      exact decide_eq_true ⟨hkey, hopen, Nat.not_le.mp hle⟩
  · obtain ⟨r, hr, rfl⟩ := mem_updateWhere.mp hr'
    split at hactive
    · simp [isActiveReservation, expiredReservation] at hactive
    · simp only [isActiveReservation, decide_eq_true_eq] at hactive
      exact Nat.not_lt.mpr (h r hr hactive.1 hactive.2.1) hactive.2.2

/-- The sweep queues the abandoned uploads that have no row yet. -/
theorem mem_orphanKeys {grace : Time} :
    key ∈ orphanKeys (expireReservations db) grace ↔
      Abandoned grace db key ∧ isPendingDeletion db key = false := by
  have hdoc : hasDocument db key = false ↔ ∀ d ∈ db.content.documents, d.objectKey ≠ key := by
    simp [hasDocument]
  unfold orphanKeys
  rw [List.mem_filter, mem_sweptKeys]
  simp only [decide_eq_true_eq, Bool.not_eq_true]
  rw [hasActiveReservation_expire, show hasDocument (expireReservations db) key =
    hasDocument db key from rfl, hdoc]
  constructor
  · rintro ⟨hover, hnodoc, hnores, hpending⟩
    exact ⟨⟨hover, hnodoc, hnores⟩, hpending⟩
  · rintro ⟨h, hpending⟩
    exact ⟨h.overdue, h.noDocument, h.noReservation, hpending⟩

/-! ## One round -/

/-- The database after the sweep of a round. -/
def sweptDb (service : DeletionService) (db : Db) (round : Round) : Db :=
  { expireReservations db with
    storage.deletions := db.storage.deletions ++
      orphanDeletions (expireReservations db) service.grace round.deletionId }

variable {round : Round}

theorem sweep_ok (service : DeletionService)
    (hids : ∀ o ∈ db.storage.deletions, o.id < round.deletionId) :
    ∃ count, v4QueueExpiredUploadOrphans db round.deletionId service.graceSeconds =
      .ok (sweptDb service db round, count) := by
  have hgrace : ¬ (service.graceSeconds < 60 ∨ 86400 < service.graceSeconds) := by
    have := service.grace_valid
    omega
  have hfree : ¬ ((expireReservations db).storage.deletions.any fun o =>
      (orphanDeletions (expireReservations db) service.grace
        round.deletionId).any fun o' => o.id = o'.id) = true := by
    intro hany
    obtain ⟨o, ho, hany⟩ := List.any_eq_true.mp hany
    obtain ⟨o', ho', heq⟩ := List.any_eq_true.mp hany
    obtain ⟨i, hi, rfl⟩ := List.mem_mapIdx.mp ho'
    have hlt := hids o ho
    rw [show o.id = round.deletionId + i from of_decide_eq_true heq] at hlt
    exact absurd hlt (Nat.not_lt.mpr (Nat.le_add_right _ _))
  unfold v4QueueExpiredUploadOrphans
  rw [if_neg hgrace]
  dsimp only
  rw [show service.graceSeconds * second = service.grace from rfl, if_neg hfree]
  exact ⟨_, rfl⟩

theorem KeyInv.sweptDb (h : KeyInv db) (service : DeletionService)
    (hids : ∀ o ∈ db.storage.deletions, o.id < round.deletionId) :
    KeyInv (sweptDb service db round) := by
  refine h.sweep fun o ho o' ho' heq => ?_
  obtain ⟨i, hi, rfl⟩ := List.mem_mapIdx.mp ho'
  have hlt := hids o ho
  rw [show o.id = round.deletionId + i from heq] at hlt
  exact absurd hlt (Nat.not_lt.mpr (Nat.le_add_right _ _))

variable {leaseToken : LeaseToken} {o : ObjectDeletion}

variable {now : Time}

theorem holdsLease_of_lt {expiry : Time} (hstatus : o.status = .leased)
    (htoken : o.leaseToken = some leaseToken) (hexpiry : o.leaseExpiresAt = some expiry)
    (hlt : now < expiry) : holdsLease now o.id leaseToken o.fencingToken o = true := by
  simp [holdsLease, hstatus, htoken, hexpiry, hlt]

variable {owner : String} {leaseSeconds : Nat}

/-- A lease that was just taken is held. -/
theorem holdsLease_leased (hlease : 0 < leaseSeconds) (o : ObjectDeletion) :
    holdsLease now o.id leaseToken (o.fencingToken + 1)
      (leasedDeletion now owner leaseToken leaseSeconds o) = true := by
  have hexp : now < now + leaseSeconds * second :=
    Nat.lt_add_of_pos_right (Nat.mul_pos hlease (by decide))
  exact holdsLease_of_lt (o := leasedDeletion now owner leaseToken leaseSeconds o)
    rfl rfl rfl hexp

/-- Leasing a row and finishing under that lease removes the row. -/
theorem finish_claimed {deletions : List ObjectDeletion} (hkeyed : Keyed (·.id) deletions)
    (ho : o ∈ deletions) (hlease : 0 < leaseSeconds) :
    deleteWhere (holdsLease now o.id leaseToken (o.fencingToken + 1))
      (updateWhere (fun x => x.id = o.id) (leasedDeletion now owner leaseToken leaseSeconds)
        deletions) = deleteWhere (fun x => x.id = o.id) deletions := by
  have hheld : ∀ x ∈ deletions, holdsLease now o.id leaseToken (o.fencingToken + 1)
      (if (x.id = o.id : Bool) then leasedDeletion now owner leaseToken leaseSeconds x else x) =
        decide (x.id = o.id) := by
    intro x hx
    by_cases hid : x.id = o.id
    · rw [if_pos (by simpa using hid), hkeyed.eq hx ho hid, holdsLease_leased hlease]
      simp
    · rw [if_neg (by simpa using hid)]
      simp [holdsLease, hid]
  unfold deleteWhere updateWhere
  rw [List.filter_map]
  have hfilter : deletions.filter ((fun r => !holdsLease now o.id leaseToken (o.fencingToken + 1) r)
      ∘ fun x => if (x.id = o.id : Bool) then leasedDeletion now owner leaseToken leaseSeconds x
        else x) = deletions.filter fun x => !decide (x.id = o.id) := by
    refine List.filter_congr fun x hx => ?_
    rw [Function.comp, hheld x hx]
  rw [hfilter]
  refine (List.map_congr_left fun x hx => ?_).trans (List.map_id _)
  have hne := (List.mem_filter.mp hx).2
  rw [if_neg (by simpa using hne)]
  rfl

theorem claim_finish_ok (hkeyed : Keyed (·.id) db.storage.deletions)
    (ho : o ∈ db.storage.deletions) (hlease : 0 < leaseSeconds) :
    v4FinishObjectDeletion { db with
        storage.deletions := updateWhere (fun x => x.id = o.id)
          (leasedDeletion db.now owner leaseToken leaseSeconds) db.storage.deletions }
      o.id leaseToken (o.fencingToken + 1) true none =
    .ok ({ db with
      storage.deletions := deleteWhere (fun x => x.id = o.id) db.storage.deletions },
      .deleted) := by
  unfold v4FinishObjectDeletion
  rw [if_neg (by simp)]
  split
  next hnone =>
    have hmem : leasedDeletion db.now owner leaseToken leaseSeconds o ∈
        updateWhere (fun x => x.id = o.id) (leasedDeletion db.now owner leaseToken leaseSeconds)
          db.storage.deletions :=
      mem_updateWhere.mpr ⟨o, ho, by rw [if_pos (by simp)]⟩
    exact absurd (holdsLease_leased hlease o) (List.find?_eq_none.mp hnone _ hmem)
  next =>
    rw [if_pos rfl]
    dsimp only
    rw [finish_claimed hkeyed ho hlease]

/-- A round finds nothing to claim, or removes one claimable row. -/
theorem runOnce_ok (service : DeletionService) (h : KeyInv db)
    (hids : ∀ o ∈ db.storage.deletions, o.id < round.deletionId) :
    (runOnce service db round = .ok (sweptDb service db round, false) ∧
      ∀ o ∈ (sweptDb service db round).storage.deletions,
        isClaimable (sweptDb service db round) o = false) ∨
    ∃ o ∈ (sweptDb service db round).storage.deletions,
      isClaimable (sweptDb service db round) o = true ∧
      runOnce service db round = .ok ({ sweptDb service db round with
        storage.deletions := deleteWhere (fun x => x.id = o.id)
          (sweptDb service db round).storage.deletions }, true) := by
  obtain ⟨count, hsweep⟩ := sweep_ok service hids
  have hkeys := h.sweptDb service hids
  have hvalid : ¬ (service.leaseSeconds < 5 ∨ 3600 < service.leaseSeconds) := by
    have := service.lease_valid
    omega
  unfold runOnce
  rw [hsweep]
  dsimp only
  unfold v4ClaimObjectDeletion
  rw [if_neg hvalid]
  cases hpick : pickFirst dueBefore ((sweptDb service db round).storage.deletions.filter
      fun o => isClaimable (sweptDb service db round) o ∧ o.id ∉ ([] : List DeletionId)) with
  | none =>
    refine Or.inl ⟨rfl, fun o ho => ?_⟩
    rw [pickFirst_eq_none, List.filter_eq_nil_iff] at hpick
    simpa using hpick o ho
  | some o =>
    obtain ⟨hmem, hcond⟩ := List.mem_filter.mp (pickFirst_mem hpick)
    simp only [decide_eq_true_eq] at hcond
    refine Or.inr ⟨o, hmem, hcond.1, ?_⟩
    have hlease : 0 < service.leaseSeconds := by
      have := service.lease_valid
      omega
    dsimp only [deletionLease]
    rw [claim_finish_ok hkeys.deletionIds hmem hlease]

/-- A round leaves documents and nodes alone and closes overdue reservations. -/
theorem round_ok (service : DeletionService) {db : Db} {round : Round} (h : KeyInv db)
    (hids : ∀ o ∈ db.storage.deletions, o.id < round.deletionId) :
    ∃ deletions, commit db (runOnce service db round) =
        { expireReservations db with storage.deletions := deletions } ∧
      KeyInv { expireReservations db with storage.deletions := deletions } := by
  have hkeys := h.sweptDb service hids
  rcases runOnce_ok service h hids with ⟨hrun, _⟩ | ⟨o, _, _, hrun⟩
  · rw [hrun, commit_ok]
    exact ⟨_, rfl, hkeys⟩
  · rw [hrun, commit_ok]
    exact ⟨_, rfl, hkeys.outbox (hkeys.deletionIds.deleteWhere _)
      (hkeys.deletionKeys.deleteWhere _) fun o ho => ⟨o, (mem_deleteWhere.mp ho).1, rfl⟩⟩

/-- In the state a sweep leaves, a row is claimable exactly when it is due. -/
theorem isClaimable_swept (service : DeletionService) (h : KeyInv db)
    (hids : ∀ o ∈ db.storage.deletions, o.id < round.deletionId)
    (ho : o ∈ (sweptDb service db round).storage.deletions) :
    isClaimable (sweptDb service db round) o = isDue db.now o :=
  (h.sweptDb service hids).isClaimable_tick ho 0

/-- A row that is not due survives a round. -/
theorem round_keeps (service : DeletionService) (h : KeyInv db)
    (hids : ∀ o ∈ db.storage.deletions, o.id < round.deletionId) (ho : o ∈ db.storage.deletions)
    (hdue : isDue db.now o = false) :
    o ∈ (commit db (runOnce service db round)).storage.deletions := by
  have hkeys := h.sweptDb service hids
  have hswept : o ∈ (sweptDb service db round).storage.deletions := List.mem_append_left _ ho
  rcases runOnce_ok service h hids with ⟨hrun, _⟩ | ⟨x, hx, hclaim, hrun⟩
  · rw [hrun, commit_ok]
    exact hswept
  · rw [hrun, commit_ok]
    refine mem_deleteWhere.mpr ⟨hswept, ?_⟩
    have hne : o.id ≠ x.id := by
      intro he
      rw [isClaimable_swept service h hids hx, ← hkeys.deletionIds.eq hswept hx he, hdue] at hclaim
      exact absurd hclaim (by simp)
    simpa using hne

/-- An idle round only sweeps. -/
theorem round_idle (service : DeletionService) (h : KeyInv db)
    (hids : ∀ o ∈ db.storage.deletions, o.id < round.deletionId) (hidle : Idle service db round) :
    commit db (runOnce service db round) = sweptDb service db round := by
  obtain ⟨db', hrun'⟩ := hidle
  rcases runOnce_ok service h hids with ⟨hrun, _⟩ | ⟨x, _, _, hrun⟩
  · rw [hrun, commit_ok]
  · rw [hrun] at hrun'
    simp at hrun'

end LocalRag.Storage
