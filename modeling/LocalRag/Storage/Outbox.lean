import LocalRag.Storage.Uploads

/-!
# The deletion outbox

`v4_queue_expired_upload_orphans`, `v4_claim_object_deletion`,
`v4_heartbeat_object_deletion` and `v4_finish_object_deletion` of
`0001_v4_baseline`.

A row of `object_deletions` is queued, leased to a worker, or failed after its
fifth attempt. The claim hands out the oldest row that is due and whose key has
neither a document nor an active reservation; the finish is fenced by the lease
token, the fencing token and the lease's expiry.

Mirroring notes. `FOR UPDATE SKIP LOCKED` passes over the rows other
transactions hold; `locked` names them, and is empty when the claim runs alone.
The orphans one sweep queues get consecutive ids from the one it draws.
-/

namespace LocalRag.Storage

open LocalRag.Core Access Library

/-- Some document references the key. -/
def hasDocument (db : Db) (key : ObjectKey) : Bool :=
  db.content.documents.any fun d => d.objectKey = key

/-- The key has an unconsumed, unexpired reservation. -/
def hasActiveReservation (db : Db) (key : ObjectKey) : Bool :=
  db.storage.reservations.any (isActiveReservation db.now key)

/-! ## The orphan sweep -/

/-- `UPDATE upload_reservations SET … 'expired'` for every overdue reservation. -/
def expireReservations (db : Db) : Db :=
  { db with
    storage.reservations := updateWhere (fun r => r.consumedAt = none ∧ r.expiresAt ≤ db.now)
      (expiredReservation db.now) db.storage.reservations }

/-- The keys of the reservations that expired at least `grace` ago, each once. -/
def sweptKeys (db : Db) (grace : Time) : List ObjectKey :=
  ((db.storage.reservations.filter fun r =>
    r.outcome = some .expired ∧ r.expiresAt + grace ≤ db.now).map (·.objectKey)).dedup

/-- The swept keys the loop inserts a row for. -/
def orphanKeys (db : Db) (grace : Time) : List ObjectKey :=
  (sweptKeys db grace).filter fun key =>
    ¬ hasDocument db key ∧ ¬ hasActiveReservation db key ∧ ¬ isPendingDeletion db key

/-- The rows the sweep inserts. -/
def orphanDeletions (db : Db) (grace : Time) (deletionId : DeletionId) : List ObjectDeletion :=
  (orphanKeys db grace).mapIdx fun i key => newDeletion db.now (deletionId + i) key

/-- `v4_queue_expired_upload_orphans`. -/
def v4QueueExpiredUploadOrphans (db : Db) (deletionId : DeletionId) (graceSeconds : Nat) :
    Except SqlError (Db × Nat) :=
  if graceSeconds < 60 ∨ 86400 < graceSeconds then
    .error ⟨"22023", "invalid upload orphan grace period"⟩
  else
    let expired := expireReservations db
    let rows := orphanDeletions expired (graceSeconds * second) deletionId
    if expired.storage.deletions.any fun o => rows.any fun o' => o.id = o'.id then
      .error (uniqueViolation "object_deletions_pkey")
    else
      .ok ({ expired with storage.deletions := expired.storage.deletions ++ rows }, rows.length)

/-! ## Claim, heartbeat, finish -/

/-- What the claim returns to the worker. -/
structure DeletionLease where
  deletionId : DeletionId
  objectKey : ObjectKey
  leaseToken : LeaseToken
  fencingToken : Nat
  attempt : Nat
deriving Repr, DecidableEq

/-- Queued and due, or leased with an expired lease. -/
def isDue (now : Time) (o : ObjectDeletion) : Bool :=
  (o.status = .queued ∧ o.availableAt ≤ now) ∨
    (o.status = .leased ∧ o.leaseExpiresAt.any fun t => t ≤ now)

/-- The `candidate` filter of the claim. -/
def isClaimable (db : Db) (o : ObjectDeletion) : Bool :=
  isDue db.now o ∧ ¬ hasDocument db o.objectKey ∧ ¬ hasActiveReservation db o.objectKey

/-- `ORDER BY available_at, created_at`. -/
def dueBefore (a b : ObjectDeletion) : Bool :=
  a.availableAt < b.availableAt ∨ (a.availableAt = b.availableAt ∧ a.createdAt < b.createdAt)

/-- The row after a claim. -/
def leasedDeletion (now : Time) (owner : String) (leaseToken : LeaseToken) (leaseSeconds : Nat)
    (o : ObjectDeletion) : ObjectDeletion :=
  { o with
    status := .leased
    attempt := o.attempt + 1
    leaseOwner := some owner
    leaseToken := some leaseToken
    leaseExpiresAt := some (now + leaseSeconds * second)
    fencingToken := o.fencingToken + 1 }

/-- The columns the claim returns, after its update. -/
def deletionLease (leaseToken : LeaseToken) (o : ObjectDeletion) : DeletionLease :=
  { deletionId := o.id
    objectKey := o.objectKey
    leaseToken := leaseToken
    fencingToken := o.fencingToken + 1
    attempt := o.attempt + 1 }

/-- `v4_claim_object_deletion`. -/
def v4ClaimObjectDeletion (db : Db) (owner : String) (leaseSeconds : Nat)
    (leaseToken : LeaseToken) (locked : List DeletionId) :
    Except SqlError (Db × Option DeletionLease) :=
  if leaseSeconds < 5 ∨ 3600 < leaseSeconds then
    .error ⟨"22023", "invalid deletion lease duration"⟩
  else
    match pickFirst dueBefore (db.storage.deletions.filter fun o =>
        isClaimable db o ∧ o.id ∉ locked) with
    | none => .ok (db, none)
    | some o =>
      .ok ({ db with
        storage.deletions := updateWhere (fun x => x.id = o.id)
          (leasedDeletion db.now owner leaseToken leaseSeconds) db.storage.deletions },
        some (deletionLease leaseToken o))

/-- The row is leased under these tokens and the lease has not expired. -/
def holdsLease (now : Time) (deletionId : DeletionId) (leaseToken : LeaseToken)
    (fencingToken : Nat) (o : ObjectDeletion) : Bool :=
  o.id = deletionId ∧ o.status = .leased ∧ o.leaseToken = some leaseToken ∧
    o.fencingToken = fencingToken ∧ o.leaseExpiresAt.any fun t => now < t

/-- `v4_heartbeat_object_deletion`. -/
def v4HeartbeatObjectDeletion (db : Db) (deletionId : DeletionId) (leaseToken : LeaseToken)
    (fencingToken : Nat) (leaseSeconds : Nat) : Except SqlError (Db × Bool) :=
  if 5 ≤ leaseSeconds ∧ leaseSeconds ≤ 3600 ∧
      db.storage.deletions.any (holdsLease db.now deletionId leaseToken fencingToken) then
    .ok ({ db with
      storage.deletions := updateWhere (holdsLease db.now deletionId leaseToken fencingToken)
        (fun o => { o with leaseExpiresAt := some (db.now + leaseSeconds * second) })
        db.storage.deletions }, true)
  else .ok (db, false)

inductive FinishResult where
  | deleted
  | requeued
  | poisoned
  | stale
deriving Repr, DecidableEq

/-- `LEAST(interval '15 minutes', interval '5 seconds' * power(2, attempt - 1))`. -/
def retryDelay (attempt : Nat) : Time := min (15 * minute) (5 * second * 2 ^ (attempt - 1))

/-- The row after a failed attempt: queued again, or failed at the fifth. -/
def releasedDeletion (now : Time) (error : Option String) (o : ObjectDeletion) : ObjectDeletion :=
  { o with
    status := if 5 ≤ o.attempt then .failed else .queued
    availableAt := if 5 ≤ o.attempt then o.availableAt else now + retryDelay o.attempt
    leaseOwner := none
    leaseToken := none
    leaseExpiresAt := none
    lastError := error.map fun e => String.ofList (e.toList.take 2000) }

/-- `v4_finish_object_deletion`. -/
def v4FinishObjectDeletion (db : Db) (deletionId : DeletionId) (leaseToken : LeaseToken)
    (fencingToken : Nat) (success : Bool) (error : Option String) :
    Except SqlError (Db × FinishResult) :=
  if ¬ success ∧ ¬ error.any (fun e => (btrim e).length ≠ 0) then
    .error ⟨"22023", "invalid deletion completion"⟩
  else
    match db.storage.deletions.find? (holdsLease db.now deletionId leaseToken fencingToken) with
    | none => .ok (db, .stale)
    | some o =>
      if success then
        .ok ({ db with
          storage.deletions := deleteWhere (holdsLease db.now deletionId leaseToken fencingToken)
            db.storage.deletions }, .deleted)
      else
        .ok ({ db with
          storage.deletions := updateWhere
            (holdsLease db.now deletionId leaseToken fencingToken)
            (releasedDeletion db.now error) db.storage.deletions },
          if 5 ≤ o.attempt then .poisoned else .requeued)

/-! ## What each call can do -/

variable {deletionId : DeletionId}

/-- The sweep marks overdue reservations and appends the orphans' rows. -/
theorem v4QueueExpiredUploadOrphans_ok {db db' : Db} {graceSeconds count : Nat}
    (h : v4QueueExpiredUploadOrphans db deletionId graceSeconds = .ok (db', count)) :
    60 ≤ graceSeconds ∧ graceSeconds ≤ 86400 ∧
    (∀ o ∈ db.storage.deletions,
      ∀ o' ∈ orphanDeletions (expireReservations db) (graceSeconds * second) deletionId,
        o.id ≠ o'.id) ∧
    count = (orphanDeletions (expireReservations db) (graceSeconds * second) deletionId).length ∧
    db' = { expireReservations db with
      storage.deletions := db.storage.deletions ++
        orphanDeletions (expireReservations db) (graceSeconds * second) deletionId } := by
  unfold v4QueueExpiredUploadOrphans at h
  simp only [ite_error_eq_ok, not_or, Nat.not_lt] at h
  obtain ⟨⟨hlo, hhi⟩, hids, h⟩ := h
  refine ⟨hlo, hhi, ?_, (congrArg Prod.snd (Except.ok.inj h)).symm,
    (left_of_ok h).symm⟩
  intro o ho o' ho' he
  refine hids ?_
  rw [List.any_eq_true]
  exact ⟨o, ho, List.any_eq_true.mpr ⟨o', ho', by simpa using he⟩⟩

variable {leaseToken : LeaseToken}

/-- The claim finds nothing, or leases one claimable row. -/
theorem v4ClaimObjectDeletion_ok {db db' : Db} {owner : String} {leaseSeconds : Nat}
    {locked : List DeletionId} {r : Option DeletionLease}
    (h : v4ClaimObjectDeletion db owner leaseSeconds leaseToken locked = .ok (db', r)) :
    (db' = db ∧ r = none) ∨ ∃ o ∈ db.storage.deletions, isClaimable db o = true ∧
      o.id ∉ locked ∧ r = some (deletionLease leaseToken o) ∧
      db' = { db with
        storage.deletions := updateWhere (fun x => x.id = o.id)
          (leasedDeletion db.now owner leaseToken leaseSeconds) db.storage.deletions } := by
  unfold v4ClaimObjectDeletion at h
  rw [ite_error_eq_ok] at h
  obtain ⟨_, h⟩ := h
  split at h
  · exact Or.inl ⟨(left_of_ok h).symm,
      (congrArg Prod.snd (Except.ok.inj h)).symm⟩
  next o hpick =>
    obtain ⟨hmem, hcond⟩ := List.mem_filter.mp (pickFirst_mem hpick)
    simp only [decide_eq_true_eq] at hcond
    exact Or.inr ⟨o, hmem, hcond.1, hcond.2, (congrArg Prod.snd (Except.ok.inj h)).symm,
      (left_of_ok h).symm⟩

/-- The heartbeat moves the expiry of the lease it holds, or does nothing. -/
theorem v4HeartbeatObjectDeletion_ok {db db' : Db} {fencingToken leaseSeconds : Nat} {r : Bool}
    (h : v4HeartbeatObjectDeletion db deletionId leaseToken fencingToken leaseSeconds =
      .ok (db', r)) :
    db' = db ∨ db' = { db with
      storage.deletions := updateWhere (holdsLease db.now deletionId leaseToken fencingToken)
        (fun o => { o with leaseExpiresAt := some (db.now + leaseSeconds * second) })
        db.storage.deletions } := by
  unfold v4HeartbeatObjectDeletion at h
  split at h
  · exact Or.inr (left_of_ok h).symm
  · exact Or.inl (left_of_ok h).symm

/-- The finish is stale, or removes or releases the row whose lease it holds. -/
theorem v4FinishObjectDeletion_ok {db db' : Db} {fencingToken : Nat} {success : Bool}
    {error : Option String} {r : FinishResult}
    (h : v4FinishObjectDeletion db deletionId leaseToken fencingToken success error =
      .ok (db', r)) :
    db' = db ∨
    (success = true ∧ db' = { db with
      storage.deletions := deleteWhere (holdsLease db.now deletionId leaseToken fencingToken)
        db.storage.deletions }) ∨
    (success = false ∧ db' = { db with
      storage.deletions := updateWhere (holdsLease db.now deletionId leaseToken fencingToken)
        (releasedDeletion db.now error) db.storage.deletions }) := by
  unfold v4FinishObjectDeletion at h
  rw [ite_error_eq_ok] at h
  obtain ⟨_, h⟩ := h
  split at h
  · exact Or.inl (left_of_ok h).symm
  · split at h
    next hs => exact Or.inr (Or.inl ⟨hs, (left_of_ok h).symm⟩)
    next hs =>
      exact Or.inr (Or.inr ⟨by simpa using hs, (left_of_ok h).symm⟩)

end LocalRag.Storage
