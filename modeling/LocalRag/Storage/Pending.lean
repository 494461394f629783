import LocalRag.Storage.Keys

/-!
# A pending deletion and the upload it blocks

The preflight and the commit answer `pending_deletion` as long as the outbox has
a row for the key, whatever its state, and the service tells the user to retry
later. That is right while `v4_claim_object_deletion` can still hand the row
out: queued, or leased with a lease that runs out. A row that
`v4_finish_object_deletion` gave up on at its fifth attempt is neither, and no
function takes it out of that state, so the content can never be uploaded again
(`blocked_forever`). `ReleaseGuard` says that no attempt of the run was the last
one; then every answer is temporary (`pendingDeletion_run`).

That the claim's own filter never holds a row back needs no condition: a key
with a row has no document and no running reservation (`Storage.Keys`).
-/

namespace LocalRag.Storage

open LocalRag.Core Access Library

/-- The claim can hand the row out now or later. -/
def CanStillBeClaimed (db : Db) (o : ObjectDeletion) : Prop :=
  (o.status = .queued ∨ (o.status = .leased ∧ ∃ t, o.leaseExpiresAt = some t)) ∧
    ∃ elapsed, isClaimable (step db (.tick elapsed)) o = true

/-- No row was given up, and a leased row has an expiry. -/
def Retryable (deletions : List ObjectDeletion) : Prop :=
  ∀ o ∈ deletions, o.status = .queued ∨ (o.status = .leased ∧ ∃ t, o.leaseExpiresAt = some t)

/-- A failed attempt that holds its lease is not the fifth. -/
def ReleaseGuard (db : Db) : Call → Prop
  | .finishDeletion deletionId leaseToken fencingToken false _ =>
    ∀ o ∈ db.storage.deletions,
      holdsLease db.now deletionId leaseToken fencingToken o = true → o.attempt < 5
  | _ => True

instance (db : Db) (call : Call) : Decidable (ReleaseGuard db call) := by
  unfold ReleaseGuard
  split <;> infer_instance

/-! ## The claim's filter -/

variable {db : Db}

theorem hasActiveReservation_tick {key : ObjectKey}
    (h : ∀ r ∈ db.storage.reservations, r.objectKey = key → r.consumedAt = none →
      r.expiresAt ≤ db.now) (elapsed : Time) :
    hasActiveReservation (step db (.tick elapsed)) key = false := by
  rw [hasActiveReservation, List.any_eq_false]
  intro r hr hactive
  simp only [isActiveReservation, decide_eq_true_eq] at hactive
  have hle : r.expiresAt ≤ db.now + elapsed :=
    Nat.le_trans (h r hr hactive.1 hactive.2.1) (Nat.le_add_right _ _)
  exact Nat.not_lt.mpr hle hactive.2.2

/-- For a row of the outbox the claim's filter is only the due time. -/
theorem KeyInv.isClaimable_tick (h : KeyInv db) {o : ObjectDeletion}
    (ho : o ∈ db.storage.deletions) (elapsed : Time) :
    isClaimable (step db (.tick elapsed)) o = isDue (db.now + elapsed) o := by
  have hdoc : hasDocument (step db (.tick elapsed)) o.objectKey = false := by
    rw [hasDocument, List.any_eq_false]
    intro d hd he
    exact h.noDocument o ho d hd (by simpa using he)
  have hres : hasActiveReservation (step db (.tick elapsed)) o.objectKey = false :=
    hasActiveReservation_tick (h.noReservation o ho) elapsed
  unfold isClaimable
  rw [hdoc, hres]
  simp [step]

theorem canStillBeClaimed (h : KeyInv db) (hretry : Retryable db.storage.deletions)
    {o : ObjectDeletion} (ho : o ∈ db.storage.deletions) : CanStillBeClaimed db o := by
  refine ⟨hretry o ho, ?_⟩
  rcases hretry o ho with hq | ⟨hl, t, ht⟩
  · refine ⟨o.availableAt, ?_⟩
    rw [h.isClaimable_tick ho, isDue]
    exact decide_eq_true (Or.inl ⟨hq, Nat.le_add_left _ _⟩)
  · refine ⟨t, ?_⟩
    rw [h.isClaimable_tick ho, isDue, ht]
    exact decide_eq_true (Or.inr ⟨hl, by simp⟩)

/-! ## One step -/

theorem Retryable.update {deletions : List ObjectDeletion} (h : Retryable deletions)
    {p : ObjectDeletion → Bool} {f : ObjectDeletion → ObjectDeletion}
    (hf : ∀ o ∈ deletions, p o = true →
      (f o).status = .queued ∨ ((f o).status = .leased ∧ ∃ t, (f o).leaseExpiresAt = some t)) :
    Retryable (updateWhere p f deletions) := by
  intro o ho
  obtain ⟨o₀, ho₀, rfl⟩ := mem_updateWhere.mp ho
  split
  next hp => exact hf o₀ ho₀ hp
  next => exact h o₀ ho₀

theorem Retryable.append {deletions rows : List ObjectDeletion} (h : Retryable deletions)
    (hrows : ∀ o ∈ rows, o.status = .queued) : Retryable (deletions ++ rows) := by
  intro o ho
  rcases List.mem_append.mp ho with ho | ho
  · exact h o ho
  · exact Or.inl (hrows o ho)

theorem orphanDeletions_queued {grace : Time} {deletionId : DeletionId} :
    ∀ o ∈ orphanDeletions db grace deletionId, o.status = .queued := by
  intro o ho
  obtain ⟨i, hi, rfl⟩ := List.mem_mapIdx.mp ho
  rfl

variable {db' : Db}

theorem StorageStep.retryable {call : Call} (hs : StorageStep db call db')
    (hguard : ReleaseGuard db call) (h : Retryable db.storage.deletions) :
    Retryable db'.storage.deletions := by
  cases hs with
  | other storage _ _ _ =>
    rw [storage]
    exact h
  | expire => exact h
  | reserve => exact h
  | duplicate => exact h
  | create => exact h
  | delete =>
    refine h.append fun o ho => ?_
    rw [List.mem_singleton.mp ho]
    rfl
  | sweep => exact h.append orphanDeletions_queued
  | claim => exact h.update fun o _ _ => Or.inr ⟨rfl, _, rfl⟩
  | heartbeat =>
    refine h.update fun o _ hp => Or.inr ⟨?_, _, rfl⟩
    simp only [holdsLease, decide_eq_true_eq] at hp
    exact hp.2.1
  | finish => exact fun o ho => h o (mem_deleteWhere.mp ho).1
  | release deletionId leaseToken fencingToken error =>
    refine h.update fun o ho hp => Or.inl ?_
    have hattempt : ¬ 5 ≤ o.attempt := Nat.not_le.mpr (hguard o ho hp)
    rw [releasedDeletion, if_neg hattempt]

theorem retryable_run (h : Installed db) {calls : List Call}
    (hguard : Along step ReleaseGuard db calls) :
    Retryable (run step db calls).storage.deletions := by
  have hinv : TreeInv (run step db calls).library.nodes ∧
      Retryable (run step db calls).storage.deletions := by
    refine run_inv (fun db : Db => TreeInv db.library.nodes ∧ Retryable db.storage.deletions)
      ?_ hguard ?_
    · exact fun db call hcall hdb => ⟨(step_nodes db call).treeInv hdb.1,
        (step_storage hdb.1 call).retryable hcall hdb.2⟩
    · refine ⟨treeInv_run h [], ?_⟩
      rw [h.deletions]
      simp [Retryable]
  exact hinv.2

/-! ## The answers -/

/-- The preflight answers `pending_deletion` only for a key the outbox holds. -/
theorem preflight_pendingDeletion {token : Option HexText} {reservationId : ReservationId}
    {request : UploadRequest}
    (h : v4AdminUploadPreflight db token reservationId request = .ok (db', .pendingDeletion)) :
    isPendingDeletion db request.objectKey = true := by
  unfold v4AdminUploadPreflight at h
  split at h
  · cases h
  simp only [ite_error_eq_ok] at h
  obtain ⟨_, _, _, h⟩ := h
  unfold reserveUpload at h
  by_cases hp : isPendingDeletion (expireReservationsOf db request.objectKey) request.objectKey
  · exact hp
  · rw [if_neg hp] at h
    split at h
    · split at h <;> cases h
    · split at h
      · split at h <;> cases h
      · split at h
        · cases h
        · simp only [ite_error_eq_ok] at h
          cases h.2.2

theorem commit_pendingDeletion {token : Option HexText} {reservationId : ReservationId}
    {ids : CommitIds} {request : UploadRequest}
    (h : v4AdminCommitUpload db token reservationId ids request = .ok (db', .pendingDeletion)) :
    isPendingDeletion db request.objectKey = true := by
  unfold v4AdminCommitUpload at h
  split at h
  · cases h
  rw [ite_error_eq_ok] at h
  obtain ⟨_, h⟩ := h
  split at h
  · cases h
  split at h
  · cases h
  by_cases hp : isPendingDeletion db request.objectKey
  · exact hp
  · rw [if_neg hp] at h
    unfold commitReserved at h
    split at h
    · dsimp only at h
      split at h <;> cases h
    · simp only [ite_error_eq_ok] at h
      obtain ⟨_, _, h⟩ := h
      split at h
      · cases h
      · unfold createUpload at h
        split at h
        · cases h
        split at h
        · cases h
        · simp only [ite_error_eq_ok] at h
          cases h.2

/-- The outbox holds the key, and every row of it (there is one) can still be
claimed. -/
def BlockedForNow (db : Db) (key : ObjectKey) : Prop :=
  (∃ o ∈ db.storage.deletions, o.objectKey = key) ∧
    ∀ o ∈ db.storage.deletions, o.objectKey = key → CanStillBeClaimed db o

theorem blockedForNow (h : KeyInv db) (hretry : Retryable db.storage.deletions) {key : ObjectKey}
    (hp : isPendingDeletion db key = true) : BlockedForNow db key := by
  rw [isPendingDeletion, List.any_eq_true] at hp
  obtain ⟨o, ho, hkey⟩ := hp
  exact ⟨⟨o, ho, by simpa using hkey⟩, fun o' ho' _ => canStillBeClaimed h hretry ho'⟩

/-- In every run without a fifth failed attempt, `pending_deletion` means that a
claim is still to come; and in every run a key of the outbox has no document and
no running reservation, so that the claim's filter is only the due time. -/
theorem pendingDeletion_run {db : Db} (h : Installed db) (calls : List Call) :
    (Along step ReleaseGuard db calls →
      (∀ token reservationId request db',
        v4AdminUploadPreflight (run step db calls) token reservationId request =
          .ok (db', .pendingDeletion) →
        BlockedForNow (run step db calls) request.objectKey) ∧
      (∀ token reservationId ids request db',
        v4AdminCommitUpload (run step db calls) token reservationId ids request =
          .ok (db', .pendingDeletion) →
        BlockedForNow (run step db calls) request.objectKey)) ∧
    ∀ o ∈ (run step db calls).storage.deletions,
      hasDocument (run step db calls) o.objectKey = false ∧
      hasActiveReservation (run step db calls) o.objectKey = false ∧
      isClaimable (run step db calls) o = isDue (run step db calls).now o := by
  have hkeys := keyInv_run h calls
  refine ⟨fun hguard => ?_, fun o ho => ?_⟩
  · have hretry := retryable_run h hguard
    exact ⟨fun _ _ _ _ hr => blockedForNow hkeys hretry (preflight_pendingDeletion hr),
      fun _ _ _ _ _ hr => blockedForNow hkeys hretry (commit_pendingDeletion hr)⟩
  · refine ⟨?_, ?_, hkeys.isClaimable_tick ho 0⟩
    · rw [hasDocument, List.any_eq_false]
      intro d hd he
      exact hkeys.noDocument o ho d hd (by simpa using he)
    · exact hasActiveReservation_tick (hkeys.noReservation o ho) 0

/-- The administrator uploads a document and deletes it again. -/
def uploadDeleteCalls : List Call :=
  [.uploadPreflight (some (.digest 1)) 20 (sampleUpload 7 none "a.pdf"),
    .commitUpload (some (.digest 1)) 20 ⟨30, 31, 32, 33, 34⟩ (sampleUpload 7 none "a.pdf"),
    .deleteDocument (some (.digest 1)) 30 50]

/-- One attempt of a deletion worker whose storage call fails, once the row is
due again. -/
def failedAttempt (attempt : Nat) : List Call :=
  [.tick minute, .claimDeletion "worker" 60 attempt [],
    .finishDeletion 50 attempt attempt false (some "timeout")]

/-- The deletion is attempted `n` times and fails each time. -/
def failingCalls (n : Nat) : List Call :=
  uploadDeleteCalls ++ (List.range n).flatMap fun i => failedAttempt (i + 1)

/-- After four failed attempts the row is queued, and the answer is temporary. -/
theorem pendingDeletion_run_four :
    Along step ReleaseGuard sampleDb (failingCalls 4) ∧
    v4AdminUploadPreflight (run step sampleDb (failingCalls 4)) (some (.digest 1)) 21
        (sampleUpload 7 none "a.pdf") =
      .ok (run step sampleDb (failingCalls 4), .pendingDeletion) ∧
    BlockedForNow (run step sampleDb (failingCalls 4)) (.original 7) := by
  have hguard : Along step ReleaseGuard sampleDb (failingCalls 4) := by decide +kernel
  have hanswer : v4AdminUploadPreflight (run step sampleDb (failingCalls 4)) (some (.digest 1)) 21
      (sampleUpload 7 none "a.pdf") =
        .ok (run step sampleDb (failingCalls 4), .pendingDeletion) := by
    decide +kernel
  exact ⟨hguard, hanswer,
    ((pendingDeletion_run installed_sampleDb _).1 hguard).1 _ _ _ _ hanswer⟩

/-- The content is answered `pending_deletion`, and its outbox row is in a state
no claim takes at any later time. -/
theorem blocked_forever :
    Installed sampleDb ∧
    v4AdminUploadPreflight (run step sampleDb (failingCalls 5)) (some (.digest 1)) 21
        (sampleUpload 7 none "a.pdf") =
      .ok (run step sampleDb (failingCalls 5), .pendingDeletion) ∧
    ∃ o ∈ (run step sampleDb (failingCalls 5)).storage.deletions,
      o.objectKey = .original 7 ∧ o.status = .failed ∧
      ¬ CanStillBeClaimed (run step sampleDb (failingCalls 5)) o := by
  refine ⟨installed_sampleDb, by decide +kernel, ?_⟩
  have hfailed : ∃ o ∈ (run step sampleDb (failingCalls 5)).storage.deletions,
      o.objectKey = .original 7 ∧ o.status = .failed := by
    decide +kernel
  obtain ⟨o, ho, hkey, hstatus⟩ := hfailed
  refine ⟨o, ho, hkey, hstatus, fun hc => ?_⟩
  rcases hc.1 with hq | ⟨hl, _⟩
  · exact absurd (hstatus.symm.trans hq) (by simp)
  · exact absurd (hstatus.symm.trans hl) (by simp)

end LocalRag.Storage
