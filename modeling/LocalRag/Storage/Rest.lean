import Mathlib.Order.OrderIsoNat
import LocalRag.Storage.Sweep

/-!
# Whether the deletion worker comes to rest

The loop of `ObjectDeletionWorker._run` in `app/services/object_deletions.py` runs
one round after another and sleeps only after one that reported no work.

Nothing changes the outcome of an expired reservation once its object is deleted.
So an abandoned upload is queued again in the round after its deletion was
finished, for ever. `rests_iff` says exactly when the loop comes to rest: no round
finds an abandoned upload, and no row was given up before.

Between two rounds time passes and other clients call what they like, as long as
no reservation is made. For the proof of rest `work` weighs open reservations,
documents and rows so that neither a client's call nor a round raises it; it is
constant from some round on, and from there a row that is left would become due
and be removed.
-/

namespace LocalRag.Storage

open LocalRag.Core Access Library

/-- The database after `n` rounds. -/
def dbAfter (service : DeletionService) (db : Db) (rounds : Nat → Round) : Nat → Db
  | 0 => db
  | n + 1 =>
    let found := run step (dbAfter service db rounds n) (rounds n).before
    commit found (runOnce service found (rounds n))

/-- The database round `n` finds. -/
def foundAt (service : DeletionService) (db : Db) (rounds : Nat → Round) (n : Nat) : Db :=
  run step (dbAfter service db rounds n) (rounds n).before

/-- From some round on the outbox is empty and every round is idle. -/
def Rests (service : DeletionService) (db : Db) (rounds : Nat → Round) : Prop :=
  ∃ N, ∀ n, N ≤ n → (dbAfter service db rounds n).storage.deletions = [] ∧
    Idle service (foundAt service db rounds n) (rounds n)

/-- The keys the sweep of round `n` queues. -/
def queuedAt (service : DeletionService) (db : Db) (rounds : Nat → Round) (n : Nat) :
    List ObjectKey :=
  orphanKeys (expireReservations (foundAt service db rounds n)) service.grace

/-- No key is queued by two rounds. -/
def QueuedOnce (service : DeletionService) (db : Db) (rounds : Nat → Round) : Prop :=
  ∀ key m n, key ∈ queuedAt service db rounds m → key ∈ queuedAt service db rounds n → m = n

/-- A call other clients make between two rounds. The worker's own calls are the
round's, and a deletion under an older lease ends well if it ends. -/
def isClientCall : Call → Bool
  | .queueOrphans .. => false
  | .claimDeletion .. => false
  | .heartbeatDeletion .. => false
  | .finishDeletion _ _ _ success _ => success
  | _ => true

/-- A client's call that makes no reservation. -/
def Quiet (db : Db) (call : Call) : Prop :=
  isClientCall call = true ∧
    (step db call).storage.reservations.map (·.id) = db.storage.reservations.map (·.id)

instance (db : Db) (call : Call) : Decidable (Quiet db call) := by
  unfold Quiet
  infer_instance

/-- No reservation is made, the clock passes every time, and no round draws an id
of the outbox. -/
structure Schedule (service : DeletionService) (db : Db) (rounds : Nat → Round) : Prop where
  quiet : ∀ n, Along step Quiet (dbAfter service db rounds n) (rounds n).before
  time : ∀ T N, ∃ n, N ≤ n ∧ T ≤ (foundAt service db rounds n).now
  ids : ∀ n, ∀ o ∈ (foundAt service db rounds n).storage.deletions, o.id < (rounds n).deletionId

/-! ## What is left to do -/

/-- What is left to do: a row to delete, a document that may become a row, an open
reservation that may become a document. -/
def work (db : Db) : Nat :=
  3 * db.storage.reservations.countP (fun r => r.consumedAt = none) +
    2 * db.content.documents.length + db.storage.deletions.length

/-- The rows stay as they are and there is no more to do than before, or there is
less to do. -/
def Progress (db db' : Db) : Prop :=
  (db'.storage.deletions = db.storage.deletions ∧ work db' ≤ work db) ∨ work db' < work db

theorem Progress.refl (db : Db) : Progress db db := Or.inl ⟨rfl, Nat.le_refl _⟩

variable {db' : Db}

theorem Progress.work_le {db : Db} (h : Progress db db') : work db' ≤ work db := by
  rcases h with ⟨_, hle⟩ | hlt
  · exact hle
  · exact Nat.le_of_lt hlt

theorem Progress.trans {db₁ db₂ db₃ : Db} (h : Progress db₁ db₂) (h' : Progress db₂ db₃) :
    Progress db₁ db₃ := by
  have hle := h.work_le
  have hle' := h'.work_le
  rcases h with ⟨heq, _⟩ | hlt
  · rcases h' with ⟨heq', _⟩ | hlt'
    · exact Or.inl ⟨heq'.trans heq, Nat.le_trans hle' hle⟩
    · exact Or.inr (Nat.lt_of_lt_of_le hlt' hle)
  · exact Or.inr (Nat.lt_of_le_of_lt hle' hlt)

variable {t : List UploadReservation} {p : UploadReservation → Bool}

theorem countP_close_le {f : UploadReservation → UploadReservation}
    (hf : ∀ r, (f r).consumedAt ≠ none) :
    (updateWhere p f t).countP (fun r => r.consumedAt = none) ≤
      t.countP fun r => r.consumedAt = none := by
  rw [updateWhere, List.countP_map]
  refine List.countP_mono_left fun r _ hr => ?_
  by_cases hp : p r = true
  · rw [Function.comp, if_pos hp] at hr
    exact absurd (of_decide_eq_true hr) (hf r)
  · rwa [Function.comp, if_neg hp] at hr

variable {r : UploadReservation}

/-- Closing an open reservation leaves fewer. -/
theorem countP_close_lt {f : UploadReservation → UploadReservation}
    (hf : ∀ r, (f r).consumedAt ≠ none) (hr : r ∈ t) (hp : p r = true)
    (hopen : r.consumedAt = none) :
    (updateWhere p f t).countP (fun r => r.consumedAt = none) <
      t.countP fun r => r.consumedAt = none := by
  induction t with
  | nil => exact absurd hr (by simp)
  | cons x t ih =>
    have hcons : updateWhere p f (x :: t) =
        (if p x = true then f x else x) :: updateWhere p f t := rfl
    rw [hcons, List.countP_cons, List.countP_cons]
    rcases List.mem_cons.mp hr with rfl | hmem
    · have hle := countP_close_le (t := t) (p := p) hf
      rw [if_pos hp, if_neg (by simpa using hf r), if_pos (by simpa using hopen)]
      omega
    · have hlt := ih hmem
      by_cases hpx : p x = true
      · rw [if_pos hpx, if_neg (by simpa using hf x)]
        omega
      · rw [if_neg hpx]
        omega

/-- A commit spends an open reservation. -/
theorem CommittedUnder.spends {db : Db} {actor : UserId} {reservationId : ReservationId}
    {request : UploadRequest} {reservation : UploadReservation}
    (under : CommittedUnder db actor reservationId request reservation)
    (outcome : ReservationOutcome) :
    (consumeReservation db reservationId outcome).storage.reservations.countP
        (fun r => r.consumedAt = none) <
      db.storage.reservations.countP fun r => r.consumedAt = none := by
  have hlive := under.live
  simp only [reservationMatches, decide_eq_true_eq] at hlive
  exact countP_close_lt (by simp) under.mem (decide_eq_true under.id) hlive.2.1

/-- A quiet call only moves work on. -/
theorem StorageStep.progress {db db' : Db} {call : Call} (hs : StorageStep db call db')
    (hclient : isClientCall call = true)
    (hnone : db'.storage.reservations.map (·.id) = db.storage.reservations.map (·.id)) :
    Progress db db' := by
  cases hs with
  | other storage content _ _ =>
    refine Or.inl ⟨by rw [storage], ?_⟩
    unfold work
    rw [storage, content]
  | expire request =>
    refine Or.inl ⟨rfl, ?_⟩
    have hle := countP_close_le (t := db.storage.reservations)
      (p := fun r => r.objectKey = request.objectKey ∧ r.consumedAt = none ∧ r.expiresAt ≤ db.now)
      (f := expiredReservation db.now) (by simp [expiredReservation])
    simp only [work, expireReservationsOf]
    omega
  | reserve actor fresh =>
    -- a reservation was made
    have hlen := congrArg List.length hnone
    simp [expireReservationsOf] at hlen
  | @duplicate _ actor reservationId ids request reservation under =>
    refine Or.inr ?_
    have hlt := under.spends .duplicate
    have hdocs : (consumeReservation db reservationId .duplicate).content = db.content := rfl
    have hrows : (consumeReservation db reservationId .duplicate).storage.deletions =
      db.storage.deletions := rfl
    unfold work
    rw [hdocs, hrows]
    omega
  | @create _ actor reservationId ids request reservation content nodes under new document node =>
    refine Or.inr ?_
    have hlt := under.spends .created
    have hstorage : (createdDb db actor reservationId ids request content nodes).storage =
      (consumeReservation db reservationId .created).storage := rfl
    have hrows : (consumeReservation db reservationId .created).storage.deletions =
      db.storage.deletions := rfl
    have hcontent : (createdDb db actor reservationId ids request content nodes).content =
      content := rfl
    have hdocs : content.documents.length = db.content.documents.length + 1 := by
      rw [(insertDocument_ok document).1]
      simp
    unfold work
    rw [hstorage, hrows, hcontent, hdocs]
    omega
  | @delete _ document node deletionId mem nodeMem at_ freshId free =>
    refine Or.inr ?_
    have hlt : (deleteWhere (fun x => x.id = document.id) db.content.documents).length <
        db.content.documents.length := by
      rw [deleteWhere, List.length_filter_lt_length_iff_exists]
      exact ⟨document, mem, by simp⟩
    have hdocs : (deletedDb db document node deletionId).content.documents =
      deleteWhere (fun x => x.id = document.id) db.content.documents := rfl
    have hres : (deletedDb db document node deletionId).storage.reservations =
      db.storage.reservations := rfl
    have hrows : (deletedDb db document node deletionId).storage.deletions.length =
      db.storage.deletions.length + 1 := by simp [deletedDb, v4RebuildEffectiveDocumentAccess]
    unfold work
    rw [hdocs, hres, hrows]
    omega
  | finish deletionId leaseToken fencingToken =>
    have hsub : (deleteWhere (holdsLease db.now deletionId leaseToken fencingToken)
        db.storage.deletions).Sublist db.storage.deletions := List.filter_sublist
    by_cases heq : deleteWhere (holdsLease db.now deletionId leaseToken fencingToken)
        db.storage.deletions = db.storage.deletions
    · exact Or.inl ⟨heq, by simp only [work, heq]; exact Nat.le_refl _⟩
    · refine Or.inr ?_
      have hlt := lt_of_le_of_ne hsub.length_le fun hlen => heq (hsub.eq_of_length hlen)
      simp only [work]
      omega
  | sweep => exact absurd hclient (by simp [isClientCall])
  | claim => exact absurd hclient (by simp [isClientCall])
  | heartbeat => exact absurd hclient (by simp [isClientCall])
  | release => exact absurd hclient (by simp [isClientCall])

theorem work_sweptDb_le (service : DeletionService) {db : Db} {round : Round}
    (hno : ∀ key, ¬ Abandoned service.grace db key) :
    (sweptDb service db round).storage.deletions = db.storage.deletions ∧
      work (sweptDb service db round) ≤ work db := by
  have hkeys : orphanKeys (expireReservations db) service.grace = [] :=
    List.eq_nil_iff_forall_not_mem.mpr fun key hkey => hno key (mem_orphanKeys.mp hkey).1
  have hrows : (sweptDb service db round).storage.deletions = db.storage.deletions := by
    simp [sweptDb, orphanDeletions, hkeys]
  have hle := countP_close_le (t := db.storage.reservations)
    (p := fun r => r.consumedAt = none ∧ r.expiresAt ≤ db.now)
    (f := expiredReservation db.now) (by simp [expiredReservation])
  refine ⟨hrows, ?_⟩
  unfold work
  rw [hrows]
  simp only [sweptDb, expireReservations]
  omega

variable {round : Round}

/-- A round that finds no abandoned upload: the rows stay, none is due and the
round is idle, or there is less to do. -/
theorem round_progress (service : DeletionService) {db : Db} (h : KeyInv db)
    (hids : ∀ o ∈ db.storage.deletions, o.id < round.deletionId)
    (hno : ∀ key, ¬ Abandoned service.grace db key) :
    ((commit db (runOnce service db round)).storage.deletions = db.storage.deletions ∧
        work (commit db (runOnce service db round)) ≤ work db ∧ Idle service db round ∧
        ∀ o ∈ db.storage.deletions, isDue db.now o = false) ∨
      work (commit db (runOnce service db round)) < work db := by
  obtain ⟨hrows, hle⟩ := @work_sweptDb_le service db round hno
  have hkeys := h.sweptDb service hids
  rcases runOnce_ok service h hids with ⟨hrun, hnone⟩ | ⟨o, ho, _, hrun⟩
  · rw [hrun, commit_ok]
    refine Or.inl ⟨hrows, hle, ⟨_, hrun⟩, fun o ho => ?_⟩
    have hmem : o ∈ (sweptDb service db round).storage.deletions := by rwa [hrows]
    rw [← isClaimable_swept service h hids hmem]
    exact hnone o hmem
  · rw [hrun, commit_ok]
    refine Or.inr ?_
    have hlen := hkeys.deletionIds.length_deleteWhere ho
    unfold work at hle ⊢
    dsimp only
    omega

/-- A round gives no row up. -/
theorem round_retryable (service : DeletionService) {db : Db} (h : KeyInv db)
    (hids : ∀ o ∈ db.storage.deletions, o.id < round.deletionId)
    (hretry : Retryable db.storage.deletions) :
    Retryable (commit db (runOnce service db round)).storage.deletions := by
  have hswept : Retryable (sweptDb service db round).storage.deletions :=
    hretry.append orphanDeletions_queued
  rcases runOnce_ok service h hids with ⟨hrun, _⟩ | ⟨o, _, _, hrun⟩
  · rw [hrun, commit_ok]
    exact hswept
  · rw [hrun, commit_ok]
    exact fun x hx => hswept x (mem_deleteWhere.mp hx).1

/-! ## An abandoned upload stays abandoned -/

variable {grace : Time} {key : ObjectKey}

/-- Nothing that closes reservations, spares the overdue ones and adds no document
of the key helps. -/
theorem Abandoned.mono {db : Db} (h : Abandoned grace db key)
    (hdocs : ∀ d ∈ db'.content.documents, d.objectKey ≠ key)
    (hc : Closes db.storage.reservations db'.storage.reservations)
    (hkept : ∀ r ∈ db.storage.reservations, mayBeSwept r = true → r.expiresAt ≤ db.now →
      ∃ r' ∈ db'.storage.reservations, r'.objectKey = r.objectKey ∧ r'.expiresAt = r.expiresAt ∧
        mayBeSwept r' = true) (hnow : db.now ≤ db'.now) : Abandoned grace db' key where
  overdue := by
    obtain ⟨r, hr, hkey, hswept, hover⟩ := h.overdue
    obtain ⟨r', hr', hkey', hexp', hswept'⟩ :=
      hkept r hr hswept (Nat.le_trans (Nat.le_add_right _ _) hover)
    refine ⟨r', hr', hkey'.trans hkey, hswept', ?_⟩
    rw [hexp']
    exact Nat.le_trans hover hnow
  noDocument := hdocs
  noReservation := by
    intro r' hr' hkey hopen
    obtain ⟨r, hr, _, hrkey, hexp, hropen⟩ := hc.source r' hr'
    rw [← hexp]
    exact Nat.le_trans (h.noReservation r hr (hrkey.trans hkey) (hropen hopen)) hnow

theorem closes_refl (t : List UploadReservation) : Closes t t where
  ids := rfl
  kept := fun r hr => ⟨r, hr, rfl, rfl⟩
  source := fun r hr => ⟨r, hr, rfl, rfl, rfl, id⟩

/-- Marking reservations as expired keeps them sweepable. -/
theorem kept_expired {now : Time} (hr : r ∈ t) (hswept : mayBeSwept r = true) :
    ∃ r' ∈ updateWhere p (expiredReservation now) t, r'.objectKey = r.objectKey ∧
      r'.expiresAt = r.expiresAt ∧ mayBeSwept r' = true := by
  refine ⟨_, mem_updateWhere.mpr ⟨r, hr, rfl⟩, ?_⟩
  split
  · exact ⟨rfl, rfl, by simp [mayBeSwept, expiredReservation]⟩
  · exact ⟨rfl, rfl, hswept⟩

/-- A commit does not spend an overdue reservation. -/
theorem CommittedUnder.kept {db : Db} {actor : UserId} {reservationId : ReservationId}
    {request : UploadRequest} {reservation : UploadReservation}
    (under : CommittedUnder db actor reservationId request reservation) (hkeys : KeyInv db)
    (outcome : ReservationOutcome) (hr : r ∈ db.storage.reservations)
    (hswept : mayBeSwept r = true) (hover : r.expiresAt ≤ db.now) :
    ∃ r' ∈ (consumeReservation db reservationId outcome).storage.reservations,
      r'.objectKey = r.objectKey ∧ r'.expiresAt = r.expiresAt ∧ mayBeSwept r' = true := by
  have hlive := under.live
  simp only [reservationMatches, decide_eq_true_eq] at hlive
  have hne : r.id ≠ reservationId := by
    intro he
    rw [hkeys.reservationIds.eq hr under.mem (he.trans under.id.symm)] at hover
    exact Nat.not_lt.mpr hover hlive.2.2.1
  refine ⟨r, mem_updateWhere.mpr ⟨r, hr, ?_⟩, rfl, rfl, hswept⟩
  rw [if_neg (by simpa using hne)]

variable {call : Call}

/-- No quiet call takes an abandoned upload up again. -/
theorem StorageStep.abandoned {db : Db} (hs : StorageStep db call db')
    (hclient : isClientCall call = true)
    (hnone : db'.storage.reservations.map (·.id) = db.storage.reservations.map (·.id))
    (hkeys : KeyInv db) (h : Abandoned grace db key) : Abandoned grace db' key := by
  cases hs with
  | other storage content _ now =>
    refine h.mono ?_ ?_ ?_ now
    · rw [content]
      exact h.noDocument
    · rw [storage]
      exact closes_refl _
    · rw [storage]
      exact fun r hr hswept _ => ⟨r, hr, rfl, rfl, hswept⟩
  | expire request =>
    exact h.mono h.noDocument (closes_expireReservationsOf db _)
      (fun r hr hswept _ => kept_expired hr hswept) (Nat.le_refl _)
  | reserve actor fresh =>
    have hlen := congrArg List.length hnone
    simp [expireReservationsOf] at hlen
  | duplicate under =>
    exact h.mono h.noDocument (closes_consumeReservation db _ _)
      (fun r hr => under.kept hkeys _ hr) (Nat.le_refl _)
  | create under new document node =>
    obtain ⟨rfl, _⟩ := insertDocument_ok document
    refine h.mono ?_ (closes_consumeReservation db _ _) (fun r hr => under.kept hkeys .created hr)
      (Nat.le_refl _)
    intro d hd
    rcases List.mem_append.mp hd with hd | hd
    · exact h.noDocument d hd
    · -- the new document's reservation is still running, so its key is another one
      have hlive := under.live
      simp only [reservationMatches, decide_eq_true_eq] at hlive
      rw [List.mem_singleton.mp hd]
      intro hkey
      have hle := h.noReservation _ under.mem (hlive.2.2.2.2.1.trans hkey) hlive.2.1
      exact Nat.not_lt.mpr hle hlive.2.2.1
  | delete =>
    exact h.mono (fun d hd => h.noDocument d (mem_deleteWhere.mp hd).1) (closes_refl _)
      (fun r hr hswept _ => ⟨r, hr, rfl, rfl, hswept⟩) (Nat.le_refl _)
  | finish =>
    exact h.mono h.noDocument (closes_refl _) (fun r hr hswept _ => ⟨r, hr, rfl, rfl, hswept⟩)
      (Nat.le_refl _)
  | sweep => exact absurd hclient (by simp [isClientCall])
  | claim => exact absurd hclient (by simp [isClientCall])
  | heartbeat => exact absurd hclient (by simp [isClientCall])
  | release => exact absurd hclient (by simp [isClientCall])

theorem round_abandoned (service : DeletionService) {db : Db} (h : KeyInv db)
    (hids : ∀ o ∈ db.storage.deletions, o.id < round.deletionId)
    (habandoned : Abandoned grace db key) :
    Abandoned grace (commit db (runOnce service db round)) key := by
  obtain ⟨deletions, heq, _⟩ := round_ok service h hids
  rw [heq]
  exact habandoned.mono habandoned.noDocument (closes_expireReservations db)
    (fun r hr hswept _ => kept_expired hr hswept) (Nat.le_refl _)

/-- A row that was given up stays. -/
theorem StorageStep.failed_mem {db : Db} (hs : StorageStep db call db')
    (hclient : isClientCall call = true) {o : ObjectDeletion} (ho : o ∈ db.storage.deletions)
    (hfailed : o.status = .failed) : o ∈ db'.storage.deletions := by
  cases hs with
  | other storage _ _ _ =>
    rw [storage]
    exact ho
  | expire => exact ho
  | reserve => exact ho
  | duplicate => exact ho
  | create => exact ho
  | delete => exact List.mem_append_left _ ho
  | finish => exact mem_deleteWhere.mpr ⟨ho, by simp [holdsLease, hfailed]⟩
  | sweep => exact absurd hclient (by simp [isClientCall])
  | claim => exact absurd hclient (by simp [isClientCall])
  | heartbeat => exact absurd hclient (by simp [isClientCall])
  | release => exact absurd hclient (by simp [isClientCall])

/-! ## All rounds -/

/-- What the storage tables always satisfy. -/
structure OutboxInv (db : Db) : Prop where
  tree : TreeInv db.library.nodes
  keys : KeyInv db

theorem outboxInv_step {db : Db} (call : Call) (h : OutboxInv db) : OutboxInv (step db call) :=
  ⟨(step_nodes db call).treeInv h.tree, keyInv_step call h.tree h.keys⟩

variable {deletions : List ObjectDeletion}

/-- If time alone makes every row due, then from some time on every row is. -/
theorem exists_due (h : Retryable deletions) :
    ∃ T, ∀ o ∈ deletions, ∀ t, T ≤ t → isDue t o = true := by
  induction deletions with
  | nil => exact ⟨0, by simp⟩
  | cons o deletions ih =>
    obtain ⟨T, hT⟩ := ih fun x hx => h x (List.mem_cons_of_mem _ hx)
    have hone : ∃ T, ∀ t, T ≤ t → isDue t o = true := by
      rcases h o (List.mem_cons_self ..) with hq | ⟨hl, e, he⟩
      · exact ⟨o.availableAt, fun t ht => decide_eq_true (Or.inl ⟨hq, ht⟩)⟩
      · refine ⟨e, fun t ht => decide_eq_true (Or.inr ⟨hl, ?_⟩)⟩
        rw [he, Option.any_some]
        exact decide_eq_true ht
    obtain ⟨T', hT'⟩ := hone
    refine ⟨max T T', fun x hx t ht => ?_⟩
    rcases List.mem_cons.mp hx with rfl | hx
    · exact hT' t (Nat.le_trans (Nat.le_max_right _ _) ht)
    · exact hT x hx t (Nat.le_trans (Nat.le_max_left _ _) ht)

section Rounds

variable {service : DeletionService} {db : Db} {rounds : Nat → Round}

theorem dbAfter_succ (n : Nat) : dbAfter service db rounds (n + 1) =
    commit (foundAt service db rounds n)
      (runOnce service (foundAt service db rounds n) (rounds n)) := rfl

/-- A property that quiet calls and rounds keep holds before and in every round. -/
theorem rounds_inv (Inv : Db → Prop)
    (hstep : ∀ db call, Quiet db call → OutboxInv db → Inv db → Inv (step db call))
    (hround : ∀ db round, (∀ o ∈ db.storage.deletions, o.id < round.deletionId) → KeyInv db →
      Inv db → Inv (commit db (runOnce service db round)))
    (hsched : Schedule service db rounds) {m : Nat}
    (hinv : OutboxInv (dbAfter service db rounds m)) (hm : Inv (dbAfter service db rounds m)) :
    ∀ n, m ≤ n → (OutboxInv (dbAfter service db rounds n) ∧ Inv (dbAfter service db rounds n)) ∧
      (OutboxInv (foundAt service db rounds n) ∧ Inv (foundAt service db rounds n)) := by
  have hfound : ∀ n, OutboxInv (dbAfter service db rounds n) ∧ Inv (dbAfter service db rounds n) →
      OutboxInv (foundAt service db rounds n) ∧ Inv (foundAt service db rounds n) := by
    intro n hn
    exact run_inv (fun db => OutboxInv db ∧ Inv db)
      (fun db call hq hdb => ⟨outboxInv_step call hdb.1, hstep db call hq hdb.1 hdb.2⟩)
      (hsched.quiet n) hn
  intro n hmn
  induction n, hmn using Nat.le_induction with
  | base => exact ⟨⟨hinv, hm⟩, hfound m ⟨hinv, hm⟩⟩
  | succ n _ ih =>
    obtain ⟨hout, hfoundInv⟩ := ih.2
    obtain ⟨deletions, heq, hkeys⟩ := round_ok service hout.keys (hsched.ids n)
    have hnext : OutboxInv (dbAfter service db rounds (n + 1)) := by
      rw [dbAfter_succ, heq]
      exact ⟨hout.tree, hkeys⟩
    have hinv' : Inv (dbAfter service db rounds (n + 1)) :=
      hround _ _ (hsched.ids n) hout.keys hfoundInv
    exact ⟨⟨hnext, hinv'⟩, hfound (n + 1) ⟨hnext, hinv'⟩⟩

theorem outboxInv_rounds (h : OutboxInv db) (hsched : Schedule service db rounds) (n : Nat) :
    OutboxInv (dbAfter service db rounds n) ∧ OutboxInv (foundAt service db rounds n) := by
  have hinv := rounds_inv (m := 0) (fun _ => True) (fun _ _ _ _ _ => trivial)
    (fun _ _ _ _ _ => trivial) hsched h trivial n (Nat.zero_le n)
  exact ⟨hinv.1.1, hinv.2.1⟩

/-- Clients' calls between two rounds only move work on. -/
theorem before_progress {n : Nat} (h : OutboxInv (dbAfter service db rounds n))
    (hsched : Schedule service db rounds) :
    Progress (dbAfter service db rounds n) (foundAt service db rounds n) := by
  refine (run_inv (fun db' => OutboxInv db' ∧ Progress (dbAfter service db rounds n) db')
    ?_ (hsched.quiet n) ⟨h, .refl _⟩).2
  intro db' call hq hdb'
  exact ⟨outboxInv_step call hdb'.1,
    hdb'.2.trans ((step_storage hdb'.1.tree call).progress hq.1 hq.2)⟩

/-- With nothing abandoned, a round at which the work stays the same is idle, finds
no row due, and the rows are still the same after it. -/
theorem round_stable (h : OutboxInv db) (hsched : Schedule service db rounds) {n : Nat}
    (hno : ∀ key, ¬ Abandoned service.grace (foundAt service db rounds n) key) :
    work (dbAfter service db rounds (n + 1)) ≤ work (dbAfter service db rounds n) ∧
    (work (dbAfter service db rounds n) ≤ work (dbAfter service db rounds (n + 1)) →
      (dbAfter service db rounds (n + 1)).storage.deletions =
          (dbAfter service db rounds n).storage.deletions ∧
        Idle service (foundAt service db rounds n) (rounds n) ∧
        ∀ o ∈ (dbAfter service db rounds n).storage.deletions,
          isDue (foundAt service db rounds n).now o = false) := by
  obtain ⟨hafter, hfound⟩ := outboxInv_rounds h hsched n
  have hbefore := before_progress hafter hsched
  have hle := hbefore.work_le
  rw [dbAfter_succ]
  rcases round_progress service hfound.keys (hsched.ids n) hno with
    ⟨hrows, hwork, hidle, hdue⟩ | hlt
  · refine ⟨Nat.le_trans hwork hle, fun hge => ?_⟩
    rcases hbefore with ⟨hsame, _⟩ | hlt
    · rw [hrows, ← hsame]
      exact ⟨rfl, hidle, hdue⟩
    · omega
  · exact ⟨by omega, fun hge => by omega⟩

theorem rests_of_noAbandoned (h : OutboxInv db) (hretry : Retryable db.storage.deletions)
    (hsched : Schedule service db rounds)
    (hno : ∀ n key, ¬ Abandoned service.grace (foundAt service db rounds n) key) :
    Rests service db rounds := by
  have hanti : Antitone fun n => work (dbAfter service db rounds n) :=
    antitone_nat_of_succ_le fun n => (round_stable h hsched (hno n)).1
  obtain ⟨N, hN⟩ := WellFoundedLT.antitone_chain_condition hanti
  have hstable : ∀ n, N ≤ n → (dbAfter service db rounds (n + 1)).storage.deletions =
        (dbAfter service db rounds n).storage.deletions ∧
      Idle service (foundAt service db rounds n) (rounds n) ∧
      ∀ o ∈ (dbAfter service db rounds n).storage.deletions,
        isDue (foundAt service db rounds n).now o = false := by
    intro n hn
    refine (round_stable h hsched (hno n)).2 ?_
    exact Nat.le_of_eq ((hN n hn).symm.trans (hN (n + 1) (Nat.le_succ_of_le hn)))
  have hsame : ∀ n, N ≤ n → (dbAfter service db rounds n).storage.deletions =
      (dbAfter service db rounds N).storage.deletions := by
    intro n hn
    induction n, hn using Nat.le_induction with
    | base => rfl
    | succ n hn ih => exact (hstable n hn).1.trans ih
  -- a row that is left at `N` is due in some later round
  have hretryN : Retryable (dbAfter service db rounds N).storage.deletions :=
    (rounds_inv (m := 0) (fun db => Retryable db.storage.deletions)
      (fun db call hq hout hr => (step_storage hout.tree call).retryable
        (by cases call with
          | finishDeletion _ _ _ success _ =>
            rw [show success = true from hq.1]
            trivial
          | _ => trivial) hr)
      (fun db round hids hkeys hr => round_retryable service hkeys hids hr)
      hsched h hretry N (Nat.zero_le N)).1.2
  have hempty : (dbAfter service db rounds N).storage.deletions = [] := by
    obtain ⟨T, hT⟩ := exists_due hretryN
    obtain ⟨n, hn, hTn⟩ := hsched.time T N
    refine List.eq_nil_iff_forall_not_mem.mpr fun o ho => ?_
    have hdue := hT o ho _ hTn
    rw [(hstable n hn).2.2 o (by rwa [hsame n hn])] at hdue
    exact absurd hdue (by simp)
  exact ⟨N, fun n hn => ⟨(hsame n hn).trans hempty, (hstable n hn).2.1⟩⟩

theorem not_abandoned_of_rests (h : OutboxInv db) (hsched : Schedule service db rounds)
    (hrests : Rests service db rounds) (n : Nat) (key : ObjectKey) :
    ¬ Abandoned service.grace (foundAt service db rounds n) key := by
  intro habandoned
  obtain ⟨N, hN⟩ := hrests
  have hinv := outboxInv_rounds h hsched
  -- still abandoned in a round that is idle and leaves the outbox empty
  have hlater := rounds_inv (m := n + 1) (fun db => Abandoned service.grace db key)
    (fun db call hq hout hab => (step_storage hout.tree call).abandoned hq.1 hq.2 hout.keys hab)
    (fun db round hids hkeys hab => round_abandoned service hkeys hids hab) hsched
    (hinv (n + 1)).1 (round_abandoned service (hinv n).2.keys (hsched.ids n) habandoned)
    (max N (n + 1)) (Nat.le_max_right _ _)
  have hidle := (hN _ (Nat.le_max_left N (n + 1))).2
  have hrows := (hN (max N (n + 1) + 1) (Nat.le_succ_of_le (Nat.le_max_left _ _))).1
  rw [dbAfter_succ, round_idle service hlater.2.1.keys (hsched.ids _) hidle] at hrows
  obtain ⟨hnone, horphans⟩ := List.append_eq_nil_iff.mp hrows
  have hkeys := orphanDeletions_keys
    (expireReservations (foundAt service db rounds (max N (n + 1)))) service.grace
    (rounds (max N (n + 1))).deletionId
  rw [horphans, List.map_nil] at hkeys
  have hmem : key ∈ orphanKeys (expireReservations (foundAt service db rounds (max N (n + 1))))
      service.grace := by
    refine mem_orphanKeys.mpr ⟨hlater.2.2, ?_⟩
    rw [isPendingDeletion, hnone]
    rfl
  rw [← hkeys] at hmem
  exact absurd hmem (by simp)

theorem not_failed_of_rests (h : OutboxInv db) (hsched : Schedule service db rounds)
    (hrests : Rests service db rounds) : ∀ o ∈ db.storage.deletions, o.status ≠ .failed := by
  intro o ho hfailed
  obtain ⟨N, hN⟩ := hrests
  have hstays := rounds_inv (m := 0) (fun db => o ∈ db.storage.deletions)
    (fun db call hq hout hmem => (step_storage hout.tree call).failed_mem hq.1 hmem hfailed)
    (fun db round hids hkeys hmem => round_keeps service hkeys hids hmem
      (by simp [isDue, hfailed])) hsched h ho N (Nat.zero_le N)
  have hmem := hstays.1.2
  rw [(hN N (Nat.le_refl N)).1] at hmem
  exact absurd hmem (by simp)

end Rounds

/-! ## Two schedules -/

/-- A lease of a minute and a grace period of an hour. -/
def sampleService : DeletionService := ⟨"worker", 60, 3600, by decide, by decide⟩

/-- A first round after some calls, then a round every two hours. -/
def sampleRounds (first : List Call) : Nat → Round
  | 0 => ⟨first, 100, 0⟩
  | n + 1 => ⟨[.tick (120 * minute)], 101 + n, n + 1⟩

theorem length_orphanDeletions_le (db : Db) (grace : Time) (deletionId : DeletionId) :
    (orphanDeletions (expireReservations db) grace deletionId).length ≤
      db.storage.reservations.length := by
  calc (orphanDeletions (expireReservations db) grace deletionId).length
      ≤ (sweptKeys (expireReservations db) grace).length := by
        rw [orphanDeletions, List.length_mapIdx]
        exact List.length_filter_le _ _
    _ ≤ ((expireReservations db).storage.reservations.filter fun r =>
          r.outcome = some .expired ∧ r.expiresAt + grace ≤ (expireReservations db).now).length := by
        refine (List.dedup_sublist _).length_le.trans ?_
        rw [List.length_map]
    _ ≤ db.storage.reservations.length := by
        refine (List.length_filter_le _ _).trans ?_
        simp [expireReservations]

/-- One reservation at most: what a round queues it also deletes. -/
theorem round_empty (service : DeletionService) {db : Db} (h : KeyInv db)
    (hrows : db.storage.deletions = []) (hone : db.storage.reservations.length ≤ 1) :
    (commit db (runOnce service db round)).storage.deletions = [] := by
  have hids : ∀ o ∈ db.storage.deletions, o.id < round.deletionId := by simp [hrows]
  have hswept : (sweptDb service db round).storage.deletions =
      orphanDeletions (expireReservations db) service.grace round.deletionId := by
    simp [sweptDb, hrows]
  have hlen := length_orphanDeletions_le db service.grace round.deletionId
  rw [← hswept] at hlen
  rcases runOnce_ok service h hids with ⟨hrun, hnone⟩ | ⟨o, ho, _, hrun⟩
  · rw [hrun, commit_ok]
    refine List.eq_nil_iff_forall_not_mem.mpr fun o ho => ?_
    have hclaim := hnone o ho
    rw [isClaimable_swept service h hids ho] at hclaim
    rw [hswept] at ho
    obtain ⟨i, hi, rfl⟩ := List.mem_mapIdx.mp ho
    simp [isDue, newDeletion, expireReservations] at hclaim
  · rw [hrun, commit_ok]
    have hless := (h.sweptDb service hids).deletionIds.length_deleteWhere ho
    refine List.length_eq_zero_iff.mp ?_
    dsimp only
    omega

variable {first : List Call}

/-- From round 1 on: an empty outbox, the same reservations, and two more hours
each time. -/
theorem sampleRounds_inv {service : DeletionService} {db : Db}
    (h : OutboxInv (dbAfter service db (sampleRounds first) 1))
    (hrows : (dbAfter service db (sampleRounds first) 1).storage.deletions = [])
    (hone : (dbAfter service db (sampleRounds first) 1).storage.reservations.length ≤ 1) (n : Nat) :
    OutboxInv (dbAfter service db (sampleRounds first) (n + 1)) ∧
      (dbAfter service db (sampleRounds first) (n + 1)).storage.deletions = [] ∧
      (dbAfter service db (sampleRounds first) (n + 1)).storage.reservations.length ≤ 1 ∧
      n * (120 * minute) ≤ (dbAfter service db (sampleRounds first) (n + 1)).now := by
  induction n with
  | zero => exact ⟨h, hrows, hone, by simp⟩
  | succ n ih =>
    obtain ⟨hinv, hempty, hres, hnow⟩ := ih
    have hfound := outboxInv_step (.tick (120 * minute)) hinv
    obtain ⟨deletions, heq, hkeys⟩ := @round_ok service _ (sampleRounds first (n + 1))
      hfound.keys (by simp [step, hempty])
    have hafter : dbAfter service db (sampleRounds first) (n + 1 + 1) =
        { expireReservations (step (dbAfter service db (sampleRounds first) (n + 1))
            (.tick (120 * minute))) with storage.deletions := deletions } := heq
    refine ⟨?_, round_empty service hfound.keys hempty hres, ?_, ?_⟩
    · rw [hafter]
      exact ⟨hfound.tree, hkeys⟩
    · rw [hafter]
      simpa [expireReservations, step] using hres
    · rw [hafter]
      simp only [expireReservations, step]
      rw [Nat.add_one_mul]
      exact Nat.add_le_add_right hnow _

theorem schedule_sampleRounds {service : DeletionService} {db : Db}
    (h : OutboxInv (dbAfter service db (sampleRounds first) 1))
    (hrows : (dbAfter service db (sampleRounds first) 1).storage.deletions = [])
    (hone : (dbAfter service db (sampleRounds first) 1).storage.reservations.length ≤ 1)
    (hquiet : Along step Quiet db first)
    (hids : ∀ o ∈ (run step db first).storage.deletions, o.id < 100) :
    Schedule service db (sampleRounds first) := by
  have hall := sampleRounds_inv h hrows hone
  refine ⟨fun n => ?_, fun T N => ?_, fun n => ?_⟩
  · cases n with
    | zero => exact hquiet
    | succ n => exact ⟨⟨rfl, rfl⟩, trivial⟩
  · refine ⟨max N T + 1, by omega, ?_⟩
    calc T ≤ max N T * (120 * minute) :=
          Nat.le_trans (Nat.le_max_right N T) (Nat.le_mul_of_pos_right _ (by decide))
      _ ≤ (dbAfter service db (sampleRounds first) (max N T + 1)).now := (hall (max N T)).2.2.2
      _ ≤ (foundAt service db (sampleRounds first) (max N T + 1)).now := Nat.le_add_right _ _
  · cases n with
    | zero => exact hids
    | succ n =>
      have hempty : (foundAt service db (sampleRounds first) (n + 1)).storage.deletions = [] :=
        (hall n).2.1
      rw [hempty]
      simp

/-- Spent reservations stay spent. -/
theorem sampleRounds_spent {service : DeletionService} {db : Db}
    (hsched : Schedule service db (sampleRounds first)) (h : OutboxInv db)
    (hspent : ∀ r ∈ (run step db first).storage.reservations, mayBeSwept r = false) (n : Nat) :
    ∀ r ∈ (foundAt service db (sampleRounds first) n).storage.reservations,
      mayBeSwept r = false := by
  induction n with
  | zero => exact hspent
  | succ n ih =>
    obtain ⟨deletions, heq, _⟩ := round_ok service (outboxInv_rounds h hsched n).2.keys
      (hsched.ids n)
    have hfound : (foundAt service db (sampleRounds first) (n + 1)).storage.reservations =
        (dbAfter service db (sampleRounds first) (n + 1)).storage.reservations := rfl
    rw [hfound, dbAfter_succ, heq]
    dsimp only [expireReservations]
    rw [updateWhere_eq_self]
    · exact ih
    · intro r hr
      have hnot := ih r hr
      simp only [mayBeSwept, decide_eq_false_iff_not, not_or] at hnot
      simp [hnot.1]

/-! ## From any reachable state -/

/-- A leased row has an expiry. -/
def LeasesExpire (deletions : List ObjectDeletion) : Prop :=
  ∀ o ∈ deletions, o.status = .leased → ∃ t, o.leaseExpiresAt = some t

theorem LeasesExpire.update (h : LeasesExpire deletions) {p : ObjectDeletion → Bool}
    {f : ObjectDeletion → ObjectDeletion}
    (hf : ∀ o, (f o).status = .leased → ∃ t, (f o).leaseExpiresAt = some t) :
    LeasesExpire (updateWhere p f deletions) := by
  intro o ho
  obtain ⟨o₀, ho₀, rfl⟩ := mem_updateWhere.mp ho
  split
  next => exact hf o₀
  next => exact h o₀ ho₀

theorem LeasesExpire.append {rows : List ObjectDeletion} (h : LeasesExpire deletions)
    (hrows : ∀ o ∈ rows, o.status = .queued) : LeasesExpire (deletions ++ rows) := by
  intro o ho hleased
  rcases List.mem_append.mp ho with ho | ho
  · exact h o ho hleased
  · rw [hrows o ho] at hleased
    exact absurd hleased (by simp)

theorem StorageStep.leasesExpire {db : Db} (hs : StorageStep db call db')
    (h : LeasesExpire db.storage.deletions) : LeasesExpire db'.storage.deletions := by
  cases hs with
  | other storage _ _ _ =>
    rw [storage]
    exact h
  | expire => exact h
  | reserve => exact h
  | duplicate => exact h
  | create => exact h
  | delete =>
    refine h.append fun o ho => ?_
    rw [List.mem_singleton.mp ho]
    rfl
  | sweep => exact h.append orphanDeletions_queued
  | claim => exact h.update fun o _ => ⟨_, rfl⟩
  | heartbeat => exact h.update fun o _ => ⟨_, rfl⟩
  | finish => exact fun o ho => h o (mem_deleteWhere.mp ho).1
  | release =>
    refine h.update fun o hleased => ?_
    simp only [releasedDeletion] at hleased
    split at hleased <;> exact absurd hleased (by simp)

theorem leasesExpire_run {db : Db} (h : Installed db) (calls : List Call) :
    OutboxInv (run step db calls) ∧ LeasesExpire (run step db calls).storage.deletions := by
  refine run_inv_of_step (fun db : Db => OutboxInv db ∧ LeasesExpire db.storage.deletions)
    ?_ calls ?_
  · exact fun db call hdb =>
      ⟨outboxInv_step call hdb.1, (step_storage hdb.1.tree call).leasesExpire hdb.2⟩
  · refine ⟨⟨treeInv_run h [], keyInv_installed h⟩, ?_⟩
    rw [h.deletions]
    simp [LeasesExpire]

/-- After any history: each key is queued at most once and the worker comes to
rest exactly when no round finds an abandoned upload and no row was given up. -/
theorem rests_iff {db : Db} (h : Installed db) (calls : List Call) {service : DeletionService}
    {rounds : Nat → Round} (hsched : Schedule service (run step db calls) rounds) :
    QueuedOnce service (run step db calls) rounds ∧ Rests service (run step db calls) rounds ↔
      (∀ n key, ¬ Abandoned service.grace (foundAt service (run step db calls) rounds n) key) ∧
        ∀ o ∈ (run step db calls).storage.deletions, o.status ≠ .failed := by
  obtain ⟨hinv, hleases⟩ := leasesExpire_run h calls
  refine ⟨fun ⟨_, hrests⟩ => ⟨not_abandoned_of_rests hinv hsched hrests,
    not_failed_of_rests hinv hsched hrests⟩, fun ⟨hno, hfailed⟩ => ⟨?_, ?_⟩⟩
  · intro key m n hm
    exact absurd (mem_orphanKeys.mp hm).1 (hno m key)
  · refine rests_of_noAbandoned hinv (fun o ho => ?_) hsched hno
    cases hstatus : o.status with
    | queued => exact Or.inl rfl
    | leased => exact Or.inr ⟨rfl, hleases o ho hstatus⟩
    | failed => exact absurd hstatus (hfailed o ho)

/-- The administrator reserves an upload. -/
def reserveCalls : List Call :=
  [.uploadPreflight (some (.digest 1)) 20 (sampleUpload 7 none "a.pdf")]

/-- The upload is committed and its document deleted before the first round. -/
def commitDeleteCalls : List Call :=
  [.commitUpload (some (.digest 1)) 20 ⟨30, 31, 32, 33, 34⟩ (sampleUpload 7 none "a.pdf"),
    .deleteDocument (some (.digest 1)) 30 50]

/-- The first round removes the document's row, and the worker rests. -/
theorem rests_iff_committed :
    (foundAt sampleService (run step sampleDb reserveCalls) (sampleRounds commitDeleteCalls)
      0).storage.deletions.length = 1 ∧
    QueuedOnce sampleService (run step sampleDb reserveCalls) (sampleRounds commitDeleteCalls) ∧
    Rests sampleService (run step sampleDb reserveCalls) (sampleRounds commitDeleteCalls) := by
  have hstart := (leasesExpire_run installed_sampleDb reserveCalls).1
  have hafter : OutboxInv (dbAfter sampleService (run step sampleDb reserveCalls)
      (sampleRounds commitDeleteCalls) 1) := by
    have hfound := (leasesExpire_run installed_sampleDb (reserveCalls ++ commitDeleteCalls)).1
    rw [run_append] at hfound
    obtain ⟨deletions, heq, hkeys⟩ := @round_ok sampleService _
      (sampleRounds commitDeleteCalls 0) hfound.keys (by decide +kernel)
    rw [dbAfter_succ]
    exact heq ▸ ⟨hfound.tree, hkeys⟩
  have hsched := schedule_sampleRounds hafter (by decide +kernel) (by decide +kernel)
    (by decide +kernel) (by decide +kernel)
  refine ⟨by decide +kernel, (rests_iff installed_sampleDb reserveCalls hsched).mpr
    ⟨fun n key h => ?_, by decide +kernel⟩⟩
  obtain ⟨r, hr, _, hswept, _⟩ := h.overdue
  rw [sampleRounds_spent hsched hstart (by decide +kernel) n r hr] at hswept
  exact absurd hswept (by simp)

/-- Nobody commits the upload: its key is queued by the first round and again by
the second, and the worker never rests. -/
theorem requeued_forever :
    Installed sampleDb ∧
    Schedule sampleService (run step sampleDb reserveCalls)
      (sampleRounds [.tick (120 * minute)]) ∧
    .original 7 ∈ queuedAt sampleService (run step sampleDb reserveCalls)
      (sampleRounds [.tick (120 * minute)]) 0 ∧
    .original 7 ∈ queuedAt sampleService (run step sampleDb reserveCalls)
      (sampleRounds [.tick (120 * minute)]) 1 ∧
    ¬ QueuedOnce sampleService (run step sampleDb reserveCalls)
      (sampleRounds [.tick (120 * minute)]) ∧
    ¬ Rests sampleService (run step sampleDb reserveCalls)
      (sampleRounds [.tick (120 * minute)]) := by
  have hstart := (leasesExpire_run installed_sampleDb reserveCalls).1
  have hafter : OutboxInv (dbAfter sampleService (run step sampleDb reserveCalls)
      (sampleRounds [.tick (120 * minute)]) 1) := by
    have hfound := outboxInv_step (.tick (120 * minute)) hstart
    obtain ⟨deletions, heq, hkeys⟩ := @round_ok sampleService _
      (sampleRounds [.tick (120 * minute)] 0) hfound.keys (by decide +kernel)
    rw [dbAfter_succ]
    exact heq ▸ ⟨hfound.tree, hkeys⟩
  have hsched := schedule_sampleRounds hafter (by decide +kernel) (by decide +kernel)
    (by decide +kernel) (by decide +kernel)
  have hfirst : .original 7 ∈ queuedAt sampleService (run step sampleDb reserveCalls)
      (sampleRounds [.tick (120 * minute)]) 0 := by decide +kernel
  have hsecond : .original 7 ∈ queuedAt sampleService (run step sampleDb reserveCalls)
      (sampleRounds [.tick (120 * minute)]) 1 := by decide +kernel
  refine ⟨installed_sampleDb, hsched, hfirst, hsecond, fun honce => ?_, fun hrests => ?_⟩
  · exact absurd (honce _ 0 1 hfirst hsecond) (by decide)
  · exact not_abandoned_of_rests hstart hsched hrests 0 _ (mem_orphanKeys.mp hfirst).1

end LocalRag.Storage
