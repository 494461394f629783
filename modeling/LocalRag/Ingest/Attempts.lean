import LocalRag.Ingest.Pausing

/-!
# The attempts of a reindex task, and the work of a running reindex

Three limits speak of the attempts of a task: the `CHECK` of the table (at most 3), the branch of
`v10_fail_reindex_task` (a third attempt that fails ends the operation) and the filter of
`v10_admin_retry_reprocessing` (only tasks below three attempts are queued again). A lease that
expires passes through none of them, and the move to `qualifying` is decided by a count that
another commit may overlap. So an operation can be left `running` with nothing to claim, and a
claim can take a task over its bound, which ends the worker that made it.

`KeepsWork` says of each step that it is none of these: no third lease expires while its operation
runs, a counting commit saw what it had to see, and what a deletion, a resume or a retry leaves is
work a worker can take. Every other step is tame (`Tame`): it starts no operation and takes no
task. `reindex_kept` is the run.
-/

namespace LocalRag.Ingest

open LocalRag.Core Access Library Storage

/-- Queued or running. -/
def isOpenTask (t : ReindexTask) : Bool := t.state = .queued ∨ t.state = .running

/-- The operation has an open task. -/
def hasOpenTask (db : Db) (operationId : OperationId) : Bool :=
  db.reprocessing.reindexTasks.any fun t => t.operationId = operationId ∧ isOpenTask t

def isRunningReindex (o : ReprocessingOperation) : Bool :=
  o.operationType = .reindex ∧ o.state = .running

/-- Arguments `v10_claim_reindex_tasks` accepts. -/
def isValidClaim (request : ReindexClaimRequest) : Bool :=
  1 ≤ request.owner.length ∧ request.owner.length ≤ 255 ∧ 5 ≤ request.leaseSeconds ∧
    request.leaseSeconds ≤ 3600 ∧ 1 ≤ request.limit ∧ request.limit ≤ 32

/-- The snapshot a claim between its statements began on. -/
def Pending.snapshot : Pending → Option Db
  | .claimTasks seen _ => some seen
  | _ => none

/-- What a claim that writes next may have begun on. -/
def snapshots (site : Site) : List Db := site.db :: site.pending.filterMap Pending.snapshot

/-- No claim with valid arguments raises, and a running reindex has an open task. -/
structure ReindexLive (site : Site) : Prop where
  claims : ∀ seen ∈ snapshots site, ∀ request, isValidClaim request = true →
    ∀ locked, ∃ r, claimReindexTasksAt seen site.db request locked = .ok r
  works : ∀ o ∈ site.db.reprocessing.operations, o.operationType = .reindex → o.state = .running →
    ∃ t ∈ site.db.reprocessing.reindexTasks, t.operationId = o.id ∧
      (t.state = .queued ∨ t.state = .running)

/-! ## The condition -/

/-- A third lease of a task of the operation is over at `now`. -/
def leaseSpent (db : Db) (operationId : OperationId) (now : Time) : Bool :=
  db.reprocessing.reindexTasks.any fun t => t.operationId = operationId ∧ 3 ≤ t.attempt ∧
    t.state = .running ∧ t.leaseExpiresAt.any fun e => e ≤ now

/-- The chunk is a row that satisfies `p`. -/
def chunkIs (db : Db) (p : Chunk → Bool) (c : ChunkId) : Bool :=
  db.content.chunks.any fun k => p k ∧ k.id = c

/-- A running reindex keeps an open task when the chunks that satisfy `p` go. -/
def survives (db : Db) (p : Chunk → Bool) : Bool :=
  db.reprocessing.operations.all fun o => isRunningReindex o → db.reprocessing.reindexTasks.any
    fun t => t.operationId = o.id ∧ isOpenTask t ∧ ¬ chunkIs db p t.chunkId

/-- A retry leaves the task open. -/
def isRetryable (t : ReindexTask) : Bool := isOpenTask t ∨ (t.state = .failed ∧ t.attempt < 3)

/-- The first step of a call leaves work, and no spent lease to a running operation. -/
def callKeeps (db : Db) : WorkCall → Bool
  | .tick elapsed => db.reprocessing.operations.all fun o =>
    o.state = .running → ¬ leaseSpent db o.id (db.now + elapsed)
  | .resume token operationId => db.reprocessing.operations.all fun o =>
    ((v10AdminResumeReprocessing db token operationId).isOk ∧ o.id = operationId ∧
      o.state = .paused) →
        ¬ leaseSpent db o.id db.now ∧ (o.operationType = .reindex → hasOpenTask db o.id)
  | .retry token operationId => db.reprocessing.operations.all fun o =>
    ((v10AdminRetryReprocessing db token operationId).isOk ∧ o.id = operationId ∧
      o.state = .failed) →
        ¬ leaseSpent db o.id db.now ∧ (o.operationType = .reindex →
          db.reprocessing.reindexTasks.any fun t => t.operationId = o.id ∧ isRetryable t)
  | .deleteDocument token d deletionId =>
    (v4AdminDeleteDocument db token d deletionId).isOk → survives db fun c => c.documentId = d
  | _ => true

/-- A later step of a call leaves work, and no lease that is spent when it is written. -/
def nextKeeps (site : Site) (jobs : List JobId) (tasks : List (OperationId × ChunkId)) :
    Pending → Bool
  | .commitJob request job =>
    (advance site.db jobs tasks (.commitJob request job)).isOk →
      survives site.db fun c => c.documentGenerationId = job.targetGenerationId
  | .claimTasks seen request =>
    site.db.reprocessing.reindexTasks.all fun t =>
      (isValidClaim request ∧ (chosenTasks seen site.db request.limit tasks).any (sameTask t) ∧
        2 ≤ t.attempt) → (snapshots site).all fun s => operationRuns s t.operationId →
          s.now < seen.now + request.leaseSeconds * second
  | .countTask request _ counts =>
    counts.1 = counts.2 ∨ site.db.reprocessing.operations.all fun o =>
      (o.id = request.operationId ∧ isRunningReindex o) → site.db.reprocessing.reindexTasks.any
        fun t => t.operationId = o.id ∧ isOpenTask t ∧ t.chunkId ≠ request.chunkId
  | _ => true

/-- The step leaves work to be claimed, and nothing a claim would raise on. -/
def KeepsWork (site : Site) : Act → Prop
  | .call call => callWaits site call = false → callKeeps site.db call = true
  | .next i jobs tasks => ∀ p ∈ site.pending[i]?, pendingWaits site p = false →
    nextKeeps site (jobs ++ lockedJobs site.pending) (tasks ++ lockedTasks site.pending) p = true

instance decidableKeepsWork (site : Site) : ∀ act, Decidable (KeepsWork site act)
  | .call call => inferInstanceAs (Decidable (callWaits site call = false →
      callKeeps site.db call = true))
  | .next i jobs tasks => inferInstanceAs (Decidable (∀ p ∈ site.pending[i]?,
      pendingWaits site p = false → nextKeeps site (jobs ++ lockedJobs site.pending)
        (tasks ++ lockedTasks site.pending) p = true))

/-! ## The invariant -/

/-- `PRIMARY KEY (operation_id, chunk_id)`. -/
def taskKey (t : ReindexTask) : OperationId × ChunkId := (t.operationId, t.chunkId)

/-- Nothing a claim would raise on, whichever of the snapshots it began on, and work for every
running reindex. -/
structure AttemptInv (seens : List Db) (db : Db) : Prop where
  taskKeys : Keyed taskKey db.reprocessing.reindexTasks
  operationKeys : Keyed (·.id) db.reprocessing.operations
  queued : ∀ t ∈ db.reprocessing.reindexTasks, t.state = .queued → t.attempt < 3
  leases : ∀ seen ∈ db :: seens, ∀ t ∈ db.reprocessing.reindexTasks,
    isClaimableTask seen t = true → t.attempt < 3
  works : ∀ o ∈ db.reprocessing.operations, isRunningReindex o = true → hasOpenTask db o.id = true

variable {db : Db} {operationId : OperationId}

theorem hasOpenTask_iff :
    hasOpenTask db operationId = true ↔ ∃ t ∈ db.reprocessing.reindexTasks,
      t.operationId = operationId ∧ isOpenTask t = true := by
  unfold hasOpenTask
  simp only [List.any_eq_true, decide_eq_true_eq]

variable {t : ReindexTask}

theorem isOpenTask_of_claimable (h : isClaimableTask db t = true) : isOpenTask t = true := by
  simp only [isClaimableTask, isOpenTask, decide_eq_true_eq] at h ⊢
  exact h.2.imp id And.left

/-- The invariant is what no claim raises on. -/
theorem AttemptInv.live {site : Site}
    (h : AttemptInv (site.pending.filterMap Pending.snapshot) site.db) : ReindexLive site where
  claims seen hseen request hvalid locked := by
    simp only [isValidClaim, decide_eq_true_eq] at hvalid
    unfold claimReindexTasksAt
    rw [if_neg (by omega)]
    dsimp only
    rw [if_neg]
    · exact ⟨_, rfl⟩
    · rw [List.any_eq_true]
      rintro ⟨t, ht, hspent⟩
      obtain ⟨hmem, hclaim, -⟩ := mem_chosenTasks ht
      have hbelow := h.leases seen hseen t hmem hclaim
      have hthree : 3 ≤ t.attempt := of_decide_eq_true hspent
      omega
  works o ho htype hstate := by
    have hopen := h.works o ho (decide_eq_true ⟨htype, hstate⟩)
    obtain ⟨t, ht, hop, htask⟩ := hasOpenTask_iff.mp hopen
    exact ⟨t, ht, hop, of_decide_eq_true htask⟩

/-! ## Steps that start no operation and take no task -/

/-- No row is added. -/
structure KeysKept (db db' : Db) : Prop where
  tasks : (db'.reprocessing.reindexTasks.map taskKey).Sublist
    (db.reprocessing.reindexTasks.map taskKey)
  operations : db'.reprocessing.operations.map (·.id) = db.reprocessing.operations.map (·.id)

variable {db' : Db}

/-- The operations are updated and the tasks left alone. -/
theorem KeysKept.of_operations
    (htasks : db'.reprocessing.reindexTasks = db.reprocessing.reindexTasks)
    (hids : db'.reprocessing.operations.map (·.id) = db.reprocessing.operations.map (·.id)) :
    KeysKept db db' := by
  refine ⟨?_, hids⟩
  rw [htasks]

variable {seens : List Db}

theorem AttemptInv.taskKeys_kept (h : AttemptInv seens db) (hkeys : KeysKept db db') :
    Keyed taskKey db'.reprocessing.reindexTasks :=
  List.Nodup.sublist hkeys.tasks h.taskKeys

theorem AttemptInv.operationKeys_kept (h : AttemptInv seens db) (hkeys : KeysKept db db') :
    Keyed (·.id) db'.reprocessing.operations := by
  unfold Keyed
  rw [hkeys.operations]
  exact h.operationKeys

/-- No operation is started and no task is taken; a task that is queued again is below its third
attempt. -/
structure Tame (db db' : Db) : Prop where
  keys : KeysKept db db'
  now : db'.now = db.now
  tasks : ∀ t' ∈ db'.reprocessing.reindexTasks, t' ∈ db.reprocessing.reindexTasks ∨
    isOpenTask t' = false ∨ (t'.state = .queued ∧ t'.attempt < 3)
  operations : ∀ o' ∈ db'.reprocessing.operations, o'.state = .running →
    ∃ o ∈ db.reprocessing.operations, o.state = .running ∧ o.id = o'.id ∧
      o.operationType = o'.operationType

theorem operationRuns_iff :
    operationRuns db operationId = true ↔ ∃ o ∈ db.reprocessing.operations,
      o.id = operationId ∧ o.state = .running := by
  unfold operationRuns
  simp only [List.any_eq_true, decide_eq_true_eq]

theorem AttemptInv.tame (h : AttemptInv seens db) (htame : Tame db db')
    (hworks : ∀ o ∈ db'.reprocessing.operations,
      isRunningReindex o = true → hasOpenTask db' o.id = true) : AttemptInv seens db' where
  taskKeys := h.taskKeys_kept htame.keys
  operationKeys := h.operationKeys_kept htame.keys
  queued t' ht' hqueued := by
    rcases htame.tasks t' ht' with hold | hclosed | ⟨-, hbelow⟩
    · exact h.queued t' hold hqueued
    · simp [isOpenTask, hqueued] at hclosed
    · exact hbelow
  leases seen hseen t' ht' hclaim := by
    rcases htame.tasks t' ht' with hold | hclosed | ⟨-, hbelow⟩
    · rcases List.mem_cons.mp hseen with rfl | hseen
      · -- the operation ran before, and the clock stands
        refine h.leases db List.mem_cons_self t' hold ?_
        simp only [isClaimableTask, decide_eq_true_eq] at hclaim ⊢
        obtain ⟨o', ho', hid', hrun'⟩ := operationRuns_iff.mp hclaim.1
        obtain ⟨o, ho, hrun, hid, -⟩ := htame.operations o' ho' hrun'
        refine ⟨operationRuns_iff.mpr ⟨o, ho, hid.trans hid', hrun⟩, ?_⟩
        rw [← htame.now]
        exact hclaim.2
      · exact h.leases seen (List.mem_cons_of_mem _ hseen) t' hold hclaim
    · rw [isOpenTask_of_claimable hclaim] at hclosed
      cases hclosed
    · exact hbelow
  works := hworks

/-- A running reindex ran before, so it has its task if the step kept one. -/
theorem Tame.works (h : Tame db db')
    (hkept : ∀ o ∈ db.reprocessing.operations, isRunningReindex o = true →
      (∃ o' ∈ db'.reprocessing.operations, o'.id = o.id ∧ isRunningReindex o' = true) →
      hasOpenTask db' o.id = true) :
    ∀ o ∈ db'.reprocessing.operations, isRunningReindex o = true → hasOpenTask db' o.id = true := by
  intro o' ho' hrun'
  obtain ⟨htype, hstate⟩ := of_decide_eq_true hrun'
  obtain ⟨o, ho, hrun, hid, htypes⟩ := h.operations o' ho' hstate
  rw [← hid]
  exact hkept o ho (decide_eq_true ⟨htypes.trans htype, hrun⟩) ⟨o', ho', hid.symm, hrun'⟩

/-- The tasks and the clock are as they were. -/
theorem AttemptInv.of_operations (h : AttemptInv seens db) (hnow : db'.now = db.now)
    (htasks : db'.reprocessing.reindexTasks = db.reprocessing.reindexTasks)
    (hids : db'.reprocessing.operations.map (·.id) = db.reprocessing.operations.map (·.id))
    (hoperations : ∀ o' ∈ db'.reprocessing.operations, o'.state = .running →
      ∃ o ∈ db.reprocessing.operations, o.state = .running ∧ o.id = o'.id ∧
        o.operationType = o'.operationType) : AttemptInv seens db' := by
  have htame : Tame db db' := by
    refine ⟨.of_operations htasks hids, hnow, fun t' ht' => Or.inl ?_, hoperations⟩
    rwa [htasks] at ht'
  refine h.tame htame (htame.works fun o ho hrun _ => ?_)
  have hopen := h.works o ho hrun
  unfold hasOpenTask at hopen ⊢
  rwa [htasks]

/-- A step that leaves the operations, the tasks and the clock alone. -/
theorem AttemptInv.of_eq (h : AttemptInv seens db) (hnow : db'.now = db.now)
    (hreprocessing : db'.reprocessing = db.reprocessing) : AttemptInv seens db' := by
  refine h.of_operations hnow (by rw [hreprocessing]) (by rw [hreprocessing]) fun o ho hrun => ?_
  rw [hreprocessing] at ho
  exact ⟨o, ho, hrun, rfl, rfl⟩

/-- An update of operations that starts none. -/
theorem running_updateWhere {q : ReprocessingOperation → Bool}
    {f : ReprocessingOperation → ReprocessingOperation} {operations : List ReprocessingOperation}
    (hid : ∀ o, (f o).id = o.id) (htype : ∀ o, (f o).operationType = o.operationType)
    (hf : ∀ o, q o = true → (f o).state = .running → o.state = .running) :
    ∀ o' ∈ updateWhere q f operations, o'.state = .running → ∃ o ∈ operations,
      o.state = .running ∧ o.id = o'.id ∧ o.operationType = o'.operationType := by
  intro o' ho' hrun
  obtain ⟨o, ho, rfl⟩ := mem_updateWhere.mp ho'
  by_cases hq : q o = true
  · rw [if_pos hq] at hrun ⊢
    exact ⟨o, ho, hf o hq hrun, (hid o).symm, (htype o).symm⟩
  · rw [if_neg hq] at hrun ⊢
    exact ⟨o, ho, hrun, rfl, rfl⟩

/-- A deletion that leaves every running reindex a task. -/
theorem AttemptInv.of_deleted (h : AttemptInv seens db) {p : Chunk → Bool}
    (hnow : db'.now = db.now)
    (htasks : db'.reprocessing.reindexTasks =
      deleteWhere (fun t => chunkIs db p t.chunkId) db.reprocessing.reindexTasks)
    (hids : db'.reprocessing.operations.map (·.id) = db.reprocessing.operations.map (·.id))
    (hoperations : ∀ o' ∈ db'.reprocessing.operations, o'.state = .running →
      ∃ o ∈ db.reprocessing.operations, o.state = .running ∧ o.id = o'.id ∧
        o.operationType = o'.operationType) (hsurvives : survives db p = true) :
    AttemptInv seens db' := by
  have htame : Tame db db' := by
    refine ⟨⟨?_, hids⟩, hnow, fun t' ht' => Or.inl ?_, hoperations⟩
    · rw [htasks]
      exact List.filter_sublist.map _
    · rw [htasks] at ht'
      exact (mem_deleteWhere.mp ht').1
  refine h.tame htame (htame.works fun o ho hrun _ => hasOpenTask_iff.mpr ?_)
  have hkept := of_decide_eq_true (List.all_eq_true.mp hsurvives o ho) hrun
  obtain ⟨t, ht, hcond⟩ := List.any_eq_true.mp hkept
  obtain ⟨hop, hopen, hstays⟩ := of_decide_eq_true hcond
  rw [htasks]
  exact ⟨t, mem_deleteWhere.mpr ⟨ht, Bool.eq_false_of_not_eq_true hstays⟩, hop, hopen⟩

/-- An operation is started again with a task to claim and no spent lease. -/
theorem AttemptInv.started (h : AttemptInv seens db) (hkeys : KeysKept db db')
    (hnow : db'.now = db.now)
    (htasks : ∀ t' ∈ db'.reprocessing.reindexTasks, t' ∈ db.reprocessing.reindexTasks ∨
      (t'.state = .queued ∧ t'.attempt < 3))
    (hkeeps : ∀ o, hasOpenTask db o = true → hasOpenTask db' o = true)
    (hoperations : ∀ o' ∈ db'.reprocessing.operations, o'.state = .running →
      (∃ o ∈ db.reprocessing.operations, o.state = .running ∧ o.id = o'.id ∧
        o.operationType = o'.operationType) ∨
      (leaseSpent db o'.id db.now = false ∧
        (o'.operationType = .reindex → hasOpenTask db' o'.id = true))) : AttemptInv seens db' where
  taskKeys := h.taskKeys_kept hkeys
  operationKeys := h.operationKeys_kept hkeys
  queued t' ht' hqueued := by
    rcases htasks t' ht' with hold | ⟨-, hbelow⟩
    · exact h.queued t' hold hqueued
    · exact hbelow
  leases seen hseen t' ht' hclaim := by
    rcases htasks t' ht' with hold | ⟨-, hbelow⟩
    · rcases List.mem_cons.mp hseen with rfl | hseen
      · simp only [isClaimableTask, decide_eq_true_eq] at hclaim
        obtain ⟨hruns, hstate⟩ := hclaim
        obtain ⟨o', ho', hid', hrun'⟩ := operationRuns_iff.mp hruns
        rcases hstate with hqueued | ⟨hrunning, hexpired⟩
        · exact h.queued t' hold hqueued
        rw [hnow] at hexpired
        rcases hoperations o' ho' hrun' with ⟨o, ho, hrun, hid, -⟩ | ⟨hfresh, -⟩
        · refine h.leases db List.mem_cons_self t' hold ?_
          simp only [isClaimableTask, decide_eq_true_eq]
          exact ⟨operationRuns_iff.mpr ⟨o, ho, hid.trans hid', hrun⟩,
            Or.inr ⟨hrunning, hexpired⟩⟩
        · -- a third lease that was over would have been seen
          by_contra hthree
          have hspent := List.any_eq_false.mp hfresh t' hold
          exact hspent (decide_eq_true ⟨hid'.symm, Nat.not_lt.mp hthree, hrunning, hexpired⟩)
      · exact h.leases seen (List.mem_cons_of_mem _ hseen) t' hold hclaim
    · exact hbelow
  works o' ho' hrun' := by
    obtain ⟨htype, hstate⟩ := of_decide_eq_true hrun'
    rcases hoperations o' ho' hstate with ⟨o, ho, hrun, hid, htypes⟩ | ⟨-, hwork⟩
    · rw [← hid]
      exact hkeeps o.id (h.works o ho (decide_eq_true ⟨htypes.trans htype, hrun⟩))
    · exact hwork htype

/-! ## The first step of a call -/

/-- The clock moves, and no third lease of a running operation is over. -/
theorem tick_attempts (h : AttemptInv seens db) {elapsed : Time}
    (hkeeps : callKeeps db (.tick elapsed) = true) :
    AttemptInv seens { db with now := db.now + elapsed } where
  taskKeys := h.taskKeys
  operationKeys := h.operationKeys
  queued := h.queued
  leases seen hseen t ht hclaim := by
    rcases List.mem_cons.mp hseen with rfl | hseen
    · simp only [isClaimableTask, decide_eq_true_eq] at hclaim
      obtain ⟨hruns, hqueued | ⟨hrunning, hexpired⟩⟩ := hclaim
      · exact h.queued t ht hqueued
      · obtain ⟨o, ho, hid, hrun⟩ := operationRuns_iff.mp hruns
        have hunspent := of_decide_eq_true (List.all_eq_true.mp hkeeps o ho) hrun
        by_contra hthree
        refine hunspent (List.any_eq_true.mpr ⟨t, ht, ?_⟩)
        exact decide_eq_true ⟨hid.symm, Nat.not_lt.mp hthree, hrunning, hexpired⟩
    · exact h.leases seen (List.mem_cons_of_mem _ hseen) t ht hclaim
  works := h.works

variable {token : Option HexText} {r : Bool}

theorem resume_attempts (h : AttemptInv seens db)
    (hkeeps : callKeeps db (.resume token operationId) = true)
    (hres : v10AdminResumeReprocessing db token operationId = .ok (db', r)) :
    AttemptInv seens db' := by
  have hok : (v10AdminResumeReprocessing db token operationId).isOk = true := by
    rw [hres]
    rfl
  obtain rfl := v10AdminResumeReprocessing_ok hres
  have hids := map_updateWhere (p := fun o => o.id = operationId ∧ o.state = .paused)
    (f := fun o => { o with state := .running }) (g := (·.id)) (fun _ => rfl)
    db.reprocessing.operations
  refine h.started (.of_operations rfl hids) rfl (fun t' ht' => Or.inl ht')
    (fun _ hopen => hopen) fun o' ho' hrun' => ?_
  obtain ⟨o, ho, rfl⟩ := mem_updateWhere.mp ho'
  by_cases hrow : o.id = operationId ∧ o.state = .paused
  · rw [if_pos (decide_eq_true hrow)]
    obtain ⟨hunspent, hwork⟩ :=
      of_decide_eq_true (List.all_eq_true.mp hkeeps o ho) ⟨hok, hrow⟩
    exact Or.inr ⟨Bool.eq_false_of_not_eq_true hunspent, hwork⟩
  · rw [if_neg (by simpa using hrow)] at hrun' ⊢
    exact Or.inl ⟨o, ho, hrun', rfl, rfl⟩

/-- The tasks after a retry: a failed one below its third attempt is queued. -/
theorem mem_retriedWork {operation : ReprocessingOperation} {t' : ReindexTask}
    (h : t' ∈ (retriedWork db operation).reprocessing.reindexTasks) :
    t' ∈ db.reprocessing.reindexTasks ∨ (t'.state = .queued ∧ t'.attempt < 3) := by
  unfold retriedWork at h
  split at h
  · obtain ⟨t, ht, rfl⟩ := mem_updateWhere.mp h
    by_cases hrow : t.operationId = operation.id ∧ t.state = .failed ∧ t.attempt < 3
    · rw [if_pos (decide_eq_true hrow)]
      exact Or.inr ⟨rfl, hrow.2.2⟩
    · rw [if_neg (by simpa using hrow)]
      exact Or.inl ht
  · exact Or.inl h

/-- An open task stays open, and one a retry queues is. -/
theorem hasOpenTask_retriedWork {operation : ReprocessingOperation} {o : OperationId}
    (ht : t ∈ db.reprocessing.reindexTasks) (hop : t.operationId = o)
    (hopen : isOpenTask t = true ∨ (operation.operationType = .reindex ∧ o = operation.id ∧
      t.state = .failed ∧ t.attempt < 3)) : hasOpenTask (retriedWork db operation) o = true := by
  rw [hasOpenTask_iff]
  unfold retriedWork
  split
  · by_cases hrow : t.operationId = operation.id ∧ t.state = .failed ∧ t.attempt < 3
    · refine ⟨_, mem_updateWhere.mpr ⟨t, ht, rfl⟩, ?_⟩
      rw [if_pos (decide_eq_true hrow)]
      exact ⟨hop, rfl⟩
    · refine ⟨t, mem_updateWhere.mpr ⟨t, ht, ?_⟩, hop, ?_⟩
      · rw [if_neg (by simpa using hrow)]
      rcases hopen with hopen | ⟨-, hid, hfailed⟩
      · exact hopen
      · exact absurd ⟨hop.trans hid, hfailed⟩ hrow
  next htype =>
    rcases hopen with hopen | ⟨hreindex, -⟩
    · exact ⟨t, ht, hop, hopen⟩
    · rw [htype] at hreindex
      cases hreindex

theorem retriedWork_taskKeys (db : Db) (operation : ReprocessingOperation) :
    (retriedWork db operation).reprocessing.reindexTasks.map taskKey =
      db.reprocessing.reindexTasks.map taskKey := by
  unfold retriedWork
  split
  · have hkey : ∀ t : ReindexTask, taskKey { t with
        state := .queued, error := none
        leaseOwner := none, leaseToken := none, leaseExpiresAt := none } = taskKey t := fun _ => rfl
    exact map_updateWhere hkey _
  · rfl

theorem retry_attempts (h : AttemptInv seens db)
    (hkeeps : callKeeps db (.retry token operationId) = true)
    (hres : v10AdminRetryReprocessing db token operationId = .ok (db', r)) :
    AttemptInv seens db' := by
  have hok : (v10AdminRetryReprocessing db token operationId).isOk = true := by
    rw [hres]
    rfl
  rcases v10AdminRetryReprocessing_ok hres with rfl | ⟨operation, hmem, rfl, hfailed, rfl⟩
  · exact h
  obtain ⟨hoperations, hnow, -⟩ := retriedWork_untouched db operation
  obtain ⟨hunspent, hwork⟩ := of_decide_eq_true (List.all_eq_true.mp hkeeps operation hmem)
    ⟨hok, rfl, hfailed⟩
  have hids : (updateWhere (fun o => o.id = operation.id) retriedOperation
      (retriedWork db operation).reprocessing.operations).map (·.id) =
      db.reprocessing.operations.map (·.id) := by
    rw [hoperations]
    exact map_updateWhere (f := retriedOperation) (fun _ => rfl) _
  have htaskKeys : (retriedDb db operation).reprocessing.reindexTasks.map taskKey =
      db.reprocessing.reindexTasks.map taskKey := retriedWork_taskKeys db operation
  refine h.started ⟨by rw [htaskKeys], hids⟩ hnow (fun t' ht' => mem_retriedWork ht')
    (fun o hopen => ?_) fun o' ho' hrun' => ?_
  · obtain ⟨t, ht, hop, htask⟩ := hasOpenTask_iff.mp hopen
    exact hasOpenTask_retriedWork ht hop (Or.inl htask)
  unfold retriedDb at ho'
  dsimp only at ho'
  rw [hoperations] at ho'
  obtain ⟨o, ho, rfl⟩ := mem_updateWhere.mp ho'
  by_cases hrow : o.id = operation.id
  · obtain rfl := h.operationKeys.eq ho hmem hrow
    rw [if_pos (decide_eq_true hrow)]
    refine Or.inr ⟨Bool.eq_false_of_not_eq_true hunspent, fun htype => ?_⟩
    obtain ⟨t, ht, hcond⟩ := List.any_eq_true.mp (hwork htype)
    obtain ⟨hop, hretryable⟩ := of_decide_eq_true hcond
    exact hasOpenTask_retriedWork ht hop
      ((of_decide_eq_true hretryable).imp id fun hbelow => ⟨htype, rfl, hbelow⟩)
  · rw [if_neg (by simpa using hrow)] at hrun' ⊢
    exact Or.inl ⟨o, ho, hrun', rfl, rfl⟩

theorem poison_attempts (h : AttemptInv seens db) {jobId : JobId} {leaseToken : LeaseToken}
    {fencingToken : Nat} {error : String}
    (hres : v4PoisonIngestionJob db jobId leaseToken fencingToken error = .ok (db', r)) :
    AttemptInv seens db' := by
  rcases v4PoisonIngestionJob_ok hres with rfl | ⟨job, -, -, rfl⟩
  · exact h
  · exact h.of_operations rfl rfl (map_updateWhere (f := poisonedOperation) (fun _ => rfl) _)
      (running_updateWhere (fun _ => rfl) (fun _ => rfl) fun _ _ hrun => by cases hrun)

/-- A worker gives its task up: below the third attempt it is queued, else its operation ends. -/
theorem failTask_attempts (h : AttemptInv seens db) {chunkId : ChunkId} {leaseToken : LeaseToken}
    {fencingToken : Nat} {error : String}
    (hres : v10FailReindexTask db operationId chunkId leaseToken fencingToken error =
      .ok (db', r)) : AttemptInv seens db' := by
  rcases v10FailReindexTask_ok hres with rfl | ⟨task, hmem, -, rfl⟩
  · exact h
  have hqueued : ∀ t, t.attempt < 3 →
      (failedTask error t).state = .queued ∧ (failedTask error t).attempt < 3 := by
    intro t hbelow
    exact ⟨if_pos hbelow, hbelow⟩
  have htame : Tame db (failedTaskDb db task error) := by
    refine ⟨⟨?_, ?_⟩, rfl, fun t' ht' => ?_, ?_⟩
    · have hkeys := map_updateWhere (p := sameTask task) (f := failedTask error) (g := taskKey)
        (fun _ => rfl) db.reprocessing.reindexTasks
      exact hkeys ▸ List.Sublist.refl _
    · by_cases hbelow : task.attempt < 3
      · simp only [failedTaskDb, if_pos hbelow]
      · simp only [failedTaskDb, if_neg hbelow]
        exact map_updateWhere (f := failedOperation) (fun _ => rfl) _
    · obtain ⟨t, ht, rfl⟩ := mem_updateWhere.mp ht'
      by_cases hsame : sameTask task t = true
      · rw [if_pos hsame]
        by_cases hbelow : t.attempt < 3
        · exact Or.inr (Or.inr (hqueued t hbelow))
        · exact Or.inr (Or.inl (by simp [isOpenTask, failedTask, hbelow]))
      · rw [if_neg hsame]
        exact Or.inl ht
    · by_cases hbelow : task.attempt < 3
      · intro o ho hrun
        simp only [failedTaskDb, if_pos hbelow] at ho
        exact ⟨o, ho, hrun, rfl, rfl⟩
      · simp only [failedTaskDb, if_neg hbelow]
        exact running_updateWhere (fun _ => rfl) (fun _ => rfl) fun _ _ hrun => by cases hrun
  refine h.tame htame (htame.works fun o ho hrun hstill => ?_)
  obtain ⟨t, ht, hop, hopen⟩ := hasOpenTask_iff.mp (h.works o ho hrun)
  rw [hasOpenTask_iff]
  by_cases hsame : sameTask task t = true
  · by_cases hbelow : t.attempt < 3
    · refine ⟨_, mem_updateWhere.mpr ⟨t, ht, rfl⟩, ?_⟩
      rw [if_pos hsame]
      exact ⟨hop, decide_eq_true (Or.inl (hqueued t hbelow).1)⟩
    · -- it is the task that failed, and its operation with it
      obtain ⟨hops, hchunks⟩ := of_decide_eq_true hsame
      obtain rfl := h.taskKeys.eq hmem ht (Prod.ext hops hchunks)
      obtain ⟨o', ho', hid, hrun'⟩ := hstill
      simp only [failedTaskDb, if_neg hbelow] at ho'
      obtain ⟨x, -, rfl⟩ := mem_updateWhere.mp ho'
      by_cases hrow : x.id = task.operationId
      · rw [if_pos (decide_eq_true hrow)] at hrun'
        simp [isRunningReindex, failedOperation] at hrun'
      · rw [if_neg (by simpa using hrow)] at hid
        exact absurd (hid.trans hop.symm) hrow
  · refine ⟨t, mem_updateWhere.mpr ⟨t, ht, ?_⟩, hop, hopen⟩
    rw [if_neg hsame]

theorem deleteDocument_attempts (h : AttemptInv seens db) {d : DocumentId}
    {deletionId : DeletionId} (hkeeps : callKeeps db (.deleteDocument token d deletionId) = true)
    (hres : v4AdminDeleteDocument db token d deletionId = .ok (db', ())) :
    AttemptInv seens db' := by
  have hok : (v4AdminDeleteDocument db token d deletionId).isOk = true := by
    rw [hres]
    rfl
  have hsurvives := of_decide_eq_true hkeeps hok
  obtain ⟨document, -, node, -, rfl, -, -, -, -, rfl⟩ := v4AdminDeleteDocument_ok hres
  refine h.of_deleted rfl ?_ rfl (fun o ho hrun => ⟨o, ho, hrun, rfl, rfl⟩) hsurvives
  unfold chunkIs
  simp only [decide_eq_true_eq]
  rfl

/-- The first step of a call keeps the invariant. -/
theorem begin_attempts {call : WorkCall} {p : Option Pending} (h : AttemptInv seens db)
    (hkeeps : callKeeps db call = true) (hres : begin db call = .ok (db', p)) :
    AttemptInv seens db' := by
  unfold begin at hres
  cases call with
  | tick elapsed =>
    obtain rfl := left_of_ok hres
    exact tick_attempts h hkeeps
  | pause token operationId =>
    dsimp only at hres
    split at hres
    · cases hres
    · obtain ⟨-, hres⟩ := ite_error_eq_ok.mp hres
      obtain rfl := left_of_ok hres
      exact h
  | resume token operationId =>
    obtain ⟨r, hres⟩ := ended_ok hres
    exact resume_attempts h hkeeps hres
  | cancel token operationId =>
    dsimp only at hres
    split at hres
    · cases hres
    split at hres
    · obtain rfl := left_of_ok hres
      exact h
    split at hres
    · obtain rfl := left_of_ok hres
      exact h
    · obtain rfl := left_of_ok hres
      exact h
  | retry token operationId =>
    obtain ⟨r, hres⟩ := ended_ok hres
    exact retry_attempts h hkeeps hres
  | claimJob owner leaseSeconds leaseToken =>
    obtain rfl := left_of_ok hres
    exact h
  | heartbeatJob jobId leaseToken fencingToken leaseSeconds =>
    obtain ⟨r, hres⟩ := ended_ok hres
    rcases v4HeartbeatIngestionJob_ok hres with rfl | rfl
    · exact h
    · exact h.of_eq rfl rfl
  | progressJob jobId leaseToken fencingToken report =>
    dsimp only at hres
    split at hres
    · cases hres
    next hprogress =>
      obtain rfl := left_of_ok hres
      rcases v4UpdateIngestionProgress_ok hprogress with ⟨rfl, -⟩ | ⟨job, -, -, -, rfl⟩
      · exact h
      · exact h.of_eq rfl rfl
  | requeueJob jobId leaseToken fencingToken availableAt =>
    obtain ⟨r, hres⟩ := ended_ok hres
    rcases v4RequeueIngestionJob_ok hres with rfl | rfl
    · exact h
    · exact h.of_eq rfl rfl
  | commitJob request =>
    obtain rfl := left_of_ok hres
    exact h
  | poisonJob jobId leaseToken fencingToken error =>
    obtain ⟨r, hres⟩ := ended_ok hres
    exact poison_attempts h hres
  | claimTasks request =>
    obtain rfl := left_of_ok hres
    exact h
  | commitTask request =>
    obtain rfl := left_of_ok hres
    exact h
  | failTask operationId chunkId leaseToken fencingToken error =>
    obtain ⟨r, hres⟩ := ended_ok hres
    exact failTask_attempts h hres
  | deleteDocument token d deletionId =>
    dsimp only at hres
    split at hres
    · cases hres
    next hdelete =>
      obtain rfl := left_of_ok hres
      exact deleteDocument_attempts h hkeeps hdelete

theorem ended_none {res : Except SqlError (Db × Bool)} {q : Pending}
    (h : ended res = .ok (db, some q)) : False := by
  cases res with
  | error e => cases h
  | ok r => cases h

/-- A claim that begins has the database as it is for its snapshot. -/
theorem begin_snapshot {call : WorkCall} {q : Pending} (hres : begin db call = .ok (db', some q)) :
    ∀ seen ∈ q.snapshot, seen = db' := by
  have hother : q.snapshot = none → ∀ seen ∈ q.snapshot, seen = db' := by
    intro hnone seen hseen
    rw [hnone] at hseen
    cases hseen
  unfold begin at hres
  cases call with
  | claimTasks request =>
    obtain ⟨rfl, hq⟩ := Prod.mk.inj (Except.ok.inj hres)
    obtain rfl := Option.some.inj hq
    rintro seen ⟨⟩
    rfl
  | tick elapsed => cases hres
  | pause token operationId =>
    dsimp only at hres
    split at hres
    · cases hres
    · obtain ⟨-, hres⟩ := ite_error_eq_ok.mp hres
      cases hres
      exact hother rfl
  | cancel token operationId =>
    dsimp only at hres
    split at hres
    · cases hres
    split at hres
    · cases hres
    split at hres
    · cases hres
    · cases hres
      exact hother rfl
  | claimJob owner leaseSeconds leaseToken =>
    cases hres
    exact hother rfl
  | commitJob request =>
    obtain ⟨-, hq⟩ := Prod.mk.inj (Except.ok.inj hres)
    obtain ⟨job, -, rfl⟩ := Option.map_eq_some_iff.mp hq
    exact hother rfl
  | commitTask request =>
    obtain ⟨-, hq⟩ := Prod.mk.inj (Except.ok.inj hres)
    obtain ⟨task, -, rfl⟩ := Option.map_eq_some_iff.mp hq
    exact hother rfl
  | progressJob jobId leaseToken fencingToken report =>
    dsimp only at hres
    split at hres
    · cases hres
    · cases hres
  | deleteDocument token d deletionId =>
    dsimp only at hres
    split at hres
    · cases hres
    · cases hres
  | _ => exact (ended_none hres).elim

/-! ## The later steps -/

theorem AttemptInv.mono {seens' : List Db} (h : AttemptInv seens db) (hsub : seens' ⊆ seens) :
    AttemptInv seens' db where
  taskKeys := h.taskKeys
  operationKeys := h.operationKeys
  queued := h.queued
  leases seen hseen := h.leases seen
    ((List.mem_cons.mp hseen).elim (fun heq => heq ▸ List.mem_cons_self)
      fun hmem => List.mem_cons_of_mem _ (hsub hmem))
  works := h.works

variable {seen : Db}

theorem isValidClaim_of_ok {request : ReindexClaimRequest} {locked : List (OperationId × ChunkId)}
    {r : List ReindexClaim} (h : claimReindexTasksAt seen db request locked = .ok (db', r)) :
    isValidClaim request = true := by
  unfold claimReindexTasksAt at h
  obtain ⟨hvalid, -⟩ := ite_error_eq_ok.mp h
  simp only [isValidClaim, decide_eq_true_eq]
  omega

/-- A running task that can be claimed has a lease that is over. -/
theorem expired_of_claimable {expiry : Time} (h : isClaimableTask seen t = true)
    (hrunning : t.state = .running) (hlease : t.leaseExpiresAt = some expiry) :
    expiry ≤ seen.now := by
  obtain ⟨-, hqueued | ⟨-, hexpired⟩⟩ := of_decide_eq_true h
  · rw [hrunning] at hqueued
    cases hqueued
  · rw [hlease] at hexpired
    exact of_decide_eq_true hexpired

variable {site : Site} {jobs : List JobId} {tasks : List (OperationId × ChunkId)}

/-- A claim keeps every task open, and a third lease it writes runs on in every snapshot. -/
theorem claimTasks_attempts (h : AttemptInv (site.pending.filterMap Pending.snapshot) site.db)
    {request : ReindexClaimRequest} {r : List ReindexClaim}
    (hkeeps : nextKeeps site jobs tasks (.claimTasks seen request) = true)
    (hres : claimReindexTasksAt seen site.db request tasks = .ok (db', r)) :
    AttemptInv (site.pending.filterMap Pending.snapshot) db' := by
  have hvalid := isValidClaim_of_ok hres
  obtain ⟨rfl, -⟩ := claimReindexTasksAt_ok hres
  have hlater : ∀ t ∈ site.db.reprocessing.reindexTasks,
      (chosenTasks seen site.db request.limit tasks).any (sameTask t) = true → 2 ≤ t.attempt →
      ∀ s ∈ snapshots site, operationRuns s t.operationId = true →
        s.now < seen.now + request.leaseSeconds * second := by
    intro t ht hchosen htwo s hs hruns
    have hall := of_decide_eq_true (List.all_eq_true.mp hkeeps t ht) ⟨hvalid, hchosen, htwo⟩
    exact of_decide_eq_true (List.all_eq_true.mp hall s hs) hruns
  constructor
  case taskKeys => exact h.taskKeys.updateWhere fun _ => rfl
  case operationKeys => exact h.operationKeys
  case queued =>
    intro t' ht' hqueued
    obtain ⟨t, ht, rfl⟩ := mem_updateWhere.mp ht'
    by_cases hchosen : (chosenTasks seen site.db request.limit tasks).any (sameTask t) = true
    · rw [if_pos hchosen] at hqueued
      cases hqueued
    · rw [if_neg hchosen] at hqueued ⊢
      exact h.queued t ht hqueued
  case leases =>
    intro s hs t' ht' hclaim
    -- the snapshot of a claim that begins now has the operations and the clock of before
    obtain ⟨s', hs', hruns, hnow⟩ : ∃ s' ∈ snapshots site,
        (∀ o, operationRuns s o = operationRuns s' o) ∧ s.now = s'.now := by
      rcases List.mem_cons.mp hs with rfl | hs
      · exact ⟨site.db, List.mem_cons_self, fun _ => rfl, rfl⟩
      · exact ⟨s, List.mem_cons_of_mem _ hs, fun _ => rfl, rfl⟩
    obtain ⟨t, ht, rfl⟩ := mem_updateWhere.mp ht'
    by_cases hchosen : (chosenTasks seen site.db request.limit tasks).any (sameTask t) = true
    · rw [if_pos hchosen] at hclaim ⊢
      by_contra hthree
      have hclaimed := isClaimableTask_runs hclaim
      have hrun := (hruns t.operationId).symm.trans hclaimed
      have hexpired := expired_of_claimable hclaim rfl rfl
      have htwo : 2 ≤ t.attempt := Nat.le_of_succ_le_succ (Nat.not_lt.mp hthree)
      have hlive := hlater t ht hchosen htwo s' hs' hrun
      rw [← hnow] at hlive
      exact Nat.lt_irrefl _ (Nat.lt_of_lt_of_le hlive hexpired)
    · rw [if_neg hchosen] at hclaim ⊢
      refine h.leases s' hs' t ht ?_
      simp only [isClaimableTask, hruns, hnow] at hclaim ⊢
      exact hclaim
  case works =>
    intro o ho hrun
    obtain ⟨t, ht, hop, hopen⟩ := hasOpenTask_iff.mp (h.works o ho hrun)
    refine hasOpenTask_iff.mpr ⟨_, mem_updateWhere.mpr ⟨t, ht, rfl⟩, ?_⟩
    by_cases hchosen : (chosenTasks seen site.db request.limit tasks).any (sameTask t) = true
    · rw [if_pos hchosen]
      exact ⟨hop, rfl⟩
    · rw [if_neg hchosen]
      exact ⟨hop, hopen⟩

/-- A commit of a task that saw all the others done moves the operation on. -/
theorem countTask_attempts {counted : Db}
    (h : AttemptInv (site.pending.filterMap Pending.snapshot) site.db) {request : ReindexRequest}
    {target : ReindexTarget} {counts : Nat × Nat}
    (hkeeps : nextKeeps site jobs tasks (.countTask request target counts) = true)
    (hres : countedReindex (storeReindexTask site.db request target) request.operationId counts =
      .ok counted) : AttemptInv (site.pending.filterMap Pending.snapshot) counted := by
  unfold countedReindex at hres
  obtain ⟨-, hres⟩ := ite_error_eq_ok.mp hres
  obtain rfl := Except.ok.inj hres
  have hstate : ∀ o, (countedTasks counts o).state = .running →
      counts.1 ≠ counts.2 ∧ o.state = .running := by
    intro o hrun
    unfold countedTasks at hrun
    by_cases hlast : counts.1 = counts.2
    · simp [hlast] at hrun
    · simp only [if_neg hlast] at hrun
      exact ⟨hlast, hrun⟩
  have htame : Tame site.db { storeReindexTask site.db request target with
      reprocessing.operations := updateWhere (fun o => o.id = request.operationId)
        (countedTasks counts) (storeReindexTask site.db request target).reprocessing.operations } := by
    refine ⟨⟨?_, map_updateWhere (f := countedTasks counts) (fun _ => rfl) _⟩, rfl,
      fun t' ht' => ?_, running_updateWhere (fun _ => rfl) (fun _ => rfl)
        fun o _ hrun => (hstate o hrun).2⟩
    · have hkeys := map_updateWhere (f := completedTask) (g := taskKey)
        (p := fun t => t.operationId = request.operationId ∧ t.chunkId = request.chunkId)
        (fun _ => rfl) site.db.reprocessing.reindexTasks
      exact hkeys ▸ List.Sublist.refl _
    · obtain ⟨t, ht, rfl⟩ := mem_updateWhere.mp ht'
      by_cases hrow : t.operationId = request.operationId ∧ t.chunkId = request.chunkId
      · rw [if_pos (decide_eq_true hrow)]
        exact Or.inr (Or.inl rfl)
      · rw [if_neg (by simpa using hrow)]
        exact Or.inl ht
  have hstays : ∀ o, ∀ t ∈ site.db.reprocessing.reindexTasks, t.operationId = o →
      isOpenTask t = true → ¬ (o = request.operationId ∧ t.chunkId = request.chunkId) →
      hasOpenTask { storeReindexTask site.db request target with
        reprocessing.operations := updateWhere (fun o => o.id = request.operationId)
          (countedTasks counts)
          (storeReindexTask site.db request target).reprocessing.operations } o = true := by
    intro o t ht hop hopen hother
    refine hasOpenTask_iff.mpr ⟨t, mem_updateWhere.mpr ⟨t, ht, ?_⟩, hop, hopen⟩
    rw [if_neg]
    rw [hop]
    simpa using hother
  refine h.tame htame (htame.works fun o ho hrun hstill => ?_)
  by_cases hid : o.id = request.operationId
  · obtain ⟨o', ho', hid', hrun'⟩ := hstill
    obtain ⟨x, -, rfl⟩ := mem_updateWhere.mp ho'
    have hmoved : (countedTasks counts x).state = .running := by
      by_cases hrow : x.id = request.operationId
      · rw [if_pos (decide_eq_true hrow)] at hrun'
        exact (of_decide_eq_true hrun').2
      · rw [if_neg (by simpa using hrow)] at hid'
        exact absurd (hid'.trans hid) hrow
    have hother := (of_decide_eq_true hkeeps).resolve_left (hstate x hmoved).1
    obtain ⟨t, ht, hcond⟩ := List.any_eq_true.mp
      (of_decide_eq_true (List.all_eq_true.mp hother o ho) ⟨hid, hrun⟩)
    obtain ⟨hop, hopen, hchunk⟩ := of_decide_eq_true hcond
    exact hstays o.id t ht hop hopen fun hsame => hchunk hsame.2
  · obtain ⟨t, ht, hop, hopen⟩ := hasOpenTask_iff.mp (h.works o ho hrun)
    exact hstays o.id t ht hop hopen fun hsame => hid hsame.1

/-- A commit of a job replaces the chunks of its generation, and starts no operation. -/
theorem commitJob_attempts {stored : Db} (h : AttemptInv seens db) {request : IngestRequest}
    {job : IngestionJob} {target : IngestTarget}
    (hsurvives : survives db (fun c => c.documentGenerationId = job.targetGenerationId) = true)
    (hshare : shareEmbedding db request job = .ok target)
    (hstore : storeIngestion db request job target = .ok stored) : AttemptInv seens stored := by
  obtain ⟨-, hgeneration, -, -, -⟩ := shareEmbedding_ok hshare
  obtain ⟨document, operations, -, -, hcount, -, -, rfl⟩ := storeIngestion_ok hstore
  rw [← hgeneration] at hsurvives
  have hcounted : operations.map (·.id) = db.reprocessing.operations.map (·.id) ∧
      ∀ o' ∈ operations, o'.state = .running → ∃ o ∈ db.reprocessing.operations,
        o.state = .running ∧ o.id = o'.id ∧ o.operationType = o'.operationType := by
    unfold countOperation at hcount
    split at hcount
    · obtain rfl := Except.ok.inj hcount
      exact ⟨rfl, fun o ho hrun => ⟨o, ho, hrun, rfl, rfl⟩⟩
    · obtain ⟨-, hcount⟩ := ite_error_eq_ok.mp hcount
      obtain rfl := Except.ok.inj hcount
      refine ⟨map_updateWhere (f := countedOperation request.chunks.length) (fun _ => rfl) _,
        running_updateWhere (fun _ => rfl) (fun _ => rfl) fun o _ hrun => ?_⟩
      unfold countedOperation at hrun
      by_cases hlast : o.completedDocuments + 1 = o.totalDocuments
      · simp [hlast] at hrun
      · simpa [hlast] using hrun
  refine h.of_deleted rfl ?_ hcounted.1 hcounted.2 hsurvives
  unfold chunkIs
  rfl

/-- A later step of a call keeps the invariant. -/
theorem advance_attempts (h : AttemptInv (site.pending.filterMap Pending.snapshot) site.db)
    {p : Pending} {q : Option Pending} (hkeeps : nextKeeps site jobs tasks p = true)
    (hres : advance site.db jobs tasks p = .ok (db', q)) :
    AttemptInv (site.pending.filterMap Pending.snapshot) db' ∧ ∀ r ∈ q, r.snapshot = none := by
  have hok : (advance site.db jobs tasks p).isOk = true := by
    rw [hres]
    rfl
  unfold advance at hres
  cases p with
  | pause operationId =>
    obtain ⟨rfl, rfl⟩ := Prod.mk.inj (Except.ok.inj hres)
    refine ⟨h.of_operations rfl rfl ?_ ?_, by rintro r ⟨⟩⟩
    · exact map_updateWhere (f := fun o : ReprocessingOperation => { o with state := .paused }) (fun _ => rfl) _
    · exact running_updateWhere (fun _ => rfl) (fun _ => rfl) fun _ _ hrun => by cases hrun
  | cancel operationId =>
    obtain ⟨rfl, rfl⟩ := Prod.mk.inj (Except.ok.inj hres)
    refine ⟨h.of_operations rfl rfl ?_ ?_, by rintro r ⟨⟩⟩
    · exact map_updateWhere (f := fun o : ReprocessingOperation => { o with
        state := .cancelled, reasonCode := some "cancelled_by_admin" }) (fun _ => rfl) _
    · exact running_updateWhere (fun _ => rfl) (fun _ => rfl) fun _ _ hrun => by cases hrun
  | claimJob seen owner leaseSeconds leaseToken =>
    dsimp only at hres
    split at hres
    · cases hres
    next claimed _ hclaim =>
      obtain ⟨rfl, rfl⟩ := Prod.mk.inj (Except.ok.inj hres)
      refine ⟨?_, by rintro r ⟨⟩⟩
      rcases claimIngestionJobAt_ok hclaim with rfl | ⟨job, -, -, rfl⟩
      · exact h
      · exact h.of_eq rfl rfl
  | commitJob request job =>
    have hsurvives := of_decide_eq_true hkeeps hok
    dsimp only at hres
    split at hres
    · cases hres
    next hshare =>
    split at hres
    · cases hres
    next hstore =>
      obtain ⟨-, hres⟩ := ite_error_eq_ok.mp hres
      obtain ⟨rfl, rfl⟩ := Prod.mk.inj (Except.ok.inj hres)
      exact ⟨commitJob_attempts h hsurvives hshare hstore, by rintro r ⟨⟩⟩
  | claimTasks seen request =>
    dsimp only at hres
    split at hres
    · cases hres
    next hclaim =>
      obtain ⟨rfl, rfl⟩ := Prod.mk.inj (Except.ok.inj hres)
      exact ⟨claimTasks_attempts h hkeeps hclaim, by rintro r ⟨⟩⟩
  | commitTask request task =>
    dsimp only at hres
    split at hres
    · cases hres
    · obtain ⟨rfl, rfl⟩ := Prod.mk.inj (Except.ok.inj hres)
      refine ⟨h, ?_⟩
      rintro r ⟨⟩
      rfl
  | countTask request target counts =>
    dsimp only at hres
    split at hres
    · cases hres
    next hcount =>
      obtain ⟨rfl, rfl⟩ := Prod.mk.inj (Except.ok.inj hres)
      exact ⟨countTask_attempts h hkeeps hcount, by rintro r ⟨⟩⟩

/-! ## Runs -/

/-- The invariant of a site. -/
def SiteInv (site : Site) : Prop :=
  AttemptInv (site.pending.filterMap Pending.snapshot) site.db

theorem siteStep_attempts {act : Act} (hok : KeepsWork site act) (h : SiteInv site) :
    SiteInv (siteStep site act) := by
  unfold siteStep
  cases act with
  | call call =>
    dsimp only
    split
    · exact h
    next hwaits =>
      have hkeeps := hok (Bool.eq_false_of_not_eq_true hwaits)
      cases hres : begin site.db call with
      | error e => exact h
      | ok r =>
        obtain ⟨db', p⟩ := r
        have hinv := begin_attempts h hkeeps hres
        unfold SiteInv begun
        dsimp only
        rw [List.filterMap_append]
        constructor
        case taskKeys => exact hinv.taskKeys
        case operationKeys => exact hinv.operationKeys
        case queued => exact hinv.queued
        case works => exact hinv.works
        case leases =>
          intro seen hseen
          -- a snapshot that is new is the database as it is
          refine hinv.leases seen ?_
          rcases List.mem_cons.mp hseen with rfl | hseen
          · exact List.mem_cons_self
          rcases List.mem_append.mp hseen with hold | hnew
          · exact List.mem_cons_of_mem _ hold
          · obtain ⟨q, hq, hsnapshot⟩ := List.mem_filterMap.mp hnew
            obtain rfl : p = some q := Option.mem_toList.mp hq
            rw [begin_snapshot hres seen hsnapshot]
            exact List.mem_cons_self
  | next i jobs tasks =>
    dsimp only
    cases hp : site.pending[i]? with
    | none => exact h
    | some p =>
      dsimp only
      split
      · exact h
      next hwaits =>
        have hkeeps := hok p hp (Bool.eq_false_of_not_eq_true hwaits)
        cases hres : advance site.db (jobs ++ lockedJobs site.pending)
            (tasks ++ lockedTasks site.pending) p with
        | error e =>
          exact AttemptInv.mono h
            ((List.Sublist.filterMap _ (List.eraseIdx_sublist _ _)).subset)
        | ok r =>
          obtain ⟨db', q⟩ := r
          obtain ⟨hinv, hnone⟩ := advance_attempts h hkeeps hres
          cases q with
          | none =>
            exact AttemptInv.mono hinv
              ((List.Sublist.filterMap _ (List.eraseIdx_sublist _ _)).subset)
          | some q =>
            refine AttemptInv.mono hinv fun seen hseen => ?_
            obtain ⟨x, hx, hsnapshot⟩ := List.mem_filterMap.mp hseen
            rcases List.mem_or_eq_of_mem_set hx with hold | rfl
            · exact List.mem_filterMap.mpr ⟨x, hold, hsnapshot⟩
            · rw [hnone x rfl] at hsnapshot
              cases hsnapshot

/-- Where no claim raises, no task that can be claimed has its attempts behind it: a claim that finds
every other row locked takes it. -/
theorem attempt_of_live (hkeys : Keyed taskKey db.reprocessing.reindexTasks)
    (hlive : ReindexLive ⟨db, []⟩) : ∀ t ∈ db.reprocessing.reindexTasks,
      isClaimableTask db t = true → t.attempt < 3 := by
  intro t ht hclaim
  by_contra hthree
  let locked := (db.reprocessing.reindexTasks.filter fun u => taskKey u ≠ taskKey t).map taskKey
  obtain ⟨⟨_, _⟩, hr⟩ := hlive.claims db List.mem_cons_self ⟨"a", 5, 1, 0⟩ (by decide) locked
  obtain ⟨-, hbelow⟩ := claimReindexTasksAt_ok hr
  have honly : ∀ u ∈ db.reprocessing.reindexTasks, taskKey u ∉ locked → u = t := by
    intro u hu hfree
    refine hkeys.eq hu ht ?_
    by_contra hne
    exact hfree (List.mem_map.mpr ⟨u, List.mem_filter.mpr ⟨hu, decide_eq_true hne⟩, rfl⟩)
  have hfree : taskKey t ∉ locked := by
    intro hmem
    obtain ⟨u, hu, hkey⟩ := List.mem_map.mp hmem
    exact of_decide_eq_true (List.mem_filter.mp hu).2 hkey
  let row (u : ReindexTask) : Option ReindexTask := db.reprocessing.reindexTasks.find? fun x =>
    sameTask x u ∧ isClaimableTask db x ∧ (x.operationId, x.chunkId) ∉ locked
  let rows := ((db.reprocessing.reindexTasks.filter (isClaimableTask db)).mergeSort taskUpTo).filterMap
    row
  have hrows : ∀ u ∈ rows, u = t := by
    intro u hu
    obtain ⟨x, -, hfind⟩ := List.mem_filterMap.mp hu
    have hcond := List.find?_some hfind
    simp only [decide_eq_true_eq] at hcond
    exact honly u (List.mem_of_find?_eq_some hfind) hcond.2.2
  have htaken : ∃ u, u ∈ rows := by
    have hrow : (row t).isSome = true := by
      refine List.find?_isSome.mpr ⟨t, ht, decide_eq_true ⟨?_, hclaim, hfree⟩⟩
      exact decide_eq_true ⟨rfl, rfl⟩
    obtain ⟨u, hu⟩ := Option.isSome_iff_exists.mp hrow
    refine ⟨u, List.mem_filterMap.mpr ⟨t, ?_, hu⟩⟩
    exact List.mem_mergeSort.mpr (List.mem_filter.mpr ⟨ht, hclaim⟩)
  have hchosen : t ∈ chosenTasks db db 1 locked := by
    have hsame : chosenTasks db db 1 locked = rows.take 1 := rfl
    rw [hsame]
    obtain ⟨u, hu⟩ := htaken
    cases hall : rows with
    | nil =>
      rw [hall] at hu
      cases hu
    | cons x xs =>
      have hx : x = t := hrows x (by rw [hall]; exact List.mem_cons_self)
      rw [hx]
      exact List.mem_cons_self
  exact hthree (hbelow t hchosen)

/-- **A reindex goes on along every run whose steps keep its work**: no claim raises, and as long
as it is running there is a task to work on. -/
theorem reindex_kept {db : Db} {acts : List Act}
    (htasks : Keyed taskKey db.reprocessing.reindexTasks)
    (hoperations : Keyed (·.id) db.reprocessing.operations)
    (hqueued : ∀ t ∈ db.reprocessing.reindexTasks, t.state = .queued → t.attempt < 3)
    (hlive : ReindexLive ⟨db, []⟩) (h : Along siteStep KeepsWork ⟨db, []⟩ acts) :
    Always siteStep ReindexLive ⟨db, []⟩ acts := by
  refine always_of_along SiteInv (fun _ hinv => AttemptInv.live hinv)
    (fun _ _ hok hinv => siteStep_attempts hok hinv) h ?_
  refine ⟨htasks, hoperations, hqueued, fun seen hseen => ?_, fun o ho hrun => ?_⟩
  · obtain rfl := List.mem_singleton.mp hseen
    exact attempt_of_live htasks hlive
  · obtain ⟨htype, hstate⟩ := of_decide_eq_true hrun
    obtain ⟨t, ht, hop, hopen⟩ := hlive.works o ho htype hstate
    exact hasOpenTask_iff.mpr ⟨t, ht, hop, decide_eq_true hopen⟩

/-! ## One task, and two -/

/-- A claim of up to eight tasks for a minute, with its token. -/
def claimActs (leaseToken : LeaseToken) : List Act :=
  [.call (.claimTasks ⟨"a", 60, 8, leaseToken⟩), .next 0 [] []]

/-- The task is claimed, and claimed again when its lease is over; the second worker commits it. -/
def reclaimActs : List Act :=
  claimActs 103 ++ [.call (.tick (60 * second))] ++ claimActs 104 ++
    [.call (.commitTask ⟨42, 0, 104, 2, 1024⟩), .next 0 [] [], .next 0 [] []]

theorem reindexLive_reindexSite : ReindexLive reindexSite := by
  refine @AttemptInv.live reindexSite ⟨by decide +kernel, by decide +kernel, ?_, ?_, ?_⟩
  · decide +kernel
  · have hclaims : ∀ t ∈ reindexSite.db.reprocessing.reindexTasks, t.attempt < 3 := by
      decide +kernel
    exact fun seen _ t ht _ => hclaims t ht
  · decide +kernel

theorem reindex_kept_reclaimed : Always siteStep ReindexLive reindexSite reclaimActs :=
  reindex_kept (by decide +kernel) (by decide +kernel) (by decide +kernel) reindexLive_reindexSite
    (by decide +kernel)

/-- Three leases of the task expire. -/
def expiredActs : List Act :=
  claimActs 103 ++ [.call (.tick (60 * second))] ++ claimActs 104 ++
    [.call (.tick (60 * second))] ++ claimActs 105 ++ [.call (.tick (60 * second))]

/-- The worker gives the task up three times, and the administrator retries the operation. -/
def retriedActs : List Act :=
  claimActs 103 ++ [.call (.failTask 42 0 103 1 "timeout")] ++ claimActs 104 ++
    [.call (.failTask 42 0 104 2 "timeout")] ++ claimActs 105 ++
    [.call (.failTask 42 0 105 3 "timeout"), .call (.retry (some (.digest 1)) 42)]

/-- The document is deleted before its task is claimed. -/
def deletedActs : List Act := [.call (.deleteDocument (some (.digest 1)) 30 50)]

/-- A reindex of a document of two chunks when both its tasks were claimed. -/
def leasedSite : Site where
  db := { reindexSite.db with
    reprocessing.reindexTasks := (reindexSite.db.reprocessing.reindexTasks ++
      reindexSite.db.reprocessing.reindexTasks.map fun t : ReindexTask => { t with chunkId := 1 }).mapIdx
        (claimedTask reindexSite.db.now ⟨"a", 60, 8, 103⟩)
    content.chunks := reindexSite.db.content.chunks ++
      reindexSite.db.content.chunks.map fun c : Chunk => { c with id := 1, ordinal := 1 } }
  pending := []

/-- Both tasks are committed, and each commit counts before the other is there. -/
def overlappingActs : List Act :=
  [.call (.commitTask ⟨42, 0, 103, 1, 1024⟩), .call (.commitTask ⟨42, 1, 104, 1, 1024⟩),
    .next 0 [] [], .next 1 [] [], .next 0 [] [], .next 0 [] []]

/-- The operation is left running with no task to work on. -/
def stuckAfter (site : Site) (acts : List Act) : Bool :=
  (run siteStep site acts).db.reprocessing.operations.any fun o =>
    isRunningReindex o ∧ ¬ hasOpenTask (run siteStep site acts).db o.id

theorem not_live_of_stuck {acts : List Act} (h : stuckAfter site acts = true) :
    ¬ Always siteStep ReindexLive site acts := by
  intro halways
  obtain ⟨o, ho, hcond⟩ := List.any_eq_true.mp h
  obtain ⟨hrun, hstuck⟩ := of_decide_eq_true hcond
  obtain ⟨htype, hstate⟩ := of_decide_eq_true hrun
  obtain ⟨t, ht, hop, hopen⟩ := halways.last.works o ho htype hstate
  exact hstuck (hasOpenTask_iff.mpr ⟨t, ht, hop, decide_eq_true hopen⟩)

/-- After three expired leases the next claim raises. A retry that returned true, a deletion and two
commits that overlap each leave the operation running with nothing to claim. -/
theorem reindex_stuck :
    v10ClaimReindexTasks (run siteStep reindexSite expiredActs).db ⟨"a", 60, 8, 106⟩ [] =
      .error (checkViolation "reindex_tasks_attempt_check") ∧
    ¬ Always siteStep ReindexLive reindexSite expiredActs ∧
    ¬ Always siteStep ReindexLive reindexSite retriedActs ∧
    ¬ Always siteStep ReindexLive reindexSite deletedActs ∧
    ¬ Always siteStep ReindexLive leasedSite overlappingActs := by
  have hraises : v10ClaimReindexTasks (run siteStep reindexSite expiredActs).db
      ⟨"a", 60, 8, 106⟩ [] = .error (checkViolation "reindex_tasks_attempt_check") := by
    decide +kernel
  refine ⟨hraises, fun halways => ?_, not_live_of_stuck (by decide +kernel),
    not_live_of_stuck (by decide +kernel), not_live_of_stuck (by decide +kernel)⟩
  obtain ⟨r, hr⟩ := halways.last.claims _ List.mem_cons_self ⟨"a", 60, 8, 106⟩
    (by decide) []
  have hok := hraises.symm.trans hr
  cases hok

end LocalRag.Ingest
