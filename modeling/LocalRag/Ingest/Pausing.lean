import LocalRag.Ingest.Versions
import LocalRag.Ingest.Workers

/-!
# Pausing between the statements of a claim

A pause looks for running work in one statement and updates the operation in the next, and a
claim reads the operation's state without locking its row. So a claim that commits between the
two statements of a pause, or whose snapshot is older than the pause, leaves a paused operation
with running work (`paused_under_claim`): the worker's commit is refused, and so is a cancel.

`Undisturbed` rules out these orders and no others. Every step but three leaves no work running
and no operation halted that was not so before it (`Calms`, `calms_quiet`); the claims and the two
halting updates are the three, and under `Undisturbed` each of them keeps `Quiet` as well.
`pausing_safe` is the induction over a run.
-/

namespace LocalRag.Ingest

open LocalRag.Core Access Library Storage

/-- `paused` or `cancelled`. -/
def isHalted (o : ReprocessingOperation) : Bool := o.state = .paused ∨ o.state = .cancelled

def isRunningTask (t : ReindexTask) : Bool := t.state = .running

def isRunningJob (j : IngestionJob) : Bool := j.status = .running

/-- No halted operation has running work. -/
def Quiet (db : Db) : Prop :=
  ∀ o ∈ db.reprocessing.operations, isHalted o = true → hasRunningWork db o.id = false

variable {db : Db} {operationId : OperationId}

theorem hasRunningWork_eq_false :
    hasRunningWork db operationId = false ↔
      (∀ t ∈ db.reprocessing.reindexTasks, isRunningTask t = true → t.operationId ≠ operationId) ∧
      ∀ j ∈ db.content.jobs, isRunningJob j = true → j.reprocessingOperationId ≠ some operationId := by
  unfold hasRunningWork isRunningTask isRunningJob
  simp only [decide_eq_false_iff_not, decide_eq_true_eq, not_or, List.any_eq_true, not_exists,
    not_and]
  constructor
  · intro h
    exact ⟨fun t ht hrun hop => h.1 t ht hop hrun, fun j hj hrun hop => h.2 j hj hop hrun⟩
  · intro h
    exact ⟨fun t ht hop hrun => h.1 t ht hrun hop, fun j hj hop hrun => h.2 j hj hrun hop⟩

/-! ## Steps that start nothing and halt nothing -/

/-- No work runs and no operation is halted in `db'` that was not so in `db`. -/
structure Calms (db db' : Db) : Prop where
  tasks : Traced (·.operationId) isRunningTask db.reprocessing.reindexTasks
    db'.reprocessing.reindexTasks
  jobs : Traced (·.reprocessingOperationId) isRunningJob db.content.jobs db'.content.jobs
  operations : Traced (·.id) isHalted db.reprocessing.operations db'.reprocessing.operations
  jobIds : (db'.content.jobs.map (·.id)).Sublist (db.content.jobs.map (·.id))
  operationIds : db'.reprocessing.operations.map (·.id) = db.reprocessing.operations.map (·.id)

theorem Calms.refl (db : Db) : Calms db db :=
  ⟨.refl _ _ _, .refl _ _ _, .refl _ _ _, List.Sublist.refl _, rfl⟩

variable {db' : Db}

/-- What ran, or was halted, did so before. -/
theorem calms_quiet (h : Calms db db') (hquiet : Quiet db) : Quiet db' := by
  intro o' ho' hhalted'
  obtain ⟨o, ho, hhalted, hid⟩ := h.operations o' ho' hhalted'
  obtain ⟨htasks, hjobs⟩ := hasRunningWork_eq_false.mp (hquiet o ho hhalted)
  refine hasRunningWork_eq_false.mpr ⟨fun t' ht' hrun' => ?_, fun j' hj' hrun' => ?_⟩
  · obtain ⟨t, ht, hrun, hop⟩ := h.tasks t' ht' hrun'
    exact fun heq => htasks t ht hrun (hop.trans (heq.trans hid.symm))
  · obtain ⟨j, hj, hrun, hop⟩ := h.jobs j' hj' hrun'
    exact fun heq => hjobs j hj hrun (hop.trans (heq.trans (congrArg some hid.symm)))

/-- A step on jobs alone. -/
theorem Calms.of_jobs (hdb : db'.reprocessing = db.reprocessing) {q : IngestionJob → Bool}
    {f : IngestionJob → IngestionJob} (hjobs : db'.content.jobs = updateWhere q f db.content.jobs)
    (hid : ∀ j, (f j).id = j.id)
    (hf : ∀ j, q j = true → isRunningJob (f j) = true →
      isRunningJob j = true ∧ j.reprocessingOperationId = (f j).reprocessingOperationId) :
    Calms db db' where
  tasks := by
    rw [hdb]
    exact .refl _ _ _
  jobs := by
    rw [hjobs]
    exact .updateWhere hf
  operations := by
    rw [hdb]
    exact .refl _ _ _
  jobIds := by
    rw [hjobs, map_updateWhere hid]
  operationIds := by rw [hdb]

/-- A step on operations alone. -/
theorem Calms.of_operations (hcontent : db'.content = db.content)
    (htasks : db'.reprocessing.reindexTasks = db.reprocessing.reindexTasks)
    {q : ReprocessingOperation → Bool} {f : ReprocessingOperation → ReprocessingOperation}
    (hoperations : db'.reprocessing.operations = updateWhere q f db.reprocessing.operations)
    (hid : ∀ o, (f o).id = o.id)
    (hf : ∀ o, q o = true → isHalted (f o) = true → isHalted o = true) : Calms db db' where
  tasks := by
    rw [htasks]
    exact .refl _ _ _
  jobs := by
    rw [hcontent]
    exact .refl _ _ _
  operations := by
    rw [hoperations]
    exact .updateWhere fun o hq hhalted => ⟨hf o hq hhalted, (hid o).symm⟩
  jobIds := by rw [hcontent]
  operationIds := by rw [hoperations, map_updateWhere hid]

theorem Calms.trans {db'' : Db} (h : Calms db db') (h' : Calms db' db'') :
    Calms db db'' where
  tasks := h.tasks.trans h'.tasks
  jobs := h.jobs.trans h'.jobs
  operations := h.operations.trans h'.operations
  jobIds := h'.jobIds.trans h.jobIds
  operationIds := h'.operationIds.trans h.operationIds

variable {token : Option HexText} {r : Bool}

/-- A resume and a retry leave the operation running. -/
theorem v10AdminResumeReprocessing_calms
    (h : v10AdminResumeReprocessing db token operationId = .ok (db', r)) : Calms db db' := by
  obtain rfl := v10AdminResumeReprocessing_ok h
  exact .of_operations rfl rfl rfl (fun _ => rfl) fun o _ hhalted => by simp [isHalted] at hhalted

theorem retriedWork_calms (db : Db) (operation : ReprocessingOperation) :
    Calms db (retriedWork db operation) := by
  unfold retriedWork
  split
  · exact {
      tasks := .updateWhere fun t _ hrun => by simp [isRunningTask] at hrun
      jobs := .refl _ _ _
      operations := .refl _ _ _
      jobIds := List.Sublist.refl _
      operationIds := rfl }
  · exact .of_jobs rfl rfl (fun _ => rfl) fun j _ hrun => by simp [isRunningJob, retriedJob] at hrun

theorem v10AdminRetryReprocessing_calms
    (h : v10AdminRetryReprocessing db token operationId = .ok (db', r)) : Calms db db' := by
  rcases v10AdminRetryReprocessing_ok h with rfl | ⟨operation, _, _, _, rfl⟩
  · exact .refl _
  · refine (retriedWork_calms db operation).trans (.of_operations rfl rfl rfl (fun _ => rfl) ?_)
    intro o _ hhalted
    simp [isHalted, retriedOperation] at hhalted

variable {leaseToken : LeaseToken} {fencingToken : Nat}

variable {jobId : JobId} {leaseSeconds : Nat}

/-- A worker's step on its own job starts nothing. -/
theorem v4HeartbeatIngestionJob_calms
    (h : v4HeartbeatIngestionJob db jobId leaseToken fencingToken leaseSeconds = .ok (db', r)) :
    Calms db db' := by
  rcases v4HeartbeatIngestionJob_ok h with rfl | rfl
  · exact .refl _
  · exact .of_jobs rfl rfl (fun _ => rfl) fun j _ hrun => ⟨hrun, rfl⟩

theorem v4RequeueIngestionJob_calms {availableAt : Time}
    (h : v4RequeueIngestionJob db jobId leaseToken fencingToken availableAt = .ok (db', r)) :
    Calms db db' := by
  rcases v4RequeueIngestionJob_ok h with rfl | rfl
  · exact .refl _
  · exact .of_jobs rfl rfl (fun _ => rfl) fun j _ hrun => by simp [isRunningJob, requeuedJob] at hrun

theorem v4UpdateIngestionProgress_calms {stage : DocumentState} {completedUnits totalUnits : Nat}
    {r : ProgressResult}
    (h : v4UpdateIngestionProgress db jobId leaseToken fencingToken stage completedUnits
      totalUnits = .ok (db', r)) : Calms db db' := by
  rcases v4UpdateIngestionProgress_ok h with ⟨rfl, -⟩ | ⟨job, -, -, -, rfl⟩
  · exact .refl _
  · exact .of_jobs rfl rfl (fun _ => rfl) fun j _ hrun => ⟨hrun, rfl⟩

theorem v4PoisonIngestionJob_calms {error : String}
    (h : v4PoisonIngestionJob db jobId leaseToken fencingToken error = .ok (db', r)) :
    Calms db db' := by
  rcases v4PoisonIngestionJob_ok h with rfl | ⟨job, -, -, rfl⟩
  · exact .refl _
  · exact {
      tasks := .refl _ _ _
      jobs := .updateWhere fun j _ hrun => by simp [isRunningJob, poisonedJob] at hrun
      operations := .updateWhere fun o _ hhalted => by
        simp [isHalted, poisonedOperation] at hhalted
      jobIds := by
        have hids : ((poisonedDb db job error).content.jobs.map (·.id)) =
            db.content.jobs.map (·.id) := map_updateWhere (f := poisonedJob error) (fun _ => rfl) _
        rw [hids]
      operationIds := map_updateWhere (f := poisonedOperation) (fun _ => rfl) _ }

theorem v10FailReindexTask_calms {chunkId : ChunkId} {error : String}
    (h : v10FailReindexTask db operationId chunkId leaseToken fencingToken error = .ok (db', r)) :
    Calms db db' := by
  rcases v10FailReindexTask_ok h with rfl | ⟨task, -, -, rfl⟩
  · exact .refl _
  unfold failedTaskDb
  have htasks : Traced (·.operationId) isRunningTask db.reprocessing.reindexTasks
      (updateWhere (sameTask task) (failedTask error) db.reprocessing.reindexTasks) := by
    refine .updateWhere fun t _ hrun => ?_
    unfold failedTask isRunningTask at hrun
    by_cases hattempt : t.attempt < 3
    · simp [hattempt] at hrun
    · simp [hattempt] at hrun
  by_cases hattempt : task.attempt < 3
  · simp only [if_pos hattempt]
    exact ⟨htasks, .refl _ _ _, .refl _ _ _, List.Sublist.refl _, rfl⟩
  · simp only [if_neg hattempt]
    exact ⟨htasks, .refl _ _ _,
      .updateWhere fun o _ hhalted => by simp [isHalted, failedOperation] at hhalted,
      List.Sublist.refl _, map_updateWhere (f := failedOperation) (fun _ => rfl) _⟩

theorem v4AdminDeleteDocument_calms {d : DocumentId} {deletionId : DeletionId}
    (h : v4AdminDeleteDocument db token d deletionId = .ok (db', ())) : Calms db db' := by
  obtain ⟨document, -, node, -, -, -, -, -, -, rfl⟩ := v4AdminDeleteDocument_ok h
  exact {
    tasks := .deleteWhere _
    jobs := .deleteWhere _
    operations := .refl _ _ _
    jobIds := List.filter_sublist.map _
    operationIds := rfl }

/-- A commit ends its job's run and may end its operation. -/
theorem storeIngestion_calms {stored : Db} {request : IngestRequest} {job : IngestionJob}
    {target : IngestTarget} (h : storeIngestion db request job target = .ok stored) :
    Calms db stored := by
  obtain ⟨document, operations, -, -, hcount, -, -, rfl⟩ := storeIngestion_ok h
  have hids : (updateWhere (fun j => j.id = job.id) (completedJob request.chunks.length)
      db.content.jobs).map (·.id) = db.content.jobs.map (·.id) :=
    map_updateWhere (f := completedJob request.chunks.length) (fun _ => rfl) _
  have hoperations : Traced (·.id) isHalted db.reprocessing.operations operations ∧
      operations.map (·.id) = db.reprocessing.operations.map (·.id) := by
    unfold countOperation at hcount
    split at hcount
    · obtain rfl := Except.ok.inj hcount
      exact ⟨.refl _ _ _, rfl⟩
    next o =>
      obtain ⟨-, hcounted⟩ := ite_error_eq_ok.mp hcount
      obtain rfl := Except.ok.inj hcounted
      refine ⟨.updateWhere fun x _ hhalted => ⟨?_, rfl⟩,
        map_updateWhere (f := countedOperation request.chunks.length) (fun _ => rfl) _⟩
      unfold countedOperation isHalted at hhalted
      by_cases hlast : x.completedDocuments + 1 = x.totalDocuments
      · simp [hlast] at hhalted
      · simpa [hlast, isHalted] using hhalted
  exact {
    tasks := .deleteWhere _
    jobs := .updateWhere fun j _ hrun => by simp [isRunningJob, completedJob] at hrun
    operations := hoperations.1
    jobIds := by
      show ((updateWhere _ _ db.content.jobs).map _).Sublist _
      rw [hids]
    operationIds := hoperations.2 }

theorem countedReindex_calms {counted : Db} {request : ReindexRequest} {target : ReindexTarget}
    {counts : Nat × Nat}
    (h : countedReindex (storeReindexTask db request target)
      request.operationId counts = .ok counted) : Calms db counted := by
  unfold countedReindex at h
  obtain ⟨-, h⟩ := ite_error_eq_ok.mp h
  obtain rfl := Except.ok.inj h
  exact {
    tasks := .updateWhere fun t _ hrun => by simp [isRunningTask, completedTask] at hrun
    jobs := .refl _ _ _
    operations := .updateWhere fun o _ hhalted => by
      refine ⟨?_, rfl⟩
      unfold countedTasks isHalted at hhalted
      by_cases hlast : counts.1 = counts.2
      · simp [hlast] at hhalted
      · simpa [hlast, isHalted] using hhalted
    jobIds := List.Sublist.refl _
    operationIds := map_updateWhere (f := countedTasks counts) (fun _ => rfl) _ }

/-- The first step of a call starts no work and halts no operation. -/
theorem begin_calms {call : WorkCall} {p : Option Pending} (h : begin db call = .ok (db', p)) :
    Calms db db' := by
  unfold begin at h
  cases call with
  | tick elapsed =>
    obtain rfl := left_of_ok h
    exact ⟨.refl _ _ _, .refl _ _ _, .refl _ _ _, List.Sublist.refl _, rfl⟩
  | pause token operationId =>
    dsimp only at h
    split at h
    · cases h
    · obtain ⟨-, h⟩ := ite_error_eq_ok.mp h
      obtain rfl := left_of_ok h
      exact .refl _
  | resume token operationId =>
    obtain ⟨r, h⟩ := ended_ok h
    exact v10AdminResumeReprocessing_calms h
  | cancel token operationId =>
    dsimp only at h
    split at h
    · cases h
    split at h
    · obtain rfl := left_of_ok h
      exact .refl _
    split at h
    · obtain rfl := left_of_ok h
      exact .refl _
    · obtain rfl := left_of_ok h
      exact .refl _
  | retry token operationId =>
    obtain ⟨r, h⟩ := ended_ok h
    exact v10AdminRetryReprocessing_calms h
  | claimJob owner leaseSeconds leaseToken =>
    obtain rfl := left_of_ok h
    exact .refl _
  | heartbeatJob jobId leaseToken fencingToken leaseSeconds =>
    obtain ⟨r, h⟩ := ended_ok h
    exact v4HeartbeatIngestionJob_calms h
  | progressJob jobId leaseToken fencingToken report =>
    dsimp only at h
    split at h
    · cases h
    next hres =>
      obtain rfl := left_of_ok h
      exact v4UpdateIngestionProgress_calms hres
  | requeueJob jobId leaseToken fencingToken availableAt =>
    obtain ⟨r, h⟩ := ended_ok h
    exact v4RequeueIngestionJob_calms h
  | commitJob request =>
    obtain rfl := left_of_ok h
    exact .refl _
  | poisonJob jobId leaseToken fencingToken error =>
    obtain ⟨r, h⟩ := ended_ok h
    exact v4PoisonIngestionJob_calms h
  | claimTasks request =>
    obtain rfl := left_of_ok h
    exact .refl _
  | commitTask request =>
    obtain rfl := left_of_ok h
    exact .refl _
  | failTask operationId chunkId leaseToken fencingToken error =>
    obtain ⟨r, h⟩ := ended_ok h
    exact v10FailReindexTask_calms h
  | deleteDocument token d deletionId =>
    dsimp only at h
    split at h
    · cases h
    next hres =>
      obtain rfl := left_of_ok h
      exact v4AdminDeleteDocument_calms hres

/-! ## The claims and the two halting updates -/

/-- A call between two statements that was not overtaken: nothing has started to run since a pause
or a cancel looked, and no row a claim can take is a halted operation's. -/
def NotOvertaken (db : Db) : Pending → Prop
  | .pause operationId =>
    operationRuns db operationId = true → hasRunningWork db operationId = false
  | .cancel operationId => hasRunningWork db operationId = false
  | .claimJob seen _ _ _ =>
    ∀ j ∈ db.content.jobs, isClaimableJob seen j = true → ∀ o ∈ db.reprocessing.operations,
      j.reprocessingOperationId = some o.id → isHalted o = false
  | .claimTasks seen _ =>
    ∀ t ∈ db.reprocessing.reindexTasks, isClaimableTask seen t = true →
      ∀ o ∈ db.reprocessing.operations, t.operationId = o.id → isHalted o = false
  | _ => True

/-- A call that writes now was not overtaken. -/
def Undisturbed (site : Site) : Act → Prop
  | .call _ => True
  | .next i _ _ =>
    ∀ p ∈ site.pending[i]?, pendingWaits site p = false → NotOvertaken site.db p

instance decidableNotOvertaken (db : Db) : ∀ p, Decidable (NotOvertaken db p)
  | .pause operationId => inferInstanceAs (Decidable
      (operationRuns db operationId = true → hasRunningWork db operationId = false))
  | .cancel operationId => inferInstanceAs (Decidable (hasRunningWork db operationId = false))
  | .claimJob seen _ _ _ => inferInstanceAs (Decidable (∀ j ∈ db.content.jobs,
      isClaimableJob seen j = true → ∀ o ∈ db.reprocessing.operations,
        j.reprocessingOperationId = some o.id → isHalted o = false))
  | .claimTasks seen _ => inferInstanceAs (Decidable (∀ t ∈ db.reprocessing.reindexTasks,
      isClaimableTask seen t = true → ∀ o ∈ db.reprocessing.operations,
        t.operationId = o.id → isHalted o = false))
  | .commitJob _ _ => isTrue trivial
  | .commitTask _ _ => isTrue trivial
  | .countTask _ _ _ => isTrue trivial

instance decidableUndisturbed (site : Site) : ∀ act, Decidable (Undisturbed site act)
  | .call _ => isTrue trivial
  | .next i _ _ => inferInstanceAs (Decidable
      (∀ p ∈ site.pending[i]?, pendingWaits site p = false → NotOvertaken site.db p))

/-- Halting an operation whose work is not running. -/
theorem quiet_of_halting (hquiet : Quiet db) (hidle : hasRunningWork db operationId = false)
    {operations : List ReprocessingOperation}
    (hoperations : ∀ o ∈ operations, isHalted o = true → o.id = operationId ∨
      ∃ x ∈ db.reprocessing.operations, isHalted x = true ∧ x.id = o.id) :
    ∀ o ∈ operations, isHalted o = true → hasRunningWork db o.id = false := by
  intro o ho hhalted
  rcases hoperations o ho hhalted with hid | hold
  · rw [hid]
    exact hidle
  · obtain ⟨x, hx, hxhalted, hid⟩ := hold
    rw [← hid]
    exact hquiet x hx hxhalted

theorem pause_quiet (hquiet : Quiet db)
    (hidle : operationRuns db operationId = true → hasRunningWork db operationId = false) :
    Quiet (moveOperation db operationId .running .paused).1 := by
  by_cases hruns : operationRuns db operationId = true
  · refine quiet_of_halting hquiet (hidle hruns) fun o ho hhalted => ?_
    obtain ⟨x, hx, rfl⟩ := mem_updateWhere.mp ho
    by_cases hrow : x.id = operationId ∧ x.state = .running
    · rw [if_pos (decide_eq_true hrow)]
      exact Or.inl hrow.1
    · rw [if_neg (by simpa using hrow)] at hhalted ⊢
      exact Or.inr ⟨x, hx, hhalted, rfl⟩
  · -- no row is found, and none is written
    have hnone : (moveOperation db operationId .running .paused).1 = db := by
      unfold moveOperation
      dsimp only
      rw [updateWhere_eq_self]
      intro o ho
      refine decide_eq_false fun hrow => hruns ?_
      exact List.any_eq_true.mpr ⟨o, ho, decide_eq_true hrow⟩
    rw [hnone]
    exact hquiet

theorem cancelledDb_quiet (hquiet : Quiet db) (hidle : hasRunningWork db operationId = false) :
    Quiet (cancelledDb db operationId) := by
  have hhalting : ∀ o ∈ (cancelledDb db operationId).reprocessing.operations, isHalted o = true →
      hasRunningWork db o.id = false := by
    refine quiet_of_halting hquiet hidle fun o ho hhalted => ?_
    obtain ⟨x, hx, rfl⟩ := mem_updateWhere.mp ho
    by_cases hrow : x.id = operationId
    · rw [if_pos (decide_eq_true hrow)]
      exact Or.inl hrow
    · rw [if_neg (by simpa using hrow)] at hhalted ⊢
      exact Or.inr ⟨x, hx, hhalted, rfl⟩
  intro o ho hhalted
  obtain ⟨htasks, hjobs⟩ := hasRunningWork_eq_false.mp (hhalting o ho hhalted)
  exact hasRunningWork_eq_false.mpr ⟨htasks, fun j hj => hjobs j (mem_deleteWhere.mp hj).1⟩

variable {seen : Db}

/-- A claim of a job leases a row that can be claimed, and nothing else changes. -/
theorem claimIngestionJobAt_ok {owner : String} {locked : List JobId} {r : Option JobClaim}
    (h : claimIngestionJobAt seen db owner leaseSeconds leaseToken locked = .ok (db', r)) :
    db' = db ∨ ∃ job ∈ db.content.jobs, isClaimableJob seen job = true ∧
      db' = { db with
        content.jobs := updateWhere (fun j => j.id = job.id)
          (claimedJob seen.now owner leaseSeconds leaseToken) db.content.jobs } := by
  unfold claimIngestionJobAt at h
  rw [ite_error_eq_ok] at h
  obtain ⟨-, h⟩ := h
  dsimp only at h
  split at h
  · exact Or.inl (left_of_ok h).symm
  next job hpick =>
    obtain ⟨row, -, hrow⟩ := Option.bind_eq_some_iff.mp hpick
    have hclaim := List.find?_some hrow
    simp only [decide_eq_true_eq] at hclaim
    split at h
    · exact Or.inr ⟨job, List.mem_of_find?_eq_some hrow, hclaim.2,
        (left_of_ok h).symm⟩
    · exact Or.inl (left_of_ok h).symm

theorem claimJob_quiet (hquiet : Quiet db) (hjobs : Keyed (·.id) db.content.jobs) {owner : String}
    {locked : List JobId} {r : Option JobClaim}
    (hgoing : NotOvertaken db (.claimJob seen owner leaseSeconds leaseToken))
    (h : claimIngestionJobAt seen db owner leaseSeconds leaseToken locked = .ok (db', r)) :
    Quiet db' := by
  rcases claimIngestionJobAt_ok h with rfl | ⟨job, hjob, hclaim, rfl⟩
  · exact hquiet
  intro o ho hhalted
  obtain ⟨htasks, hold⟩ := hasRunningWork_eq_false.mp (hquiet o ho hhalted)
  refine hasRunningWork_eq_false.mpr ⟨htasks, fun j' hj' hrun hop => ?_⟩
  obtain ⟨j, hj, rfl⟩ := mem_updateWhere.mp hj'
  by_cases hid : j.id = job.id
  · obtain rfl := hjobs.eq hj hjob hid
    rw [if_pos (decide_eq_true rfl)] at hop
    have hfree := hgoing j hj hclaim o ho hop
    rw [hfree] at hhalted
    exact absurd hhalted (by simp)
  · rw [if_neg (by simpa using hid)] at hrun hop
    exact hold j hj hrun hop

theorem claimTasks_quiet (hquiet : Quiet db) {request : ReindexClaimRequest}
    {locked : List (OperationId × ChunkId)} {r : List ReindexClaim}
    (hgoing : NotOvertaken db (.claimTasks seen request))
    (h : claimReindexTasksAt seen db request locked = .ok (db', r)) : Quiet db' := by
  obtain ⟨rfl, -⟩ := claimReindexTasksAt_ok h
  intro o ho hhalted
  obtain ⟨hold, hjobs⟩ := hasRunningWork_eq_false.mp (hquiet o ho hhalted)
  refine hasRunningWork_eq_false.mpr ⟨fun t' ht' hrun hop => ?_, hjobs⟩
  obtain ⟨t, ht, rfl⟩ := mem_updateWhere.mp ht'
  by_cases hchosen : (chosenTasks seen db request.limit locked).any (sameTask t) = true
  · rw [if_pos hchosen] at hop
    obtain ⟨u, hu, hsame⟩ := List.any_eq_true.mp hchosen
    obtain ⟨hmem, hclaim, -⟩ := mem_chosenTasks hu
    have huop : u.operationId = o.id := (of_decide_eq_true hsame).1.symm.trans hop
    have hfree := hgoing u hmem hclaim o ho huop
    rw [hfree] at hhalted
    exact absurd hhalted (by simp)
  · rw [if_neg hchosen] at hrun hop
    exact hold t ht hrun hop

/-! ## Runs -/

/-- The invariant: the primary keys, and no halted operation with running work. -/
structure PauseInv (db : Db) : Prop where
  jobs : Keyed (·.id) db.content.jobs
  operations : Keyed (·.id) db.reprocessing.operations
  quiet : Quiet db

theorem PauseInv.of_calms (h : PauseInv db) (hcalms : Calms db db') :
    PauseInv db' where
  jobs := List.Nodup.sublist hcalms.jobIds h.jobs
  operations := by
    unfold Keyed
    rw [hcalms.operationIds]
    exact h.operations
  quiet := calms_quiet hcalms h.quiet

/-- A later step of a call that was not overtaken. -/
theorem advance_inv (h : PauseInv db) {jobs : List JobId} {tasks : List (OperationId × ChunkId)}
    {p : Pending} {q : Option Pending} (hfree : NotOvertaken db p)
    (hres : advance db jobs tasks p = .ok (db', q)) : PauseInv db' := by
  unfold advance at hres
  cases p with
  | pause operationId =>
    obtain rfl := left_of_ok hres
    refine ⟨h.jobs, h.operations.updateWhere fun _ => rfl, pause_quiet h.quiet hfree⟩
  | cancel operationId =>
    obtain rfl := left_of_ok hres
    exact ⟨h.jobs.deleteWhere _, h.operations.updateWhere fun _ => rfl,
      cancelledDb_quiet h.quiet hfree⟩
  | claimJob seen owner leaseSeconds leaseToken =>
    dsimp only at hres
    split at hres
    · cases hres
    next claimed _ hclaim =>
      obtain rfl := left_of_ok hres
      refine ⟨?_, ?_, claimJob_quiet h.quiet h.jobs hfree hclaim⟩
      · rcases claimIngestionJobAt_ok hclaim with rfl | ⟨job, -, -, rfl⟩
        · exact h.jobs
        · exact h.jobs.updateWhere fun _ => rfl
      · rcases claimIngestionJobAt_ok hclaim with rfl | ⟨job, -, -, rfl⟩
        · exact h.operations
        · exact h.operations
  | commitJob request job =>
    dsimp only at hres
    split at hres
    · cases hres
    split at hres
    · cases hres
    next stored hstore =>
      obtain ⟨-, hres⟩ := ite_error_eq_ok.mp hres
      obtain rfl := left_of_ok hres
      exact h.of_calms (storeIngestion_calms hstore)
  | claimTasks seen request =>
    dsimp only at hres
    split at hres
    · cases hres
    next claimed _ hclaim =>
      obtain rfl := left_of_ok hres
      have hquiet := claimTasks_quiet h.quiet hfree hclaim
      obtain ⟨rfl, -⟩ := claimReindexTasksAt_ok hclaim
      exact ⟨h.jobs, h.operations, hquiet⟩
  | commitTask request task =>
    dsimp only at hres
    split at hres
    · cases hres
    · obtain rfl := left_of_ok hres
      exact h
  | countTask request target counts =>
    dsimp only at hres
    split at hres
    · cases hres
    next counted hcount =>
      obtain rfl := left_of_ok hres
      exact h.of_calms (countedReindex_calms hcount)

theorem siteStep_inv {site : Site} {act : Act} (hok : Undisturbed site act)
    (h : PauseInv site.db) : PauseInv (siteStep site act).db := by
  unfold siteStep
  cases act with
  | call call =>
    dsimp only
    split
    · exact h
    · cases hres : begin site.db call with
      | error e => exact h
      | ok r => exact h.of_calms (begin_calms hres)
  | next i jobs tasks =>
    dsimp only
    cases hp : site.pending[i]? with
    | none => exact h
    | some p =>
      dsimp only
      split
      · exact h
      next hwaits =>
        have hfree := hok p hp (by simpa using hwaits)
        cases hres : advance site.db (jobs ++ lockedJobs site.pending)
            (tasks ++ lockedTasks site.pending) p with
        | error e => exact h
        | ok r =>
          obtain ⟨db', q⟩ := r
          have hinv := advance_inv h hfree hres
          cases q with
          | none => exact hinv
          | some q => exact hinv

/-- What pausing is for: no work of a paused or cancelled operation is running, so no worker holds
a lease on work of a paused operation, and an administrator who cancels one is not refused. -/
structure PauseSafe (db : Db) : Prop where
  idle : ∀ o ∈ db.reprocessing.operations, o.state = .paused ∨ o.state = .cancelled →
    (∀ t ∈ db.reprocessing.reindexTasks, t.operationId = o.id → t.state ≠ .running) ∧
    ∀ j ∈ db.content.jobs, j.reprocessingOperationId = some o.id → j.status ≠ .running
  jobKept : ∀ j ∈ db.content.jobs, ∀ o ∈ db.reprocessing.operations,
    j.reprocessingOperationId = some o.id → o.state = .paused →
    ∀ jobId leaseToken fencingToken, holdsJobLease db.now jobId leaseToken fencingToken j = false
  taskKept : ∀ t ∈ db.reprocessing.reindexTasks, ∀ o ∈ db.reprocessing.operations,
    t.operationId = o.id → o.state = .paused → ∀ request, holdsTaskLease db.now request t = false
  cancels : ∀ token actor, v4RequireAdmin db token = .ok actor →
    ∀ o ∈ db.reprocessing.operations, o.state = .paused →
      v10AdminCancelReprocessing db token o.id = .ok (cancelledDb db o.id, true)

theorem pauseSafe_of_inv (h : PauseInv db) : PauseSafe db := by
  have hidle : ∀ o ∈ db.reprocessing.operations, o.state = .paused ∨ o.state = .cancelled →
      (∀ t ∈ db.reprocessing.reindexTasks, t.operationId = o.id → t.state ≠ .running) ∧
      ∀ j ∈ db.content.jobs, j.reprocessingOperationId = some o.id → j.status ≠ .running := by
    intro o ho hstate
    have hwork := h.quiet o ho (decide_eq_true hstate)
    obtain ⟨htasks, hjobs⟩ := hasRunningWork_eq_false.mp hwork
    exact ⟨fun t ht hop hrun => htasks t ht (decide_eq_true hrun) hop,
      fun j hj hop hrun => hjobs j hj (decide_eq_true hrun) hop⟩
  refine ⟨hidle, ?_, ?_, ?_⟩
  · intro j hj o ho hop hpaused jobId leaseToken fencingToken
    by_contra hheld
    exact (hidle o ho (Or.inl hpaused)).2 j hj hop
      (holdsJobLease_running (Bool.eq_true_of_not_eq_false hheld))
  · intro t ht o ho hop hpaused request
    by_contra hheld
    have hlease := Bool.eq_true_of_not_eq_false hheld
    simp only [holdsTaskLease, holdsTaskTokens, decide_eq_true_eq] at hlease
    exact (hidle o ho (Or.inl hpaused)).1 t ht hop hlease.1.2.2.1
  · intro token actor hadmin o ho hpaused
    have hfind : db.reprocessing.operations.find? (fun x => x.id = o.id) = some o :=
      h.operations.find_eq ho
    have hwork := h.quiet o ho (decide_eq_true (Or.inl hpaused))
    unfold v10AdminCancelReprocessing
    rw [hadmin]
    dsimp only
    rw [hfind]
    dsimp only
    rw [if_neg]
    simp [hpaused, hwork]

/-- **Pausing is safe along every run no step of which is overtaken**: whatever the workers and
the administrators do in between, and whichever calls are between two statements at its start. -/
theorem pausing_safe {site : Site} {acts : List Act} (hjobs : Keyed (·.id) site.db.content.jobs)
    (hoperations : Keyed (·.id) site.db.reprocessing.operations) (hsafe : PauseSafe site.db)
    (h : Along siteStep Undisturbed site acts) :
    Always siteStep (fun s => PauseSafe s.db) site acts := by
  refine always_of_along (fun s => PauseInv s.db) (fun s => pauseSafe_of_inv)
    (fun s act => siteStep_inv) h ⟨hjobs, hoperations, fun o ho hhalted => ?_⟩
  obtain ⟨htasks, hwork⟩ := hsafe.idle o ho (of_decide_eq_true hhalted)
  exact hasRunningWork_eq_false.mpr
    ⟨fun t ht hrun hop => htasks t ht hop (of_decide_eq_true hrun),
      fun j hj hrun hop => hwork j hj hop (of_decide_eq_true hrun)⟩

/-! ## One task -/

/-- What the preview of a reindex of the one served document says. -/
def sampleReindex : ReprocessingImpact where
  operationType := .reindex
  targetProfileId := "embedding.qwen3-0.6b-1024.ollama.windows-x64"
  sourceParserVersion := none
  targetParserVersion := none
  targetChunkingVersion := none
  targetEmbeddingVersion := some "qwen3-embedding-0.6b-1024"
  targetDimension := some 1024
  documentCount := 1
  chunkCount := 1
  estimatedBytes := 4096

/-- A reindex of the one served document is started. -/
def reindexSite : Site where
  db := run ingestStep backedUpDb (servedCalls ++
    [.previewReprocessing (some (.digest 1)) 40 (some .reindex)
        "embedding.qwen3-0.6b-1024.ollama.windows-x64" none,
      .issueGrant (some (.digest 1)) 40 sampleReindex (.digest 41),
      .startReprocessing (some (.digest 1)) ⟨42, 43, 44, 45⟩ 40 sampleReindex (.digest 41)])
  pending := []

/-- Paused before the claim begins, resumed, claimed, and the task committed. -/
def orderlyActs : List Act :=
  [.call (.pause (some (.digest 1)) 42), .next 0 [] [], .call (.resume (some (.digest 1)) 42),
    .call (.claimTasks ⟨"a", 60, 8, 103⟩), .next 0 [] [],
    .call (.commitTask ⟨42, 0, 103, 1, 1024⟩), .next 0 [] [], .next 0 [] []]

example : (run siteStep reindexSite orderlyActs).db.reprocessing.operations.map (·.state) =
    [.qualifying] := by decide +kernel

theorem pauseSafe_reindexSite : PauseSafe reindexSite.db := by
  have hquiet : ∀ o ∈ reindexSite.db.reprocessing.operations, isHalted o = true →
      hasRunningWork reindexSite.db o.id = false := by decide +kernel
  exact pauseSafe_of_inv ⟨by decide +kernel, by decide +kernel, hquiet⟩

theorem pausing_safe_orderly :
    Always siteStep (fun s => PauseSafe s.db) reindexSite orderlyActs :=
  pausing_safe (by decide +kernel) (by decide +kernel) pauseSafe_reindexSite (by decide +kernel)

/-- The claim commits between the two statements of the pause. -/
def overtakenActs : List Act :=
  [.call (.pause (some (.digest 1)) 42), .call (.claimTasks ⟨"a", 60, 8, 103⟩), .next 1 [] [],
    .next 0 [] []]

/-- The operation is paused with its task running: the commit of the task is refused, and so is a
cancel of the operation. -/
theorem paused_under_claim :
    (run siteStep reindexSite overtakenActs).db.reprocessing.operations.map
      (fun o => (o.id, o.state)) = [(42, .paused)] ∧
    (run siteStep reindexSite overtakenActs).db.reprocessing.reindexTasks.map
      (fun t => (t.operationId, t.state)) = [(42, .running)] ∧
    v10CommitReindexTask (run siteStep reindexSite overtakenActs).db ⟨42, 0, 103, 1, 1024⟩ =
      .ok ((run siteStep reindexSite overtakenActs).db, false) ∧
    v10AdminCancelReprocessing (run siteStep reindexSite overtakenActs).db (some (.digest 1)) 42 =
      .ok ((run siteStep reindexSite overtakenActs).db, false) ∧
    ¬ Always siteStep (fun s => PauseSafe s.db) reindexSite overtakenActs := by
  have hpaused : ∃ o ∈ (run siteStep reindexSite overtakenActs).db.reprocessing.operations,
      o.id = 42 ∧ o.state = .paused := by decide +kernel
  have hrunning : ∃ t ∈ (run siteStep reindexSite overtakenActs).db.reprocessing.reindexTasks,
      t.operationId = 42 ∧ t.state = .running := by decide +kernel
  refine ⟨by decide +kernel, by decide +kernel, by decide +kernel, by decide +kernel, ?_⟩
  intro halways
  have hsafe : PauseSafe (run siteStep reindexSite overtakenActs).db := halways.2.2.2.2
  obtain ⟨o, ho, hid, hstate⟩ := hpaused
  obtain ⟨t, ht, hop, hrun⟩ := hrunning
  exact (hsafe.idle o ho (Or.inl hstate)).1 t ht (hop.trans hid.symm) hrun

end LocalRag.Ingest
