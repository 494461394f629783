import LocalRag.Ingest.Generations
import LocalRag.Ingest.Owned

/-!
# The accounts of a reingestion

`v10_admin_start_reprocessing` copies the total of the preview and creates a job for each document
it selects now; `v4_commit_ingestion_job` counts one more completed document and ends the operation
when the count equals the total. So the accounts are right only if the start selects as many
documents as the preview counted, and as long as the jobs that were counted are there: a deletion
takes a document with its jobs.

`Tally` is the database with a record of every job an operation was given. Every call but the
commit and the start leaves the identity, the totals and the counters of the operations alone, and
which jobs are completed (`KeptStep`); the commit turns one running job and its operation's counter
(`TallyInv.commit`), and the start adds both sides at once (`TallyInv.start`).
-/

namespace LocalRag.Ingest

open LocalRag.Core Access Library Storage

/-- The database, and every job an operation was given. -/
structure Tally where
  db : Db
  created : List (OperationId × JobId)

/-- The jobs of `db'` that `db` does not have, with their operations. -/
def newJobs (db db' : Db) : List (OperationId × JobId) :=
  (db'.content.jobs.filter fun j => ¬ db.content.jobs.any fun k => k.id = j.id).filterMap
    fun j => j.reprocessingOperationId.map fun o => (o, j.id)

/-- One transaction. -/
def tallyStep (t : Tally) (call : IngestCall) : Tally :=
  ⟨ingestStep t.db call, t.created ++ newJobs t.db (ingestStep t.db call)⟩

/-- A completed job of the operation. -/
def isCompletedOf (o : OperationId) (j : IngestionJob) : Bool :=
  j.reprocessingOperationId = some o ∧ j.status = .completed

/-- How many completed jobs the operation has. -/
def completedJobs (db : Db) (o : OperationId) : Nat := db.content.jobs.countP (isCompletedOf o)

/-- The accounts of every reingestion: it has succeeded iff all the jobs it created are completed,
its counter counts its completed jobs and stays within the total, and no job of it is queued when
it has succeeded. -/
structure Accounted (t : Tally) : Prop where
  succeeded : ∀ o ∈ t.db.reprocessing.operations, o.operationType = .reingestion →
    (o.state = .succeeded ↔ ∀ i, (o.id, i) ∈ t.created →
      ∃ j ∈ t.db.content.jobs, j.id = i ∧ isCompletedOf o.id j = true)
  counted : ∀ o ∈ t.db.reprocessing.operations, o.operationType = .reingestion →
    o.completedDocuments = completedJobs t.db o.id ∧ o.completedDocuments ≤ o.totalDocuments
  idle : ∀ o ∈ t.db.reprocessing.operations, o.operationType = .reingestion →
    o.state = .succeeded → ∀ j ∈ t.db.content.jobs, j.reprocessingOperationId = some o.id →
      j.status ≠ .queued

/-- `succeeded` and `cancelled` are not left. -/
def KeepsEnd (db db' : Db) : Prop :=
  ∀ o ∈ db.reprocessing.operations, o.state = .succeeded ∨ o.state = .cancelled →
    ∃ o' ∈ db'.reprocessing.operations, o'.id = o.id ∧ o'.state = o.state

/-! ## The condition -/

/-- No completed job of an operation satisfies `p`. -/
def sparesCompleted (db : Db) (p : IngestionJob → Bool) : Bool :=
  db.content.jobs.all fun j => p j → j.reprocessingOperationId = none ∨ j.status ≠ .completed

/-- The start selects as many documents as its preview counted, and what deletes jobs deletes no
completed job of an operation. -/
def KeepsAccounts (t : Tally) : IngestCall → Prop
  | .startReprocessing token ids previewId impact tokenHash =>
    (v10AdminStartReprocessing t.db token ids previewId impact tokenHash).isOk = true →
      impact.operationType = .reingestion →
        (reingestTargets t.db impact).length = impact.documentCount ∧ impact.documentCount ≠ 0
  | .library (.deleteDocument token d deletionId) =>
    (v4AdminDeleteDocument t.db token d deletionId).isOk = true →
      sparesCompleted t.db (fun j => j.documentId = d) = true
  | .cleanupGeneration token generationType generationId =>
    (v10AdminCleanupGeneration t.db token generationType generationId).isOk = true →
      generationType = .document →
        sparesCompleted t.db (fun j => j.targetGenerationId = generationId) = true
  | _ => True

/-! ## The invariant -/

/-- The record of created jobs has each job once and all the jobs there are, the totals and the
counters are what they count, and an operation has succeeded iff the two are equal. -/
structure TallyInv (t : Tally) : Prop where
  jobs : Keyed (·.id) t.db.content.jobs
  operations : Keyed (·.id) t.db.reprocessing.operations
  created : t.created.Nodup
  known : ∀ p ∈ t.created, ∃ o ∈ t.db.reprocessing.operations, o.id = p.1 ∧
    o.operationType = .reingestion
  rows : ∀ j ∈ t.db.content.jobs, ∀ o, j.reprocessingOperationId = some o → (o, j.id) ∈ t.created
  total : ∀ o ∈ t.db.reprocessing.operations, o.operationType = .reingestion →
    o.totalDocuments = t.created.countP fun p => p.1 = o.id
  counted : ∀ o ∈ t.db.reprocessing.operations, o.operationType = .reingestion →
    o.completedDocuments = completedJobs t.db o.id
  ended : ∀ o ∈ t.db.reprocessing.operations, o.operationType = .reingestion →
    (o.state = .succeeded ↔ o.completedDocuments = o.totalDocuments)
  cancelled : ∀ o ∈ t.db.reprocessing.operations, o.operationType = .reingestion →
    o.state = .cancelled → ∀ j ∈ t.db.content.jobs, j.reprocessingOperationId = some o.id →
      j.status = .completed

variable {t : Tally} {db db' : Db}

/-- The created pairs of the operation, and the completed ones among them. -/
def createdOf (t : Tally) (o : OperationId) : List (OperationId × JobId) :=
  t.created.filter fun p => p.1 = o

def completedOf (t : Tally) (o : OperationId) : List (OperationId × JobId) :=
  (t.db.content.jobs.filter (isCompletedOf o)).map fun j => (o, j.id)

/-- Jobs are told apart by their ids, also next to an operation. -/
theorem nodup_pairs (o : OperationId) {jobs : List IngestionJob} (h : Keyed (·.id) jobs) :
    (jobs.map fun j => (o, j.id)).Nodup := by
  refine List.Nodup.of_map Prod.snd ?_
  rw [List.map_map]
  exact h

theorem mem_completedOf {o : OperationId} {i : JobId} : (o, i) ∈ completedOf t o ↔
    ∃ j ∈ t.db.content.jobs, j.id = i ∧ isCompletedOf o j = true := by
  unfold completedOf
  simp only [List.mem_map, List.mem_filter, Prod.mk.injEq, true_and]
  exact exists_congr fun j => ⟨fun h => ⟨h.1.1, h.2, h.1.2⟩, fun h => ⟨⟨h.1, h.2.2⟩, h.2.1⟩⟩

theorem TallyInv.completed_subset (h : TallyInv t) (o : OperationId) :
    completedOf t o ⊆ createdOf t o := by
  intro p hp
  obtain ⟨j, hj, rfl⟩ := List.mem_map.mp hp
  obtain ⟨hmem, hcompleted⟩ := List.mem_filter.mp hj
  refine List.mem_filter.mpr ⟨h.rows j hmem o (of_decide_eq_true hcompleted).1, decide_eq_true rfl⟩

theorem TallyInv.completed_nodup (h : TallyInv t) (o : OperationId) :
    (completedOf t o).Nodup := by
  exact nodup_pairs o (h.jobs.filter _)

theorem length_completedOf (o : OperationId) :
    (completedOf t o).length = completedJobs t.db o := by
  unfold completedOf completedJobs
  rw [List.length_map, List.countP_eq_length_filter]

theorem length_createdOf (o : OperationId) :
    (createdOf t o).length = t.created.countP fun p => p.1 = o := by
  unfold createdOf
  rw [List.countP_eq_length_filter]

/-- The completed jobs are at most the created ones, and as many iff they are all of them. -/
theorem TallyInv.completed_eq_iff (h : TallyInv t) (o : OperationId) :
    completedJobs t.db o = (t.created.countP fun p => p.1 = o) ↔
      ∀ i, (o, i) ∈ t.created → ∃ j ∈ t.db.content.jobs, j.id = i ∧ isCompletedOf o j = true := by
  rw [← length_completedOf, ← length_createdOf]
  have hsub := (h.completed_nodup o).subperm (h.completed_subset o)
  constructor
  · intro hlength i hi
    have hperm := hsub.perm_of_length_le (Nat.le_of_eq hlength.symm)
    exact mem_completedOf.mp (hperm.mem_iff.mpr (List.mem_filter.mpr ⟨hi, decide_eq_true rfl⟩))
  · intro hall
    refine Nat.le_antisymm hsub.length_le (List.Subperm.length_le ?_)
    refine (h.created.filter _).subperm fun p hp => ?_
    obtain ⟨hmem, hop⟩ := List.mem_filter.mp hp
    obtain ⟨o', i⟩ := p
    obtain rfl : o' = o := of_decide_eq_true hop
    exact mem_completedOf.mpr (hall i hmem)

theorem TallyInv.completed_le (h : TallyInv t) (o : OperationId) :
    completedJobs t.db o ≤ t.created.countP fun p => p.1 = o := by
  rw [← length_completedOf, ← length_createdOf]
  exact ((h.completed_nodup o).subperm (h.completed_subset o)).length_le

variable {o : ReprocessingOperation}

/-- The jobs of an operation that has succeeded are completed. -/
theorem TallyInv.succeeded_rows (h : TallyInv t) (ho : o ∈ t.db.reprocessing.operations)
    (htype : o.operationType = .reingestion) (hstate : o.state = .succeeded) {j : IngestionJob}
    (hj : j ∈ t.db.content.jobs) (hop : j.reprocessingOperationId = some o.id) :
    j.status = .completed := by
  have hequal := (h.ended o ho htype).mp hstate
  rw [h.counted o ho htype, h.total o ho htype] at hequal
  obtain ⟨k, hk, hid, hcompleted⟩ :=
    (h.completed_eq_iff o.id).mp hequal j.id (h.rows j hj o.id hop)
  rw [← h.jobs.eq hk hj hid]
  exact (of_decide_eq_true hcompleted).2

theorem TallyInv.accounted (h : TallyInv t) : Accounted t where
  succeeded o ho htype := by
    rw [h.ended o ho htype, h.counted o ho htype, h.total o ho htype]
    exact h.completed_eq_iff o.id
  counted o ho htype := by
    refine ⟨h.counted o ho htype, ?_⟩
    rw [h.counted o ho htype, h.total o ho htype]
    exact h.completed_le o.id
  idle o ho htype hstate j hj hop hqueued := by
    rw [h.succeeded_rows ho htype hstate hj hop] at hqueued
    cases hqueued

/-- The operation of a running job has not ended. -/
theorem TallyInv.not_ended (h : TallyInv t) (ho : o ∈ t.db.reprocessing.operations)
    {j : IngestionJob} (hj : j ∈ t.db.content.jobs) (hop : j.reprocessingOperationId = some o.id)
    (hrunning : j.status = .running) :
    o.operationType = .reingestion ∧ o.state ≠ .succeeded ∧ o.state ≠ .cancelled := by
  obtain ⟨x, hx, hid, htype⟩ := h.known (o.id, j.id) (h.rows j hj o.id hop)
  obtain rfl := h.operations.eq hx ho hid
  refine ⟨htype, fun hstate => ?_, fun hstate => ?_⟩
  · rw [h.succeeded_rows ho htype hstate hj hop] at hrunning
    cases hrunning
  · rw [h.cancelled x ho htype hstate j hj hop] at hrunning
    cases hrunning

/-! ## Steps that leave the accounts alone -/

/-- Rows of an operation come from its rows, as completed as they were, and none that counts is
gone. -/
structure JobsKept (jobs jobs' : List IngestionJob) : Prop where
  keyed : Keyed (·.id) jobs'
  rows : ∀ j' ∈ jobs', ∀ o, j'.reprocessingOperationId = some o →
    ∃ j ∈ jobs, j.id = j'.id ∧ j.reprocessingOperationId = some o ∧
      isCompletedOf o j = isCompletedOf o j'
  counts : ∀ o, jobs'.countP (isCompletedOf o) = jobs.countP (isCompletedOf o)

variable {jobs : List IngestionJob}

theorem JobsKept.refl (hjobs : Keyed (·.id) jobs) : JobsKept jobs jobs :=
  ⟨hjobs, fun j hj _ hop => ⟨j, hj, rfl, hop, rfl⟩, fun _ => rfl⟩

theorem JobsKept.updateWhere (hjobs : Keyed (·.id) jobs) {q : IngestionJob → Bool}
    {f : IngestionJob → IngestionJob} (hid : ∀ j, (f j).id = j.id)
    (hop : ∀ j, (f j).reprocessingOperationId = j.reprocessingOperationId)
    (hf : ∀ j ∈ jobs, q j = true → ((f j).status = .completed ↔ j.status = .completed)) :
    JobsKept jobs (updateWhere q f jobs) := by
  have hcompleted : ∀ j ∈ jobs, ∀ o,
      isCompletedOf o (if q j then f j else j) = isCompletedOf o j := by
    intro j hj o
    by_cases hq : q j = true
    · rw [if_pos hq]
      unfold isCompletedOf
      rw [hop]
      exact decide_eq_decide.mpr (and_congr_right fun _ => hf j hj hq)
    · rw [if_neg hq]
  refine ⟨hjobs.updateWhere hid, fun j' hj' o ho => ?_, fun o => ?_⟩
  · obtain ⟨j, hj, rfl⟩ := mem_updateWhere.mp hj'
    refine ⟨j, hj, ?_, ?_, (hcompleted j hj o).symm⟩
    · split
      · exact (hid j).symm
      · rfl
    · split at ho
      · rwa [hop] at ho
      · exact ho
  · unfold LocalRag.Core.updateWhere
    rw [List.countP_map]
    exact List.countP_congr fun j hj => by
      show isCompletedOf o (if q j then f j else j) = true ↔ _
      rw [hcompleted j hj o]

theorem JobsKept.deleteWhere (hjobs : Keyed (·.id) jobs) {q : IngestionJob → Bool}
    (hq : ∀ j ∈ jobs, q j = true → j.reprocessingOperationId = none ∨ j.status ≠ .completed) :
    JobsKept jobs (deleteWhere q jobs) := by
  refine ⟨hjobs.deleteWhere q, fun j hj o hop => ⟨j, (mem_deleteWhere.mp hj).1, rfl, hop, rfl⟩,
    fun o => ?_⟩
  unfold LocalRag.Core.deleteWhere
  rw [List.countP_filter]
  refine List.countP_congr fun j hj => ?_
  rw [Bool.and_eq_true]
  refine ⟨And.left, fun hcompleted => ⟨hcompleted, ?_⟩⟩
  by_contra hgone
  obtain ⟨hop, hstatus⟩ := of_decide_eq_true hcompleted
  rcases hq j hj (by simpa using hgone) with hnone | hopen
  · rw [hnone] at hop
    cases hop
  · exact hopen hstatus

theorem JobsKept.append (hjobs : Keyed (·.id) jobs) {job : IngestionJob}
    (hfresh : ∀ j ∈ jobs, j.id ≠ job.id) (hnone : job.reprocessingOperationId = none) :
    JobsKept jobs (jobs ++ [job]) := by
  refine ⟨hjobs.append hfresh, fun j hj o hop => ?_, fun o => ?_⟩
  · rcases List.mem_append.mp hj with hold | hnew
    · exact ⟨j, hold, rfl, hop, rfl⟩
    · rw [List.mem_singleton.mp hnew, hnone] at hop
      cases hop
  · have hnot : isCompletedOf o job = false := decide_eq_false fun h => by
      rw [hnone] at h
      cases h.1
    rw [List.countP_append, List.countP_singleton, hnot]
    rfl

/-- The row of the same operation, with the same accounts; it has succeeded iff it had, and is
cancelled if it was. -/
structure OpKept (o o' : ReprocessingOperation) : Prop where
  id : o'.id = o.id
  type : o'.operationType = o.operationType
  total : o'.totalDocuments = o.totalDocuments
  completed : o'.completedDocuments = o.completedDocuments
  succeeded : o'.state = .succeeded ↔ o.state = .succeeded
  cancelled : o.state = .cancelled → o'.state = .cancelled

theorem OpKept.refl (o : ReprocessingOperation) : OpKept o o :=
  ⟨rfl, rfl, rfl, rfl, Iff.rfl, fun h => h⟩

/-- A step on which no account depends: an operation that is cancelled by it has nothing but
completed jobs left. -/
structure KeptStep (db db' : Db) : Prop where
  jobs : JobsKept db.content.jobs db'.content.jobs
  operations : List.Forall₂ OpKept db.reprocessing.operations db'.reprocessing.operations
  cancelled : ∀ o' ∈ db'.reprocessing.operations, o'.state = .cancelled →
    (∃ o ∈ db.reprocessing.operations, o.id = o'.id ∧ o.state = .cancelled) ∨
      ∀ j' ∈ db'.content.jobs, j'.reprocessingOperationId = some o'.id → j'.status = .completed

variable {ρ : Type}

theorem forall₂_refl {R : ρ → ρ → Prop} (hR : ∀ r, R r r) :
    ∀ rows : List ρ, List.Forall₂ R rows rows
  | [] => .nil
  | r :: rows => .cons (hR r) (forall₂_refl hR rows)

theorem forall₂_updateWhere {R : ρ → ρ → Prop} (hR : ∀ r, R r r) {q : ρ → Bool} {f : ρ → ρ}
    {rows : List ρ} (hf : ∀ r ∈ rows, q r = true → R r (f r)) :
    List.Forall₂ R rows (updateWhere q f rows) := by
  induction rows with
  | nil => exact .nil
  | cons r rows ih =>
    refine .cons ?_ (ih fun x hx => hf x (List.mem_cons_of_mem _ hx))
    show R r (if q r then f r else r)
    by_cases hq : q r = true
    · rw [if_pos hq]
      exact hf r List.mem_cons_self hq
    · rw [if_neg hq]
      exact hR r

/-- The operations are as they were. -/
theorem KeptStep.of_jobs (hjobs : JobsKept db.content.jobs db'.content.jobs)
    (hoperations : db'.reprocessing.operations = db.reprocessing.operations) : KeptStep db db' where
  jobs := hjobs
  operations := by
    rw [hoperations]
    exact forall₂_refl OpKept.refl _
  cancelled o ho hstate := by
    rw [hoperations] at ho
    exact Or.inl ⟨o, ho, rfl, hstate⟩

/-- An update of operations between states that are no end. -/
theorem KeptStep.of_operations {q : ReprocessingOperation → Bool}
    {f : ReprocessingOperation → ReprocessingOperation}
    (hjobs : JobsKept db.content.jobs db'.content.jobs)
    (hoperations : db'.reprocessing.operations = updateWhere q f db.reprocessing.operations)
    (hsame : ∀ o, (f o).id = o.id ∧ (f o).operationType = o.operationType ∧
      (f o).totalDocuments = o.totalDocuments ∧ (f o).completedDocuments = o.completedDocuments)
    (hafter : ∀ o, (f o).state ≠ .succeeded ∧ (f o).state ≠ .cancelled)
    (hbefore : ∀ o ∈ db.reprocessing.operations, q o = true →
      o.state ≠ .succeeded ∧ o.state ≠ .cancelled) : KeptStep db db' where
  jobs := hjobs
  operations := by
    rw [hoperations]
    refine forall₂_updateWhere OpKept.refl fun o ho hq => ?_
    obtain ⟨hid, htype, htotal, hcompleted⟩ := hsame o
    obtain ⟨hnot, hneither⟩ := hbefore o ho hq
    exact ⟨hid, htype, htotal, hcompleted, iff_of_false (hafter o).1 hnot, fun h => absurd h hneither⟩
  cancelled o' ho' hstate := by
    rw [hoperations] at ho'
    obtain ⟨o, ho, rfl⟩ := mem_updateWhere.mp ho'
    by_cases hq : q o = true
    · rw [if_pos hq] at hstate
      exact absurd hstate (hafter o).2
    · rw [if_neg hq] at hstate ⊢
      exact Or.inl ⟨o, ho, rfl, hstate⟩

/-- No job of an operation is new. -/
theorem newJobs_eq_nil (h : ∀ j' ∈ db'.content.jobs, ∀ o, j'.reprocessingOperationId = some o →
    ∃ j ∈ db.content.jobs, j.id = j'.id) : newJobs db db' = [] := by
  unfold newJobs
  refine List.filterMap_eq_nil_iff.mpr fun j hj => ?_
  obtain ⟨hmem, hnew⟩ := List.mem_filter.mp hj
  cases hop : j.reprocessingOperationId with
  | none => rfl
  | some o =>
    obtain ⟨k, hk, hid⟩ := h j hmem o hop
    refine absurd ?_ (of_decide_eq_true hnew)
    exact List.any_eq_true.mpr ⟨k, hk, decide_eq_true hid⟩

theorem KeptStep.keepsEnd (h : KeptStep db db') : KeepsEnd db db' := by
  intro o ho hend
  obtain ⟨o', ho', hkept⟩ := exists_of_mem_left h.operations o ho
  refine ⟨o', ho', hkept.id, ?_⟩
  rcases hend with hstate | hstate
  · rw [hstate]
    exact hkept.succeeded.mpr hstate
  · rw [hstate]
    exact hkept.cancelled hstate

theorem TallyInv.kept (h : TallyInv t) (hstep : KeptStep t.db db') :
    TallyInv ⟨db', t.created ++ newJobs t.db db'⟩ := by
  have hnone : newJobs t.db db' = [] := newJobs_eq_nil fun j' hj' o hop => by
    obtain ⟨j, hj, hid, -⟩ := hstep.jobs.rows j' hj' o hop
    exact ⟨j, hj, hid⟩
  rw [hnone, List.append_nil]
  have hrow : ∀ o' ∈ db'.reprocessing.operations, ∃ o ∈ t.db.reprocessing.operations,
      OpKept o o' := exists_of_mem_right hstep.operations
  constructor
  case jobs => exact hstep.jobs.keyed
  case operations =>
    unfold Keyed
    rw [← map_eq_map_of_pairs hstep.operations fun _ _ hkept => hkept.id.symm]
    exact h.operations
  case created => exact h.created
  case known =>
    intro p hp
    obtain ⟨o, ho, hid, htype⟩ := h.known p hp
    obtain ⟨o', ho', hkept⟩ := exists_of_mem_left hstep.operations o ho
    exact ⟨o', ho', hkept.id.trans hid, hkept.type.trans htype⟩
  case rows =>
    intro j' hj' o hop
    obtain ⟨j, hj, hid, hold, -⟩ := hstep.jobs.rows j' hj' o hop
    rw [← hid]
    exact h.rows j hj o hold
  case total =>
    intro o' ho' htype
    obtain ⟨o, ho, hkept⟩ := hrow o' ho'
    rw [hkept.total, hkept.id]
    exact h.total o ho (hkept.type.symm.trans htype)
  case counted =>
    intro o' ho' htype
    obtain ⟨o, ho, hkept⟩ := hrow o' ho'
    rw [hkept.completed, hkept.id]
    exact (h.counted o ho (hkept.type.symm.trans htype)).trans (hstep.jobs.counts o.id).symm
  case ended =>
    intro o' ho' htype
    obtain ⟨o, ho, hkept⟩ := hrow o' ho'
    rw [hkept.succeeded, hkept.completed, hkept.total]
    exact h.ended o ho (hkept.type.symm.trans htype)
  case cancelled =>
    intro o' ho' htype hstate j' hj' hop
    rcases hstep.cancelled o' ho' hstate with ⟨o, ho, hid, hold⟩ | hall
    · obtain ⟨x, hx, hkept⟩ := hrow o' ho'
      obtain rfl := h.operations.eq hx ho (hkept.id.symm.trans hid.symm)
      obtain ⟨j, hj, hjid, hjop, hsame⟩ := hstep.jobs.rows j' hj' o'.id hop
      have hcompleted := h.cancelled x hx (hkept.type.symm.trans htype) hold j hj
        (hjop.trans (congrArg some hid.symm))
      have htrue : isCompletedOf o'.id j = true := decide_eq_true ⟨hjop, hcompleted⟩
      exact (of_decide_eq_true (hsame.symm.trans htrue)).2
    · exact hall j' hj' hop

/-! ## The calls that are such steps -/

/-- A step that writes other tables. -/
theorem KeptStep.same (hjobs : Keyed (·.id) db.content.jobs)
    (hcontent : db'.content.jobs = db.content.jobs)
    (hoperations : db'.reprocessing.operations = db.reprocessing.operations) : KeptStep db db' := by
  refine .of_jobs ?_ hoperations
  rw [hcontent]
  exact .refl hjobs

/-- A call of the library adds a job without an operation, or deletes a document's jobs. -/
theorem library_kept (hjobs : Keyed (·.id) db.content.jobs) (htree : TreeInv db.library.nodes)
    {call : Call} {created : List (OperationId × JobId)}
    (hkeeps : KeepsAccounts ⟨db, created⟩ (.library call)) : KeptStep db (step db call) := by
  have hoperations := (step_untouched db call).operations
  refine .of_jobs ?_ hoperations
  have hstep := step_content htree call
  generalize hdb : (step db call).content = content at hstep
  cases hstep with
  | same => exact .refl hjobs
  | create hins =>
    obtain ⟨rfl, -, -, -, -, hjob⟩ := insertDocument_ok hins
    exact .append hjobs hjob rfl
  | @delete token d deletionId =>
    cases hres : v4AdminDeleteDocument db token d deletionId with
    | error e =>
      -- the transaction raised, and its content is the old one
      have hsame : (step db (.deleteDocument token d deletionId)).content = db.content := by
        simp only [step, hres, commit_error]
      rw [← hdb, hsame]
      exact .refl hjobs
    | ok r =>
      refine .deleteWhere hjobs fun j hj hgone => ?_
      have hspares := hkeeps (by rw [hres]; rfl)
      exact of_decide_eq_true (List.all_eq_true.mp hspares j hj) hgone
  | requeue hmem hidle hfresh => exact .append hjobs hfresh rfl

/-- A worker's call but the commit. -/
theorem jobStep_kept (h : TallyInv t) {call : JobCall} (hcommit : ∀ request, call ≠ .commit request) :
    KeptStep t.db (jobStep t.db call) := by
  -- the rows a worker writes are open, and stay so
  have hheld : ∀ {l : JobLease} {j : IngestionJob},
      l.holds t.db.now j = true → j.status ≠ .completed := by
    intro l j hlease
    rw [holdsJobLease_running hlease]
    decide
  have heffect := jobStep_effect t.db call
  generalize jobStep t.db call = after at heffect
  cases heffect with
  | same => exact .same h.jobs rfl rfl
  | tick elapsed => exact .same h.jobs rfl rfl
  | @claim owner leaseSeconds leaseToken locked job mem claimable =>
    refine .of_jobs (.updateWhere h.jobs (fun _ => rfl) (fun _ => rfl) fun j hj hq => ?_) rfl
    obtain rfl := h.jobs.eq hj mem (of_decide_eq_true hq)
    simp only [isClaimableJob, decide_eq_true_eq] at claimable
    refine iff_of_false (fun hdone => by cases hdone) fun hcompleted => ?_
    rcases claimable.1 with ⟨hqueued, -⟩ | ⟨hrunning, -⟩
    · rw [hqueued] at hcompleted
      cases hcompleted
    · rw [hrunning] at hcompleted
      cases hcompleted
  | heartbeat | progress =>
    exact .of_jobs (.updateWhere h.jobs (fun _ => rfl) (fun _ => rfl) fun _ _ _ => Iff.rfl) rfl
  | commit => exact absurd rfl (hcommit _)
  | requeue =>
    exact .of_jobs (.updateWhere h.jobs (fun _ => rfl) (fun _ => rfl) fun j _ hq =>
      iff_of_false (fun hdone => by cases hdone) (hheld hq)) rfl
  | poison l error mem held =>
    refine .of_operations (.updateWhere h.jobs (fun _ => rfl) (fun _ => rfl) fun j hj hq => ?_)
      rfl (fun _ => ⟨rfl, rfl, rfl, rfl⟩)
      (fun _ => ⟨(fun hend => by cases hend), fun hend => by cases hend⟩) fun o ho hq => ?_
    · obtain rfl := h.jobs.eq hj mem (of_decide_eq_true hq)
      exact iff_of_false (fun hdone => by cases hdone) (hheld held)
    · exact (h.not_ended ho mem (of_decide_eq_true hq) (holdsJobLease_running held)).2

variable {token : Option HexText}

variable {r : Bool}

theorem retry_kept (h : TallyInv t) {operationId : OperationId}
    (hres : v10AdminRetryReprocessing t.db token operationId = .ok (db', r)) :
    KeptStep t.db db' := by
  rcases v10AdminRetryReprocessing_ok hres with rfl | ⟨operation, hmem, -, hfailed, rfl⟩
  · exact .same h.jobs rfl rfl
  have hjobs : JobsKept t.db.content.jobs (retriedWork t.db operation).content.jobs := by
    unfold retriedWork
    split
    · exact .refl h.jobs
    · refine .updateWhere h.jobs (fun _ => rfl) (fun _ => rfl) fun j _ hq => ?_
      rw [(of_decide_eq_true hq).2]
      exact iff_of_false nofun nofun
  refine .of_operations (q := fun o => o.id = operation.id) (f := retriedOperation) hjobs ?_
    (fun _ => ⟨rfl, rfl, rfl, rfl⟩) (fun _ => ⟨nofun, nofun⟩) fun o ho hq => ?_
  · rw [← (retriedWork_untouched t.db operation).1]
    rfl
  · obtain rfl := h.operations.eq ho hmem (of_decide_eq_true hq)
    rw [hfailed]
    exact ⟨nofun, nofun⟩

/-- A cancel deletes the jobs that are neither completed nor running, and none is running. -/
theorem cancel_kept (h : TallyInv t) {operationId : OperationId}
    (hres : v10AdminCancelReprocessing t.db token operationId = .ok (db', r)) :
    KeptStep t.db db' := by
  rcases v10AdminCancelReprocessing_ok hres with rfl | ⟨operation, hmem, rfl, hstate, hidle, rfl⟩
  · exact .same h.jobs rfl rfl
  have hopen : operation.state ≠ .succeeded := by
    rcases hstate with hstate | hstate
    · rw [hstate]
      nofun
    · rw [hstate]
      nofun
  refine ⟨.deleteWhere h.jobs fun j _ hgone => Or.inr ?_, ?_, ?_⟩
  · rcases (of_decide_eq_true hgone).2 with hq | hq | hq
    · rw [hq]; nofun
    · rw [hq]; nofun
    · rw [hq]; nofun
  · refine forall₂_updateWhere OpKept.refl fun o ho hq => ?_
    obtain rfl := h.operations.eq ho hmem (of_decide_eq_true hq)
    exact ⟨rfl, rfl, rfl, rfl, iff_of_false nofun hopen, fun _ => rfl⟩
  · intro o' ho' hcancelled
    obtain ⟨o, ho, rfl⟩ := mem_updateWhere.mp ho'
    by_cases hrow : o.id = operation.id
    · rw [if_pos (decide_eq_true hrow)]
      refine Or.inr fun j hj hop => ?_
      obtain ⟨hj, hkept⟩ := mem_deleteWhere.mp hj
      have hop : j.reprocessingOperationId = some operation.id := hop.trans (congrArg some hrow)
      have hrunning : j.status ≠ .running := by
        intro hrunning
        refine of_decide_eq_false hidle (Or.inr (List.any_eq_true.mpr ⟨j, hj, ?_⟩))
        exact decide_eq_true ⟨hop, hrunning⟩
      have hleft := of_decide_eq_false hkept
      cases hstatus : j.status with
      | completed => rfl
      | running => exact absurd hstatus hrunning
      | queued => exact absurd ⟨hop, Or.inl hstatus⟩ hleft
      | failed => exact absurd ⟨hop, Or.inr (Or.inl hstatus)⟩ hleft
      | interrupted => exact absurd ⟨hop, Or.inr (Or.inr hstatus)⟩ hleft
    · rw [if_neg (by simpa using hrow)] at hcancelled ⊢
      exact Or.inl ⟨o, ho, rfl, hcancelled⟩

/-- A cleanup deletes the jobs of the generation. -/
theorem cleanup_kept (h : TallyInv t) {generationType : GenerationType}
    {generationId : GenerationId}
    (hkeeps : KeepsAccounts t (.cleanupGeneration token generationType generationId))
    (hres : v10AdminCleanupGeneration t.db token generationType generationId = .ok (db', r)) :
    KeptStep t.db db' := by
  have hspares := hkeeps (by rw [hres]; rfl)
  rcases v10AdminCleanupGeneration_ok hres with rfl | ⟨-, -, rfl⟩ | ⟨hdocument, -, rfl⟩
  · exact .same h.jobs rfl rfl
  · exact .same h.jobs rfl rfl
  · refine .of_jobs (.deleteWhere h.jobs fun j hj hgone => ?_) rfl
    exact of_decide_eq_true (List.all_eq_true.mp (hspares hdocument) j hj) hgone

/-- A pause and a resume. -/
theorem moveOperation_kept (h : TallyInv t) (operationId : OperationId)
    {source target : OperationState} (hsource : source ≠ .succeeded ∧ source ≠ .cancelled)
    (htarget : target ≠ .succeeded ∧ target ≠ .cancelled) :
    KeptStep t.db (moveOperation t.db operationId source target).1 := by
  refine .of_operations (.refl h.jobs) rfl (fun _ => ⟨rfl, rfl, rfl, rfl⟩) (fun _ => htarget)
    fun o _ hq => ?_
  rw [(of_decide_eq_true hq).2]
  exact hsource

/-- A document queued again gets a job without an operation. -/
theorem requeue_kept (h : TallyInv t) {document : Document} {jobId : JobId}
    (hfresh : ∀ j ∈ t.db.content.jobs, j.id ≠ jobId) :
    KeptStep t.db (requeuedDb t.db document jobId) :=
  .of_jobs (.append h.jobs hfresh rfl) rfl

/-- A transaction is such a step if every way it returns is. -/
theorem kept_commit (hjobs : Keyed (·.id) db.content.jobs) {res : Except SqlError (Db × ρ)}
    (hres : ∀ db' r, res = .ok (db', r) → KeptStep db db') :
    KeptStep db (LocalRag.Core.commit db res) :=
  commit_inv (fun db' : Db => KeptStep db db') (.same hjobs rfl rfl) hres

/-- Every call but the commit of a job and a start. -/
theorem ingestStep_kept (h : TallyInv t) (htree : TreeInv t.db.library.nodes) {call : IngestCall}
    (hkeeps : KeepsAccounts t call) (hcommit : ∀ request, call ≠ .job (.commit request))
    (hstart : ∀ token ids previewId impact tokenHash,
      call ≠ .startReprocessing token ids previewId impact tokenHash) :
    KeptStep t.db (ingestStep t.db call) := by
  cases call with
  | library call => exact library_kept h.jobs htree hkeeps
  | job call => exact jobStep_kept h fun request heq => hcommit request (congrArg _ heq)
  | maintenanceRequeue =>
    refine kept_commit h.jobs fun db' r heq => ?_
    rcases v4MaintenanceRequeueDocument_ok heq with rfl | ⟨_, _, _, _, hfresh, rfl⟩
    · exact .same h.jobs rfl rfl
    · exact requeue_kept h hfresh
  | documentReingest =>
    refine kept_commit h.jobs fun db' r heq => ?_
    rcases v4CommitDocumentReingest_ok heq with rfl | ⟨_, _, _, _, _, hfresh, rfl⟩
    · exact .same h.jobs rfl rfl
    · exact requeue_kept h hfresh
  | previewReprocessing =>
    refine kept_commit h.jobs fun db' r heq => ?_
    obtain ⟨_, rfl⟩ := v10AdminPreviewReprocessing_ok heq
    exact .same h.jobs rfl rfl
  | issueGrant =>
    refine kept_commit h.jobs fun db' r heq => ?_
    obtain ⟨_, rfl⟩ := v10AdminIssueReprocessingGrant_ok heq
    exact .same h.jobs rfl rfl
  | startReprocessing => exact absurd rfl (hstart _ _ _ _ _)
  | pause token operationId =>
    refine kept_commit h.jobs fun db' r heq => ?_
    obtain rfl := v10AdminPauseReprocessing_ok heq
    exact moveOperation_kept h operationId ⟨nofun, nofun⟩ ⟨nofun, nofun⟩
  | resume token operationId =>
    refine kept_commit h.jobs fun db' r heq => ?_
    obtain rfl := v10AdminResumeReprocessing_ok heq
    exact moveOperation_kept h operationId ⟨nofun, nofun⟩ ⟨nofun, nofun⟩
  | cancel => exact kept_commit h.jobs fun _ _ heq => cancel_kept h heq
  | retry => exact kept_commit h.jobs fun _ _ heq => retry_kept h heq
  | rollbackEmbedding =>
    refine kept_commit h.jobs fun db' r heq => ?_
    rcases v10AdminRollbackEmbeddingGeneration_ok heq with ⟨rfl, -⟩ | ⟨_, _, _, _, rfl, -⟩
    · exact .same h.jobs rfl rfl
    · exact .same h.jobs rfl rfl
  | cleanupGeneration => exact kept_commit h.jobs fun _ _ heq => cleanup_kept h hkeeps heq

/-! ## The commit of a job -/

/-- The job of the commit turns completed. -/
theorem countP_completed (hjobs : Keyed (·.id) jobs) {job : IngestionJob} (hjob : job ∈ jobs)
    (hopen : job.status ≠ .completed) (chunkCount : Nat) (o : OperationId) :
    (updateWhere (fun j => j.id = job.id) (completedJob chunkCount) jobs).countP (isCompletedOf o) =
      jobs.countP (isCompletedOf o) +
        if job.reprocessingOperationId = some o then 1 else 0 := by
  induction jobs with
  | nil => cases hjob
  | cons j jobs ih =>
    have hkeys := List.nodup_cons.mp hjobs
    have hcons : updateWhere (fun j => j.id = job.id) (completedJob chunkCount) (j :: jobs) =
        (if j.id = job.id then completedJob chunkCount j else j) ::
          updateWhere (fun j => j.id = job.id) (completedJob chunkCount) jobs := by
      simp [updateWhere]
    rw [hcons, List.countP_cons, List.countP_cons]
    rcases List.mem_cons.mp hjob with rfl | hrest
    · -- the others have other ids
      have hothers : updateWhere (fun k => k.id = job.id) (completedJob chunkCount) jobs = jobs := by
        exact updateWhere_eq_self fun k hk => decide_eq_false fun hid =>
          hkeys.1 (List.mem_map.mpr ⟨k, hk, hid⟩)
      have hnot : isCompletedOf o job = false := decide_eq_false fun h => hopen h.2
      have hnow : isCompletedOf o (completedJob chunkCount job) =
          decide (job.reprocessingOperationId = some o) := by
        simp [isCompletedOf, completedJob]
      rw [if_pos rfl, hothers, hnot, hnow]
      simp
    · have hne : ¬ j.id = job.id := fun hid =>
        hkeys.1 (List.mem_map.mpr ⟨job, hrest, hid.symm⟩)
      rw [if_neg hne, ih hkeys.2 hrest]
      omega

/-- The operation of a job that may be committed runs. -/
theorem TallyInv.runs (h : TallyInv t) {operationId : Option OperationId}
    (hallows : operationAllows t.db operationId = true) (ho : o ∈ t.db.reprocessing.operations)
    (hop : operationId = some o.id) : o.state = .running := by
  unfold operationAllows at hallows
  rw [hop, Option.all_some] at hallows
  obtain ⟨x, hx, hcond⟩ := List.any_eq_true.mp hallows
  obtain ⟨hid, hstate⟩ := of_decide_eq_true hcond
  obtain rfl := h.operations.eq hx ho hid
  exact hstate

/-- A counted operation has succeeded iff it was the last document. -/
theorem countedOperation_ended (hrunning : o.state = .running) (chunkCount : Nat) :
    ((countedOperation chunkCount o).state = .succeeded ↔
      o.completedDocuments + 1 = o.totalDocuments) ∧
        (countedOperation chunkCount o).state ≠ .cancelled := by
  unfold countedOperation
  dsimp only
  by_cases hlast : o.completedDocuments + 1 = o.totalDocuments
  · rw [if_pos hlast]
    exact ⟨iff_of_true rfl hlast, nofun⟩
  · rw [if_neg hlast, hrunning]
    exact ⟨iff_of_false nofun hlast, nofun⟩

/-- What the commit of a running job does to the accounts. -/
theorem TallyInv.commit (h : TallyInv t) {job : IngestionJob} (hjob : job ∈ t.db.content.jobs)
    (hrunning : job.status = .running)
    (hallows : operationAllows t.db job.reprocessingOperationId = true) {chunkCount : Nat}
    (hrows : db'.content.jobs = updateWhere (fun j => j.id = job.id) (completedJob chunkCount)
      t.db.content.jobs)
    (hcount : countOperation job.reprocessingOperationId chunkCount
      t.db.reprocessing.operations = .ok db'.reprocessing.operations) :
    TallyInv ⟨db', t.created ++ newJobs t.db db'⟩ ∧ KeepsEnd t.db db' := by
  have hopen : job.status ≠ .completed := by
    rw [hrunning]
    nofun
  have hops := countOperation_eq hcount
  have hids : db'.reprocessing.operations.map (·.id) =
      t.db.reprocessing.operations.map (·.id) := by
    rw [hops]
    exact map_updateWhere (f := countedOperation chunkCount) (fun _ => rfl) _
  have hrow : ∀ j' ∈ db'.content.jobs, ∃ j ∈ t.db.content.jobs, j.id = j'.id ∧
      j.reprocessingOperationId = j'.reprocessingOperationId ∧
      (j.status = .completed → j'.status = .completed) := by
    intro j' hj'
    rw [hrows] at hj'
    obtain ⟨j, hj, rfl⟩ := mem_updateWhere.mp hj'
    refine ⟨j, hj, ?_⟩
    split
    · exact ⟨rfl, rfl, fun _ => rfl⟩
    · exact ⟨rfl, rfl, fun hstatus => hstatus⟩
  have hnone : newJobs t.db db' = [] := newJobs_eq_nil fun j' hj' o _ => by
    obtain ⟨j, hj, hid, -⟩ := hrow j' hj'
    exact ⟨j, hj, hid⟩
  have hcounts : ∀ o, completedJobs db' o = completedJobs t.db o +
      if job.reprocessingOperationId = some o then 1 else 0 := by
    intro o
    unfold completedJobs
    rw [hrows]
    exact countP_completed h.jobs hjob hopen chunkCount o
  rw [hnone, List.append_nil]
  constructor
  · constructor
    case jobs =>
      show Keyed _ db'.content.jobs
      rw [hrows]
      exact h.jobs.updateWhere fun _ => rfl
    case operations =>
      unfold Keyed
      rw [hids]
      exact h.operations
    case created => exact h.created
    case known =>
      intro p hp
      obtain ⟨o, ho, hid, htype⟩ := h.known p hp
      refine ⟨_, hops ▸ mem_updateWhere.mpr ⟨o, ho, rfl⟩, ?_⟩
      split
      · exact ⟨hid, htype⟩
      · exact ⟨hid, htype⟩
    case rows =>
      intro j' hj' o hop
      obtain ⟨j, hj, hid, hsame, -⟩ := hrow j' hj'
      rw [← hid]
      exact h.rows j hj o (hsame.trans hop)
    case total =>
      intro o' ho' htype
      rw [hops] at ho'
      obtain ⟨o, ho, rfl⟩ := mem_updateWhere.mp ho'
      split at htype
      next hq =>
        rw [if_pos hq]
        exact h.total o ho htype
      next hq =>
        rw [if_neg hq]
        exact h.total o ho htype
    case counted =>
      intro o' ho' htype
      rw [hops] at ho'
      obtain ⟨o, ho, rfl⟩ := mem_updateWhere.mp ho'
      by_cases hop : job.reprocessingOperationId = some o.id
      · rw [if_pos (decide_eq_true hop)] at htype ⊢
        show o.completedDocuments + 1 = completedJobs db' o.id
        rw [hcounts, if_pos hop, h.counted o ho htype]
      · rw [if_neg (by simpa using hop)] at htype ⊢
        rw [hcounts, if_neg hop]
        exact h.counted o ho htype
    case ended =>
      intro o' ho' htype
      rw [hops] at ho'
      obtain ⟨o, ho, rfl⟩ := mem_updateWhere.mp ho'
      by_cases hop : job.reprocessingOperationId = some o.id
      · rw [if_pos (decide_eq_true hop)] at htype ⊢
        exact (countedOperation_ended (h.runs hallows ho hop) chunkCount).1
      · rw [if_neg (by simpa using hop)] at htype ⊢
        exact h.ended o ho htype
    case cancelled =>
      intro o' ho' htype hstate j' hj' hjop
      obtain ⟨j, hj, -, hsame, hstays⟩ := hrow j' hj'
      rw [hops] at ho'
      obtain ⟨o, ho, rfl⟩ := mem_updateWhere.mp ho'
      by_cases hop : job.reprocessingOperationId = some o.id
      · rw [if_pos (decide_eq_true hop)] at hstate
        exact absurd hstate (countedOperation_ended (h.runs hallows ho hop) chunkCount).2
      · rw [if_neg (by simpa using hop)] at htype hstate hjop
        exact hstays (h.cancelled o ho htype hstate j hj (hsame.trans hjop))
  · intro o ho hend
    refine ⟨o, hops ▸ mem_updateWhere.mpr ⟨o, ho, ?_⟩, rfl, rfl⟩
    rw [if_neg]
    intro hop
    rw [h.runs hallows ho (of_decide_eq_true hop)] at hend
    rcases hend with hend | hend
    · cases hend
    · cases hend

/-! ## The start -/

/-- The operation of a start has counted nothing yet, and waits for what the preview counted. -/
theorem insertedOperation_counts (ids : StartIds) (preview : ReprocessingPreview) :
    (insertedOperation ids preview).completedDocuments = 0 ∧
      (insertedOperation ids preview).totalDocuments = preview.impact.documentCount := by
  unfold insertedOperation
  cases preview.impact.operationType with
  | reindex => exact ⟨rfl, rfl⟩
  | reingestion => exact ⟨rfl, rfl⟩

/-- The jobs a start adds are the new ones. -/
theorem newJobs_append {added : List IngestionJob} {o : OperationId}
    (hjobs : db'.content.jobs = db.content.jobs ++ added)
    (hfresh : ∀ j ∈ db.content.jobs, ∀ j' ∈ added, j.id ≠ j'.id)
    (hadded : ∀ j ∈ added, j.reprocessingOperationId = some o) :
    newJobs db db' = added.map fun j => (o, j.id) := by
  unfold newJobs
  rw [hjobs, List.filter_append]
  have hold : (db.content.jobs.filter fun j => ¬ db.content.jobs.any fun k => k.id = j.id) = [] := by
    refine List.filter_eq_nil_iff.mpr fun j hj hnew => ?_
    refine absurd ?_ (of_decide_eq_true hnew)
    exact List.any_eq_true.mpr ⟨j, hj, decide_eq_true rfl⟩
  have hnew : (added.filter fun j => ¬ db.content.jobs.any fun k => k.id = j.id) = added := by
    refine List.filter_eq_self.mpr fun j hj => decide_eq_true fun hany => ?_
    obtain ⟨k, hk, hid⟩ := List.any_eq_true.mp hany
    exact hfresh k hk j hj (of_decide_eq_true hid)
  rw [hold, hnew, List.nil_append, ← List.filterMap_eq_map]
  refine List.filterMap_congr fun j hj => ?_
  rw [hadded j hj]
  rfl

/-- A start that adds as many jobs as its total says, at least one for a reingestion. -/
theorem TallyInv.start (h : TallyInv t) {added : List IngestionJob}
    (hoperations : db'.reprocessing.operations = t.db.reprocessing.operations ++ [o])
    (hnew : ∀ x ∈ t.db.reprocessing.operations, x.id ≠ o.id) (hrunning : o.state = .running)
    (hzero : o.completedDocuments = 0) (hjobs : db'.content.jobs = t.db.content.jobs ++ added)
    (hkeyed : Keyed (·.id) added) (hfresh : ∀ j ∈ t.db.content.jobs, ∀ j' ∈ added, j.id ≠ j'.id)
    (hadded : ∀ j ∈ added, j.reprocessingOperationId = some o.id ∧ j.status = .queued ∧
      o.operationType = .reingestion)
    (htotal : o.operationType = .reingestion →
      o.totalDocuments = added.length ∧ o.totalDocuments ≠ 0) :
    TallyInv ⟨db', t.created ++ newJobs t.db db'⟩ ∧ KeepsEnd t.db db' := by
  have hpairs := newJobs_append hjobs hfresh fun j hj => (hadded j hj).1
  -- no job of another operation is new, and no old one belongs to the new operation
  have hforeign : ∀ p ∈ t.created, p.1 ≠ o.id := by
    intro p hp hid
    obtain ⟨x, hx, hxid, -⟩ := h.known p hp
    exact hnew x hx (hxid.trans hid)
  have hcounts : ∀ i, completedJobs db' i = completedJobs t.db i := by
    intro i
    unfold completedJobs
    rw [hjobs, List.countP_append, Nat.add_eq_left]
    refine List.countP_eq_zero.mpr fun j hj hcompleted => ?_
    have hstatus := (of_decide_eq_true hcompleted).2
    rw [(hadded j hj).2.1] at hstatus
    cases hstatus
  have hcreated : ∀ i, ((t.created ++ newJobs t.db db').countP fun p => p.1 = i) =
      (t.created.countP fun p => p.1 = i) + if i = o.id then added.length else 0 := by
    intro i
    rw [hpairs, List.countP_append, List.countP_map]
    by_cases hid : i = o.id
    · rw [if_pos hid, hid]
      congr 1
      exact List.countP_eq_length.mpr fun j _ => decide_eq_true rfl
    · rw [if_neg hid]
      congr 1
      exact List.countP_eq_zero.mpr fun j _ heq => hid (of_decide_eq_true heq).symm
  have hnone : (t.created.countP fun p => p.1 = o.id) = 0 :=
    List.countP_eq_zero.mpr fun p hp heq => hforeign p hp (of_decide_eq_true heq)
  have hunfinished : completedJobs t.db o.id = 0 := by
    have hle := h.completed_le o.id
    omega
  constructor
  · constructor
    case jobs =>
      show Keyed _ db'.content.jobs
      rw [hjobs]
      exact h.jobs.appendAll hkeyed hfresh
    case operations =>
      show Keyed _ db'.reprocessing.operations
      rw [hoperations]
      exact h.operations.append hnew
    case created =>
      show (t.created ++ newJobs t.db db').Nodup
      rw [hpairs]
      have hids : (added.map fun j => (o.id, j.id)).Nodup := nodup_pairs o.id hkeyed
      refine h.created.append hids fun p hp hp' => ?_
      obtain ⟨j, -, rfl⟩ := List.mem_map.mp hp'
      exact hforeign _ hp rfl
    case known =>
      intro p hp
      show ∃ x ∈ db'.reprocessing.operations, _
      rw [hoperations]
      rcases List.mem_append.mp hp with hold | hnow
      · obtain ⟨x, hx, hrest⟩ := h.known p hold
        exact ⟨x, List.mem_append_left _ hx, hrest⟩
      · rw [hpairs] at hnow
        obtain ⟨j, hj, rfl⟩ := List.mem_map.mp hnow
        exact ⟨o, List.mem_append_right _ (List.mem_singleton_self o), rfl, (hadded j hj).2.2⟩
    case rows =>
      intro j hj i hop
      show (i, j.id) ∈ t.created ++ newJobs t.db db'
      rw [hpairs]
      rcases List.mem_append.mp (hjobs ▸ hj) with hold | hnow
      · exact List.mem_append_left _ (h.rows j hold i hop)
      · obtain rfl : o.id = i := Option.some.inj ((hadded j hnow).1.symm.trans hop)
        exact List.mem_append_right _ (List.mem_map.mpr ⟨j, hnow, rfl⟩)
    case total =>
      intro x hx htype
      show x.totalDocuments = (t.created ++ newJobs t.db db').countP fun p => p.1 = x.id
      rw [hcreated]
      rcases List.mem_append.mp (hoperations ▸ hx) with hold | hnow
      · rw [if_neg (hnew x hold)]
        exact h.total x hold htype
      · obtain rfl := List.mem_singleton.mp hnow
        rw [if_pos rfl, hnone, (htotal htype).1, Nat.zero_add]
    case counted =>
      intro x hx htype
      show x.completedDocuments = completedJobs db' x.id
      rw [hcounts]
      rcases List.mem_append.mp (hoperations ▸ hx) with hold | hnow
      · exact h.counted x hold htype
      · obtain rfl := List.mem_singleton.mp hnow
        rw [hunfinished, hzero]
    case ended =>
      intro x hx htype
      rcases List.mem_append.mp (hoperations ▸ hx) with hold | hnow
      · exact h.ended x hold htype
      · obtain rfl := List.mem_singleton.mp hnow
        rw [hrunning, hzero]
        exact iff_of_false nofun (htotal htype).2.symm
    case cancelled =>
      intro x hx htype hstate j hj hop
      rcases List.mem_append.mp (hoperations ▸ hx) with hold | hnow
      · rcases List.mem_append.mp (hjobs ▸ hj) with hjold | hjnow
        · exact h.cancelled x hold htype hstate j hjold hop
        · have hid := Option.some.inj ((hadded j hjnow).1.symm.trans hop)
          exact absurd hid.symm (hnew x hold)
      · rw [List.mem_singleton.mp hnow, hrunning] at hstate
        cases hstate
  · intro x hx _
    exact ⟨x, hoperations ▸ List.mem_append_left _ hx, rfl, rfl⟩

/-! ## Runs -/

/-- A refused call leaves the tally as it is. -/
theorem TallyInv.refused (h : TallyInv t) :
    TallyInv ⟨t.db, t.created ++ newJobs t.db t.db⟩ ∧ KeepsEnd t.db t.db :=
  ⟨h.kept (.same h.jobs rfl rfl), KeptStep.keepsEnd (.same h.jobs rfl rfl)⟩

theorem tallyStep_commit (h : TallyInv t) (request : IngestRequest) :
    TallyInv (tallyStep t (.job (.commit request))) ∧
      KeepsEnd t.db (tallyStep t (.job (.commit request))).db := by
  have hstep : ingestStep t.db (.job (.commit request)) =
      LocalRag.Core.commit t.db (answering .returned (v4CommitIngestionJob t.db request)) := rfl
  unfold tallyStep
  rw [hstep]
  cases hres : v4CommitIngestionJob t.db request with
  | error e => exact h.refused
  | ok r =>
    obtain ⟨db', r⟩ := r
    rcases v4CommitIngestionJob_ok hres with
      ⟨rfl, -⟩ | ⟨job, target, document, operations, hlock, -, -, -, hcount, -, -, rfl, -⟩
    · exact h.refused
    · obtain ⟨hjob, hheld, hallows⟩ := lockIngestionJob_some hlock
      exact h.commit hjob (holdsJobLease_running hheld) hallows rfl hcount

theorem tallyStep_start (h : TallyInv t) {ids : StartIds} {previewId : PreviewId}
    {impact : ReprocessingImpact} {tokenHash : HexText}
    (hkeeps : KeepsAccounts t (.startReprocessing token ids previewId impact tokenHash)) :
    TallyInv (tallyStep t (.startReprocessing token ids previewId impact tokenHash)) ∧
      KeepsEnd t.db
        (tallyStep t (.startReprocessing token ids previewId impact tokenHash)).db := by
  have hstep : ingestStep t.db (.startReprocessing token ids previewId impact tokenHash) =
      LocalRag.Core.commit t.db
        (v10AdminStartReprocessing t.db token ids previewId impact tokenHash) := rfl
  unfold KeepsAccounts at hkeeps
  dsimp only at hkeeps
  unfold tallyStep
  rw [hstep]
  cases hres : v10AdminStartReprocessing t.db token ids previewId impact tokenHash with
  | error e => exact h.refused
  | ok r =>
    obtain ⟨db', r⟩ := r
    rw [hres] at hkeeps
    obtain ⟨preview, started, rfl, hnew, hstarted, rfl⟩ := v10AdminStartReprocessing_ok hres
    obtain ⟨hid, hrunning, htype, -⟩ := insertedOperation_spec ids preview
    obtain ⟨hzero, htotal⟩ := insertedOperation_counts ids preview
    have hfresh : ∀ o ∈ t.db.reprocessing.operations,
        o.id ≠ (insertedOperation ids preview).id := fun o ho => hid ▸ hnew o ho
    cases hstarted with
    | reindex hreindex =>
      -- a reindex has tasks, not jobs
      refine h.start rfl hfresh hrunning hzero (List.append_nil _).symm (.nil _)
        (fun _ _ j hj => absurd hj List.not_mem_nil) (fun j hj => absurd hj List.not_mem_nil) ?_
      intro hother
      rw [htype, hreindex] at hother
      cases hother
    | reingestion hreingestion _ hjobs =>
      obtain ⟨hmatches, hsome⟩ := hkeeps rfl hreingestion
      refine h.start rfl hfresh hrunning hzero rfl (keyed_mapIdx ids.jobId fun _ _ => rfl) hjobs
        ?_ ?_
      · intro j hj
        obtain ⟨i, _, rfl⟩ := List.mem_mapIdx.mp hj
        exact ⟨congrArg some hid.symm, rfl, htype.trans hreingestion⟩
      · intro _
        rw [htotal, List.length_mapIdx]
        exact ⟨hmatches.symm, hsome⟩

/-- What every call under the condition keeps, and that it leaves no end. -/
theorem tallyStep_inv (h : TallyInv t) (htree : TreeInv t.db.library.nodes) {call : IngestCall}
    (hkeeps : KeepsAccounts t call) :
    TallyInv (tallyStep t call) ∧ KeepsEnd t.db (tallyStep t call).db := by
  by_cases hcommit : ∃ request, call = .job (.commit request)
  · obtain ⟨request, rfl⟩ := hcommit
    exact tallyStep_commit h request
  by_cases hstart : ∃ token ids previewId impact tokenHash,
      call = .startReprocessing token ids previewId impact tokenHash
  · obtain ⟨token, ids, previewId, impact, tokenHash, rfl⟩ := hstart
    exact tallyStep_start h hkeeps
  have hstep := ingestStep_kept h htree hkeeps
    (fun request heq => hcommit ⟨request, heq⟩) fun token ids previewId impact tokenHash heq =>
      hstart ⟨token, ids, previewId, impact, tokenHash, heq⟩
  exact ⟨h.kept hstep, hstep.keepsEnd⟩

theorem tallyInv_fresh (hfresh : Fresh db) (hnone : db.reprocessing.operations = []) :
    TallyInv ⟨db, []⟩ := by
  have hjobs : db.content.jobs = [] := by rw [hfresh.content]
  have hno : ∀ o, o ∉ db.reprocessing.operations := by simp [hnone]
  have hnoj : ∀ j, j ∉ db.content.jobs := by simp [hjobs]
  constructor
  case jobs => exact hjobs ▸ .nil _
  case operations => exact hnone ▸ .nil _
  case created => exact List.nodup_nil
  case known => exact nofun
  case rows => exact fun j hj => absurd hj (hnoj j)
  case total => exact fun o ho => absurd ho (hno o)
  case counted => exact fun o ho => absurd ho (hno o)
  case ended => exact fun o ho => absurd ho (hno o)
  case cancelled => exact fun o ho => absurd ho (hno o)

/-- In every run whose starts select what their previews counted, and whose deletions spare the
completed jobs of operations, the accounts of every reingestion are right in every state, and no
step leaves `succeeded` or `cancelled`. -/
theorem accounts_kept (hfresh : Fresh db) (hnone : db.reprocessing.operations = [])
    {calls : List IngestCall} (hkeeps : Along tallyStep KeepsAccounts ⟨db, []⟩ calls) :
    Always tallyStep Accounted ⟨db, []⟩ calls ∧
      Along tallyStep (fun t call => KeepsEnd t.db (tallyStep t call).db) ⟨db, []⟩ calls := by
  have hstart : TallyInv ⟨db, []⟩ ∧ TreeInv db.library.nodes :=
    ⟨tallyInv_fresh hfresh hnone, (ingestInv_fresh hfresh).tree⟩
  have hstep : ∀ (t : Tally) call, KeepsAccounts t call →
      TallyInv t ∧ TreeInv t.db.library.nodes →
      TallyInv (tallyStep t call) ∧ TreeInv (tallyStep t call).db.library.nodes :=
    fun t call hok hinv => ⟨(tallyStep_inv hinv.1 hinv.2 hok).1, ingestStep_tree t.db call hinv.2⟩
  constructor
  · exact always_of_along _ (fun t hinv => hinv.1.accounted) hstep hkeeps hstart
  · exact along_of_along _ (fun t call hok hinv => (tallyStep_inv hinv.1 hinv.2 hok).2) hstep
      hkeeps hstart

/-- The sample payload again, as the target parser makes it. -/
def reingestedChunks : List IngestedChunk :=
  samplePayload.chunks.map fun c => { c with
    id := 1, parserVersion := "pypdf+paddleocr-vl-v1.6-adaptive-v2"
    chunkingVersion := "fragment-paragraph-sentence-v2" }

/-- The commit of the reingestion's job. -/
def reingestCommit : IngestCall := .job (.commit ⟨45, 102, 1, 1, reingestedChunks⟩)

/-- The one document is reingested, and the operation succeeds with its one job. -/
theorem accounts_kept_reingested :
    Fresh backedUpDb ∧ backedUpDb.reprocessing.operations = [] ∧
    Along tallyStep KeepsAccounts ⟨backedUpDb, []⟩
      (servedCalls ++ (reingestCalls ++ [reingestCommit])) ∧
    Always tallyStep Accounted ⟨backedUpDb, []⟩
      (servedCalls ++ (reingestCalls ++ [reingestCommit])) ∧
    ((run tallyStep ⟨backedUpDb, []⟩
      (servedCalls ++ (reingestCalls ++ [reingestCommit]))).db.reprocessing.operations.map
        fun o => (o.state, o.completedDocuments)) = [(.succeeded, 1)] ∧
    (run tallyStep ⟨backedUpDb, []⟩
      (servedCalls ++ (reingestCalls ++ [reingestCommit]))).created = [(42, 45)] := by
  have hkeeps : Along tallyStep KeepsAccounts ⟨backedUpDb, []⟩
      (servedCalls ++ (reingestCalls ++ [reingestCommit])) := by
    refine ⟨trivial, trivial, trivial, trivial, trivial, trivial, fun _ _ => ?_, trivial, trivial,
      trivial⟩
    decide +kernel
  exact ⟨fresh_backedUpDb, rfl, hkeeps, (accounts_kept fresh_backedUpDb rfl hkeeps).1,
    by decide +kernel, by decide +kernel⟩

/-! ## A document that becomes ready after the preview -/

/-- Another document is uploaded and ingested. -/
def secondServedCalls : List IngestCall :=
  [.library (.uploadPreflight (some (.digest 1)) 21 (sampleUpload 8 none "b.pdf")),
    .library (.commitUpload (some (.digest 1)) 21 ⟨50, 51, 52, 53, 54⟩
      (sampleUpload 8 none "b.pdf")),
    .job (.claim "a" 60 103 []),
    .job (.commit ⟨51, 103, 1, 1, samplePayload.chunks.map fun c =>
      { c with id := 2, sourceSha256 := .digest 8 }⟩)]

/-- The preview counts one document, the start selects two, and the first commit is the last the
operation waits for. -/
def outgrownCalls : List IngestCall :=
  servedCalls ++ (reingestCalls.take 1 ++ (secondServedCalls ++
    (reingestCalls.drop 1 ++ [reingestCommit])))

/-- The operation has succeeded while a job of it is queued. -/
theorem accounts_outgrown :
    ¬ ∀ db : Db, Fresh db → db.reprocessing.operations = [] → ∀ calls,
      Always tallyStep Accounted ⟨db, []⟩ calls ∧
        Along tallyStep (fun t call => KeepsEnd t.db (tallyStep t call).db) ⟨db, []⟩ calls := by
  intro h
  have haccounted := (h backedUpDb fresh_backedUpDb rfl outgrownCalls).1.last
  have hqueued : ∃ o ∈ (run tallyStep ⟨backedUpDb, []⟩ outgrownCalls).db.reprocessing.operations,
      o.operationType = .reingestion ∧ o.state = .succeeded ∧
      ∃ j ∈ (run tallyStep ⟨backedUpDb, []⟩ outgrownCalls).db.content.jobs,
        j.reprocessingOperationId = some o.id ∧ j.status = .queued := by
    decide +kernel
  obtain ⟨o, ho, htype, hstate, j, hj, hop, hstatus⟩ := hqueued
  exact haccounted.idle o ho htype hstate j hj hop hstatus

end LocalRag.Ingest
