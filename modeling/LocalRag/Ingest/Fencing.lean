import LocalRag.Ingest.Process
import LocalRag.System

/-!
# Fencing of ingestion jobs

`JobCall` has one constructor for each database function a worker calls on a
job, and one for the clock; `jobStep` is one transaction. A run is any
interleaving of any number of workers.

Everything follows from what one call can do to one row (`RowStep`): a claim
raises the fencing token by one and starts the progress over, and every other
write was made under the row's current lease. Three facts are carried along a
run: the token of a row never falls (`Past`), a completed row stays completed
(`Closed`), and while a lease is the row's, its progress is one of the reports
made under that lease (`Reporting`).

The last one is what the progress filter needs. The holder's reports are the
ones `process` makes, in its order, and these never go back
(`process_wellReported`); so no report of the holder is taken for a stale one.
-/

namespace LocalRag.Ingest

open LocalRag.Core

/-- What a worker calls, and the clock. -/
inductive JobCall where
  | tick (elapsed : Time)
  | claim (owner : String) (leaseSeconds : Nat) (leaseToken : LeaseToken) (locked : List JobId)
  | heartbeat (jobId : JobId) (leaseToken : LeaseToken) (fencingToken leaseSeconds : Nat)
  | progress (jobId : JobId) (leaseToken : LeaseToken) (fencingToken : Nat)
      (report : ProgressCall)
  | commit (request : IngestRequest)
  | requeue (jobId : JobId) (leaseToken : LeaseToken) (fencingToken : Nat) (availableAt : Time)
  | poison (jobId : JobId) (leaseToken : LeaseToken) (fencingToken : Nat) (error : String)
deriving Repr, DecidableEq

/-- What the function answers. -/
inductive JobAnswer where
  | ticked
  | claimed (claim : Option JobClaim)
  | returned (result : Bool)
  | progressed (result : ProgressResult)
deriving Repr, DecidableEq

/-- The result of a function as an answer. -/
def answering {ρ : Type} (f : ρ → JobAnswer) :
    Except SqlError (Db × ρ) → Except SqlError (Db × JobAnswer)
  | .error e => .error e
  | .ok (db, r) => .ok (db, f r)

/-- The function a call names. -/
def callJob (db : Db) : JobCall → Except SqlError (Db × JobAnswer)
  | .tick elapsed => .ok ({ db with now := db.now + elapsed }, .ticked)
  | .claim owner leaseSeconds leaseToken locked =>
    answering .claimed (v4ClaimIngestionJob db owner leaseSeconds leaseToken locked)
  | .heartbeat jobId leaseToken fencingToken leaseSeconds =>
    answering .returned (v4HeartbeatIngestionJob db jobId leaseToken fencingToken leaseSeconds)
  | .progress jobId leaseToken fencingToken report =>
    answering .progressed (v4UpdateIngestionProgress db jobId leaseToken fencingToken report.stage
      report.completed report.total)
  | .commit request => answering .returned (v4CommitIngestionJob db request)
  | .requeue jobId leaseToken fencingToken availableAt =>
    answering .returned (v4RequeueIngestionJob db jobId leaseToken fencingToken availableAt)
  | .poison jobId leaseToken fencingToken error =>
    answering .returned (v4PoisonIngestionJob db jobId leaseToken fencingToken error)

/-- One transaction, or one advance of the clock. -/
def jobStep (db : Db) (call : JobCall) : Db := commit db (callJob db call)

/-- What the call answers, or the error it raises. -/
def jobAnswer (db : Db) (call : JobCall) : Except SqlError JobAnswer :=
  (callJob db call).map (·.2)

/-- The job and the two tokens a worker shows. -/
structure JobLease where
  jobId : JobId
  leaseToken : LeaseToken
  fencingToken : Nat
deriving Repr, DecidableEq

/-- The lease a claim hands out. -/
def JobClaim.lease (r : JobClaim) : JobLease := ⟨r.jobId, r.leaseToken, r.fencingToken⟩

/-- The row is held under this lease now. -/
def JobLease.holds (l : JobLease) (now : Time) (j : IngestionJob) : Bool :=
  holdsJobLease now l.jobId l.leaseToken l.fencingToken j

/-- The lease a call carries. -/
def JobCall.lease : JobCall → Option JobLease
  | .tick _ => none
  | .claim .. => none
  | .heartbeat jobId leaseToken fencingToken _ => some ⟨jobId, leaseToken, fencingToken⟩
  | .progress jobId leaseToken fencingToken _ => some ⟨jobId, leaseToken, fencingToken⟩
  | .commit request => some ⟨request.jobId, request.leaseToken, request.fencingToken⟩
  | .requeue jobId leaseToken fencingToken _ => some ⟨jobId, leaseToken, fencingToken⟩
  | .poison jobId leaseToken fencingToken _ => some ⟨jobId, leaseToken, fencingToken⟩

/-- What a call without a valid lease is answered: `false`, or `'stale'`. A
progress call checks its arguments first. -/
def JobCall.refusal : JobCall → Except SqlError JobAnswer
  | .progress _ _ _ report =>
    if report.valid then .ok (.progressed .stale)
    else .error ⟨"22023", "invalid ingestion progress"⟩
  | _ => .ok (.returned false)

/-! ## What a call does -/

/-- What `call` can do to the database: nothing, or the write of its function after what the
function checked. -/
inductive JobEffect (db : Db) : JobCall → Db → Prop where
  /-- The function raised, or refused. -/
  | same {call : JobCall} : JobEffect db call db
  | tick (elapsed : Time) : JobEffect db (.tick elapsed) { db with now := db.now + elapsed }
  | claim (owner : String) (leaseSeconds : Nat) (leaseToken : LeaseToken) (locked : List JobId)
      {job : IngestionJob} (mem : job ∈ db.content.jobs) (claimable : isClaimableJob db job = true) :
      JobEffect db (.claim owner leaseSeconds leaseToken locked) { db with
        content.jobs := updateWhere (fun j => j.id = job.id)
          (claimedJob db.now owner leaseSeconds leaseToken) db.content.jobs }
  | heartbeat (l : JobLease) (leaseSeconds : Nat) :
      JobEffect db (.heartbeat l.jobId l.leaseToken l.fencingToken leaseSeconds) { db with
        content.jobs := updateWhere (l.holds db.now)
          (fun j => { j with leaseExpiresAt := some (db.now + leaseSeconds * second) })
          db.content.jobs }
  | progress (l : JobLease) (report : ProgressCall) {job : IngestionJob}
      (mem : job ∈ db.content.jobs) (held : l.holds db.now job = true)
      (stage : report.stage ∈ [.parsing, .chunking, .embedding, .indexing]) :
      JobEffect db (.progress l.jobId l.leaseToken l.fencingToken report)
        (progressedDb db job report.stage report.completed report.total)
  | commit {request : IngestRequest} {job : IngestionJob} {target : IngestTarget}
      {document : Document} {operations : List ReprocessingOperation}
      (mem : job ∈ db.content.jobs)
      (held : holdsJobLease db.now request.jobId request.leaseToken request.fencingToken job = true)
      (share : shareEmbedding db request job = .ok target)
      (documentMem : document ∈ db.content.documents) (documentId : document.id = job.documentId)
      (count : countOperation job.reprocessingOperationId request.chunks.length
        db.reprocessing.operations = .ok operations)
      (answer : jobAnswer db (.commit request) = .ok (.returned true)) :
      JobEffect db (.commit request) (ingestedDb db request job target document operations)
  | requeue (l : JobLease) (availableAt : Time) :
      JobEffect db (.requeue l.jobId l.leaseToken l.fencingToken availableAt) { db with
        content.jobs := updateWhere (l.holds db.now) (requeuedJob availableAt) db.content.jobs }
  | poison (l : JobLease) (error : String) {job : IngestionJob} (mem : job ∈ db.content.jobs)
      (held : l.holds db.now job = true) :
      JobEffect db (.poison l.jobId l.leaseToken l.fencingToken error) (poisonedDb db job error)

variable {db : Db} {call : JobCall}

/-- A transaction has an effect if every way it returns has it. -/
theorem jobEffect_answering {ρ : Type} {f : ρ → JobAnswer} {res : Except SqlError (Db × ρ)}
    (h : ∀ db' r, res = .ok (db', r) → JobEffect db call db') :
    JobEffect db call (commit db (answering f res)) := by
  cases res with
  | ok result => exact h result.1 result.2 rfl
  | error e => exact .same

/-- Every call of a worker has one of the effects. -/
theorem jobStep_effect (db : Db) (call : JobCall) : JobEffect db call (jobStep db call) := by
  cases call with
  | tick elapsed => exact .tick elapsed
  | claim owner leaseSeconds leaseToken locked =>
    refine jobEffect_answering fun db' r h => ?_
    rcases v4ClaimIngestionJob_ok h with ⟨rfl, _⟩ | ⟨job, hmem, hclaim, rfl, _⟩
    · exact .same
    · exact .claim owner leaseSeconds leaseToken locked hmem hclaim
  | heartbeat jobId leaseToken fencingToken leaseSeconds =>
    refine jobEffect_answering fun db' r h => ?_
    rcases v4HeartbeatIngestionJob_ok h with rfl | rfl
    · exact .same
    · exact .heartbeat ⟨jobId, leaseToken, fencingToken⟩ leaseSeconds
  | progress jobId leaseToken fencingToken report =>
    refine jobEffect_answering fun db' r h => ?_
    rcases v4UpdateIngestionProgress_ok h with ⟨rfl, _⟩ | ⟨job, hmem, hheld, hstage, rfl⟩
    · exact .same
    · exact .progress ⟨jobId, leaseToken, fencingToken⟩ report hmem hheld hstage
  | commit request =>
    refine jobEffect_answering fun db' r h => ?_
    rcases v4CommitIngestionJob_ok h with
      ⟨rfl, _⟩ | ⟨job, target, document, operations, hlock, hshare, hdoc, hid, hcount, _, _, rfl, rfl⟩
    · exact .same
    · obtain ⟨hmem, hheld, _⟩ := lockIngestionJob_some hlock
      refine .commit hmem hheld hshare hdoc hid hcount ?_
      simp only [jobAnswer, callJob, h, answering, Except.map]
  | requeue jobId leaseToken fencingToken availableAt =>
    refine jobEffect_answering fun db' r h => ?_
    rcases v4RequeueIngestionJob_ok h with rfl | rfl
    · exact .same
    · exact .requeue ⟨jobId, leaseToken, fencingToken⟩ availableAt
  | poison jobId leaseToken fencingToken error =>
    refine jobEffect_answering fun db' r h => ?_
    rcases v4PoisonIngestionJob_ok h with rfl | ⟨job, hmem, hheld, rfl⟩
    · exact .same
    · exact .poison ⟨jobId, leaseToken, fencingToken⟩ error hmem hheld

/-! ## What a call does to a row -/

/-- What `call` can do to one row of `ingestion_jobs`. -/
inductive RowStep (db : Db) (j : IngestionJob) : JobCall → IngestionJob → Prop where
  | same {call : JobCall} : RowStep db j call j
  | claim (owner : String) (leaseSeconds : Nat) (leaseToken : LeaseToken) (locked : List JobId)
      (claimable : isClaimableJob db j = true) :
      RowStep db j (.claim owner leaseSeconds leaseToken locked)
        (claimedJob db.now owner leaseSeconds leaseToken j)
  | heartbeat {l : JobLease} (leaseSeconds : Nat) (held : l.holds db.now j = true) :
      RowStep db j (.heartbeat l.jobId l.leaseToken l.fencingToken leaseSeconds)
        { j with leaseExpiresAt := some (db.now + leaseSeconds * second) }
  | progress {l : JobLease} (report : ProgressCall) (held : l.holds db.now j = true) :
      RowStep db j (.progress l.jobId l.leaseToken l.fencingToken report)
        (progressedJob report.stage report.completed report.total j)
  | commit {request : IngestRequest}
      (held : holdsJobLease db.now request.jobId request.leaseToken request.fencingToken j = true) :
      RowStep db j (.commit request) (completedJob request.chunks.length j)
  | requeue {l : JobLease} (availableAt : Time) (held : l.holds db.now j = true) :
      RowStep db j (.requeue l.jobId l.leaseToken l.fencingToken availableAt)
        (requeuedJob availableAt j)
  | poison {l : JobLease} (error : String) (held : l.holds db.now j = true) :
      RowStep db j (.poison l.jobId l.leaseToken l.fencingToken error) (poisonedJob error j)

variable {j j' : IngestionJob}

/-- A step never changes which job a row is. -/
theorem RowStep.id (h : RowStep db j call j') : j'.id = j.id := by
  cases h <;> rfl

/-- The rows after the call, each with the row it was: the table of `db'` comes
from the table of `db` row by row, under the same ids. -/
structure RowsStep (db : Db) (call : JobCall) (db' : Db) : Prop where
  ids : db'.content.jobs.map (·.id) = db.content.jobs.map (·.id)
  rows : ∀ j' ∈ db'.content.jobs, ∃ j ∈ db.content.jobs, RowStep db j call j'

theorem RowsStep.unchanged {db' : Db} (h : db'.content.jobs = db.content.jobs) :
    RowsStep db call db' := by
  refine ⟨by rw [h], fun j hj => ⟨j, ?_, .same⟩⟩
  rw [← h]
  exact hj

/-- An update of the row with a given id, which is one row. -/
theorem RowsStep.updateId {db' : Db} {job : IngestionJob} {f : IngestionJob → IngestionJob}
    (hkeys : Keyed (·.id) db.content.jobs) (hmem : job ∈ db.content.jobs)
    (h : db'.content.jobs = updateWhere (fun j => j.id = job.id) f db.content.jobs)
    (hid : ∀ j, (f j).id = j.id) (hf : RowStep db job call (f job)) : RowsStep db call db' := by
  refine ⟨by rw [h, map_updateWhere hid], fun j' hj' => ?_⟩
  rw [h, mem_updateWhere] at hj'
  obtain ⟨j, hj, rfl⟩ := hj'
  refine ⟨j, hj, ?_⟩
  by_cases hk : j.id = job.id
  · obtain rfl := hkeys.eq hj hmem hk
    simpa using hf
  · simpa [hk] using RowStep.same

variable {l : JobLease}

/-- An update of the rows held under a lease. -/
theorem RowsStep.updateHeld {db' : Db} {f : IngestionJob → IngestionJob}
    (h : db'.content.jobs = updateWhere (l.holds db.now) f db.content.jobs)
    (hid : ∀ j, (f j).id = j.id) (hf : ∀ j, l.holds db.now j = true → RowStep db j call (f j)) :
    RowsStep db call db' := by
  refine ⟨by rw [h, map_updateWhere hid], fun j' hj' => ?_⟩
  rw [h, mem_updateWhere] at hj'
  obtain ⟨j, hj, rfl⟩ := hj'
  refine ⟨j, hj, ?_⟩
  by_cases hk : l.holds db.now j = true
  · rw [if_pos hk]
    exact hf j hk
  · rw [if_neg hk]
    exact .same

/-- Every call takes one step on every row. -/
theorem jobStep_rows (hkeys : Keyed (·.id) db.content.jobs) (call : JobCall) :
    RowsStep db call (jobStep db call) := by
  have heffect := jobStep_effect db call
  generalize jobStep db call = after at heffect
  cases heffect with
  | same => exact .unchanged rfl
  | tick elapsed => exact .unchanged rfl
  | claim owner leaseSeconds leaseToken locked mem claimable =>
    exact .updateId hkeys mem rfl (fun _ => rfl) (.claim owner leaseSeconds leaseToken locked claimable)
  | heartbeat l leaseSeconds =>
    exact .updateHeld (l := l) rfl (fun _ => rfl) fun j hj => .heartbeat leaseSeconds hj
  | progress l report mem held =>
    exact .updateId hkeys mem rfl (fun _ => rfl) (.progress report held)
  | commit mem held => exact .updateId hkeys mem rfl (fun _ => rfl) (.commit held)
  | requeue l availableAt =>
    exact .updateHeld (l := l) rfl (fun _ => rfl) fun j hj => .requeue availableAt hj
  | poison l error mem held =>
    exact .updateId hkeys mem rfl (fun _ => rfl) (.poison error held)

theorem keyed_jobStep (hkeys : Keyed (·.id) db.content.jobs) (call : JobCall) :
    Keyed (·.id) (jobStep db call).content.jobs := by
  unfold Keyed
  rw [(jobStep_rows hkeys call).ids]
  exact hkeys

/-! ## Tokens and completion along a run -/

/-- The job's fencing token is at least `f`. -/
def Past (jobId : JobId) (f : Nat) (db : Db) : Prop :=
  ∀ j ∈ db.content.jobs, j.id = jobId → f ≤ j.fencingToken

/-- The job is completed. -/
def Closed (jobId : JobId) (db : Db) : Prop :=
  ∀ j ∈ db.content.jobs, j.id = jobId → j.status = .completed

theorem RowStep.fencingToken_le (h : RowStep db j call j') : j.fencingToken ≤ j'.fencingToken := by
  cases h with
  | claim => exact Nat.le_succ _
  | _ => exact Nat.le_refl _

/-- A completed row is neither claimable nor held. -/
theorem RowStep.completed (h : RowStep db j call j') (hj : j.status = .completed) :
    j'.status = .completed := by
  have hnot : ∀ {jobId leaseToken fencingToken},
      holdsJobLease db.now jobId leaseToken fencingToken j ≠ true := by
    intro jobId leaseToken fencingToken hheld
    rw [holdsJobLease_running hheld] at hj
    exact absurd hj (by decide)
  cases h with
  | same => exact hj
  | claim _ _ _ _ hclaim =>
    simp [isClaimableJob, hj] at hclaim
  | heartbeat _ hheld => exact absurd hheld hnot
  | progress _ hheld => exact absurd hheld hnot
  | commit hheld => exact absurd hheld hnot
  | requeue _ hheld => exact absurd hheld hnot
  | poison _ hheld => exact absurd hheld hnot

variable {jobId : JobId}

/-- A property of the rows of one job that each row's step keeps, a run keeps. -/
theorem rows_run {db : Db} (hkeys : Keyed (·.id) db.content.jobs) {jobId : JobId}
    {P : IngestionJob → Prop}
    (hstep : ∀ (db : Db) (call : JobCall) (j j' : IngestionJob), RowStep db j call j' → P j → P j')
    (calls : List JobCall) (h : ∀ j ∈ db.content.jobs, j.id = jobId → P j) :
    ∀ j ∈ (run jobStep db calls).content.jobs, j.id = jobId → P j := by
  refine (run_inv_of_step (fun db : Db => Keyed (·.id) db.content.jobs ∧
    ∀ j ∈ db.content.jobs, j.id = jobId → P j) ?_ calls ⟨hkeys, h⟩).2
  rintro db call ⟨hk, hP⟩
  refine ⟨keyed_jobStep hk call, fun j' hj' hid => ?_⟩
  obtain ⟨j, hj, hrow⟩ := (jobStep_rows hk call).rows j' hj'
  exact hstep db call j j' hrow (hP j hj (hrow.id ▸ hid))

theorem keyed_jobRun (hkeys : Keyed (·.id) db.content.jobs) (calls : List JobCall) :
    Keyed (·.id) (run jobStep db calls).content.jobs :=
  run_inv_of_step (fun db : Db => Keyed (·.id) db.content.jobs)
    (fun _ call hk => keyed_jobStep hk call) calls hkeys

theorem past_run (hkeys : Keyed (·.id) db.content.jobs) {f : Nat} (calls : List JobCall)
    (h : Past jobId f db) : Past jobId f (run jobStep db calls) :=
  rows_run hkeys (fun _ _ _ _ hrow hf => Nat.le_trans hf hrow.fencingToken_le) calls h

theorem closed_run (hkeys : Keyed (·.id) db.content.jobs) (calls : List JobCall)
    (h : Closed jobId db) : Closed jobId (run jobStep db calls) :=
  rows_run hkeys (fun _ _ _ _ hrow hj => hrow.completed hj) calls h

/-! ## Claims and refusals -/

theorem answering_eq_ok {ρ : Type} {f : ρ → JobAnswer} {res : Except SqlError (Db × ρ)}
    {a : JobAnswer} (h : (answering f res).map (·.2) = .ok a) :
    ∃ db' r, res = .ok (db', r) ∧ f r = a := by
  match res, h with
  | .ok (db', r), h => exact ⟨db', r, rfl, Except.ok.inj h⟩
  | .error _, h => cases h

variable {r : JobClaim}

/-- Only a claim hands out a lease: the row's next fencing token, and the row is
the one it leases. -/
theorem claimed_ok (h : jobAnswer db call = .ok (.claimed (some r))) :
    ∃ owner leaseSeconds locked, ∃ job ∈ db.content.jobs,
      call = .claim owner leaseSeconds r.leaseToken locked ∧ r.jobId = job.id ∧
      r.fencingToken = job.fencingToken + 1 ∧
      (jobStep db call).content.jobs = updateWhere (fun j => j.id = job.id)
        (claimedJob db.now owner leaseSeconds r.leaseToken) db.content.jobs := by
  cases call with
  | tick elapsed => cases h
  | claim owner leaseSeconds leaseToken locked =>
    obtain ⟨db', r', hres, hr⟩ := answering_eq_ok h
    obtain rfl := JobAnswer.claimed.inj hr
    rcases v4ClaimIngestionJob_ok hres with ⟨_, hnone⟩ | ⟨job, hmem, _, hdb, claim, hsome, hid, htok, hf⟩
    · cases hnone
    · obtain rfl := Option.some.inj hsome
      refine ⟨owner, leaseSeconds, locked, job, hmem, by rw [htok], hid, hf, ?_⟩
      rw [htok]
      show (commit db (answering .claimed _)).content.jobs = _
      rw [hres]
      show db'.content.jobs = _
      rw [hdb]
  | heartbeat => obtain ⟨_, _, _, hr⟩ := answering_eq_ok h; cases hr
  | progress => obtain ⟨_, _, _, hr⟩ := answering_eq_ok h; cases hr
  | commit => obtain ⟨_, _, _, hr⟩ := answering_eq_ok h; cases hr
  | requeue => obtain ⟨_, _, _, hr⟩ := answering_eq_ok h; cases hr
  | poison => obtain ⟨_, _, _, hr⟩ := answering_eq_ok h; cases hr

/-- After the claim the job's row carries the handed out token. -/
theorem past_claimed (hkeys : Keyed (·.id) db.content.jobs)
    (h : jobAnswer db call = .ok (.claimed (some r))) :
    Past r.jobId r.fencingToken (jobStep db call) := by
  obtain ⟨owner, leaseSeconds, locked, job, hmem, _, hid, hf, hjobs⟩ := claimed_ok h
  intro j hj hjid
  rw [hjobs, mem_updateWhere] at hj
  obtain ⟨j₀, hj₀, rfl⟩ := hj
  by_cases hk : j₀.id = job.id
  · obtain rfl := hkeys.eq hj₀ hmem hk
    simp [hf, claimedJob]
  · simp only [hk, decide_false] at hjid
    exact absurd (hjid.trans hid) hk

/-- The argument check of the progress function. -/
theorem not_valid_iff (report : ProgressCall) :
    report.valid = false ↔ report.stage ∉ [.parsing, .chunking, .embedding, .indexing] ∨
      report.total < 1 ∨ 1000000 < report.total ∨ report.total < report.completed := by
  rw [ProgressCall.valid, decide_eq_false_iff_not]
  by_cases hstage : report.stage ∈ [DocumentState.parsing, .chunking, .embedding, .indexing]
  · simp only [hstage, true_and, not_true_eq_false, false_or]
    omega
  · simp [hstage]

/-- A call whose lease no row is held under is refused and changes nothing. -/
theorem callJob_refused (hl : call.lease = some l)
    (h : ∀ j ∈ db.content.jobs, l.holds db.now j = false) :
    callJob db call = call.refusal.map fun a => (db, a) := by
  have hany : db.content.jobs.any (l.holds db.now) = false := by
    rw [List.any_eq_false]
    intro j hj
    rw [h j hj]
    simp
  have hfind : db.content.jobs.find? (l.holds db.now) = none := by
    rw [List.find?_eq_none]
    intro j hj
    rw [h j hj]
    simp
  cases call with
  | tick elapsed => cases hl
  | claim => cases hl
  | heartbeat jobId leaseToken fencingToken leaseSeconds =>
    obtain rfl := Option.some.inj hl
    show answering _ (v4HeartbeatIngestionJob ..) = _
    unfold v4HeartbeatIngestionJob
    rw [if_neg]
    · rfl
    · intro hcond
      have hheld : db.content.jobs.any (JobLease.holds ⟨jobId, leaseToken, fencingToken⟩ db.now) =
        true := hcond.2.2
      rw [hany] at hheld
      cases hheld
  | progress jobId leaseToken fencingToken report =>
    obtain rfl := Option.some.inj hl
    show answering _ (v4UpdateIngestionProgress ..) = _
    unfold v4UpdateIngestionProgress
    rw [show db.content.jobs.find? (holdsJobLease db.now jobId leaseToken fencingToken) = none
      from hfind]
    simp only [JobCall.refusal]
    by_cases hvalid : report.valid = true
    · rw [if_neg, if_pos hvalid]
      · rfl
      · rw [← not_valid_iff, hvalid]
        simp
    · rw [if_pos, if_neg hvalid]
      · rfl
      · rw [← not_valid_iff]
        simpa using hvalid
  | commit request =>
    obtain rfl := Option.some.inj hl
    have hlock : lockIngestionJob db request = none := by
      unfold lockIngestionJob
      rw [show db.content.jobs.find? (holdsJobLease db.now request.jobId request.leaseToken
        request.fencingToken) = none from hfind]
      rfl
    show answering _ (v4CommitIngestionJob db request) = _
    unfold v4CommitIngestionJob
    rw [hlock]
    rfl
  | requeue jobId leaseToken fencingToken availableAt =>
    obtain rfl := Option.some.inj hl
    show answering _ (v4RequeueIngestionJob ..) = _
    unfold v4RequeueIngestionJob
    rw [if_neg]
    · rfl
    · intro hcond
      have hheld : db.content.jobs.any (JobLease.holds ⟨jobId, leaseToken, fencingToken⟩ db.now) =
        true := hcond.2
      rw [hany] at hheld
      cases hheld
  | poison jobId leaseToken fencingToken error =>
    obtain rfl := Option.some.inj hl
    show answering _ (v4PoisonIngestionJob ..) = _
    unfold v4PoisonIngestionJob
    rw [show db.content.jobs.find? (holdsJobLease db.now jobId leaseToken fencingToken) = none
      from hfind]
    rfl

theorem jobStep_refused (hl : call.lease = some l)
    (h : ∀ j ∈ db.content.jobs, l.holds db.now j = false) :
    jobStep db call = db ∧ jobAnswer db call = call.refusal := by
  unfold jobStep jobAnswer
  rw [callJob_refused hl h]
  cases call.refusal <;> exact ⟨rfl, rfl⟩

/-- Under an older fencing token no row is held. -/
theorem Past.not_held {f : Nat} (h : Past l.jobId f db) (hlt : l.fencingToken < f) :
    ∀ j ∈ db.content.jobs, l.holds db.now j = false := by
  intro j hj
  by_contra hheld
  have hheld : l.holds db.now j = true := by simpa using hheld
  have hle := h j hj (holdsJobLease_id hheld)
  have heq := (holdsJobLease_tokens hheld).2
  omega

/-! ## The holder's reports -/

/-- The progress calls made under a lease, in order. -/
def reportsUnder (l : JobLease) (calls : List JobCall) : List ProgressCall :=
  calls.filterMap fun call =>
    match call with
    | .progress _ _ _ report => if call.lease = some l then some report else none
    | _ => none

/-- As long as the lease is the row's, its progress is none or one of these
reports. -/
def ReportedUnder (l : JobLease) (reports : List ProgressCall) (j : IngestionJob) : Prop :=
  l.fencingToken ≤ j.fencingToken ∧ (j.fencingToken = l.fencingToken →
    j.leaseToken = none ∨ (j.leaseToken = some l.leaseToken ∧
      (j.stage = .uploaded ∨ ∃ c ∈ reports, j.stage = c.stage ∧ j.completedUnits = c.completed ∧
        j.totalUnits = some c.total)))

variable {reports : List ProgressCall}

theorem ReportedUnder.mono {reports' : List ProgressCall} (h : ReportedUnder l reports j)
    (hsub : reports ⊆ reports') : ReportedUnder l reports' j := by
  refine ⟨h.1, fun hf => ?_⟩
  rcases h.2 hf with hnone | ⟨hsome, hup | ⟨c, hc, hrow⟩⟩
  · exact Or.inl hnone
  · exact Or.inr ⟨hsome, Or.inl hup⟩
  · exact Or.inr ⟨hsome, Or.inr ⟨c, hsub hc, hrow⟩⟩

/-- One call keeps this, with its own report added if it is one under the lease. -/
theorem RowStep.reportedUnder (hrow : RowStep db j call j') (hid : j.id = l.jobId)
    (h : ReportedUnder l reports j) : ReportedUnder l (reports ++ reportsUnder l [call]) j' := by
  have hkept := h.mono (List.subset_append_left reports (reportsUnder l [call]))
  cases hrow with
  | same => exact hkept
  | claim =>
    refine ⟨Nat.le_succ_of_le h.1, fun hf => ?_⟩
    have hlt : l.fencingToken < j.fencingToken + 1 := Nat.lt_succ_of_le h.1
    have heq : j.fencingToken + 1 = l.fencingToken := hf
    omega
  | heartbeat => exact hkept
  | @progress l' report hheld =>
    refine ⟨h.1, fun hf => ?_⟩
    rcases h.2 hf with hnone | ⟨hsome, _⟩
    · exact Or.inl hnone
    · -- the row is held under `l'`, so `l'` is the lease itself
      have htok := holdsJobLease_tokens hheld
      have hl' : l' = l := by
        obtain ⟨jobId, leaseToken, fencingToken⟩ := l'
        have h1 : jobId = l.jobId := (holdsJobLease_id hheld).symm.trans hid
        have h2 : leaseToken = l.leaseToken := Option.some.inj (htok.1.symm.trans hsome)
        have h3 : fencingToken = l.fencingToken := htok.2.symm.trans hf
        rw [h1, h2, h3]
      subst hl'
      refine Or.inr ⟨hsome, Or.inr ⟨report, List.mem_append_right _ ?_, rfl, rfl, rfl⟩⟩
      simp [reportsUnder, JobCall.lease]
  | commit => exact ⟨h.1, fun _ => Or.inl rfl⟩
  | requeue => exact ⟨h.1, fun _ => Or.inl rfl⟩
  | poison => exact ⟨h.1, fun _ => Or.inl rfl⟩

theorem reportedUnder_run (calls : List JobCall) :
    ∀ {db : Db} {reports : List ProgressCall}, Keyed (·.id) db.content.jobs →
    (∀ j ∈ db.content.jobs, j.id = l.jobId → ReportedUnder l reports j) →
    ∀ j ∈ (run jobStep db calls).content.jobs, j.id = l.jobId →
      ReportedUnder l (reports ++ reportsUnder l calls) j := by
  induction calls with
  | nil =>
    intro db reports _ h j hj hid
    exact (h j hj hid).mono (List.subset_append_left _ _)
  | cons call calls ih =>
    intro db reports hkeys h
    have hstep : ∀ j ∈ (jobStep db call).content.jobs, j.id = l.jobId →
        ReportedUnder l (reports ++ reportsUnder l [call]) j := by
      intro j' hj' hid
      obtain ⟨j, hj, hrow⟩ := (jobStep_rows hkeys call).rows j' hj'
      have hid : j.id = l.jobId := hrow.id ▸ hid
      exact hrow.reportedUnder hid (h j hj hid)
    have hrun := ih (keyed_jobStep hkeys call) hstep
    rw [List.append_assoc, reportsUnder, reportsUnder, ← List.filterMap_append] at hrun
    exact hrun

/-- A claim starts the row's progress over. -/
theorem reportedUnder_claimed (hkeys : Keyed (·.id) db.content.jobs)
    (h : jobAnswer db call = .ok (.claimed (some r))) :
    ∀ j ∈ (jobStep db call).content.jobs, j.id = r.jobId → ReportedUnder r.lease [] j := by
  obtain ⟨owner, leaseSeconds, locked, job, hmem, _, hid, hf, hjobs⟩ := claimed_ok h
  intro j hj hjid
  rw [hjobs, mem_updateWhere] at hj
  obtain ⟨j₀, hj₀, rfl⟩ := hj
  by_cases hk : j₀.id = job.id
  · obtain rfl := hkeys.eq hj₀ hmem hk
    simp only [decide_true, if_true]
    refine ⟨?_, fun _ => Or.inr ⟨rfl, Or.inl rfl⟩⟩
    show r.fencingToken ≤ j₀.fencingToken + 1
    omega
  · simp only [hk, decide_false] at hjid
    exact absurd (hjid.trans hid) hk

/-- A valid report of the holder that is not behind what was reported under the
lease is accepted. -/
theorem progress_accepted {report : ProgressCall} (hvalid : report.valid = true)
    (hle : ∀ c ∈ reports, c.le report)
    (hrows : ∀ j ∈ db.content.jobs, j.id = l.jobId → ReportedUnder l reports j)
    (hheld : db.content.jobs.any (l.holds db.now) = true)
    (hallows : ∀ j ∈ db.content.jobs, j.id = l.jobId →
      operationAllows db j.reprocessingOperationId = true) :
    jobAnswer db (.progress l.jobId l.leaseToken l.fencingToken report) =
      .ok (.progressed .accepted) := by
  obtain ⟨job, hfind⟩ : ∃ job, db.content.jobs.find? (l.holds db.now) = some job := by
    rw [← Option.isSome_iff_exists, List.find?_isSome]
    simpa using hheld
  have hmem := List.mem_of_find?_eq_some hfind
  have hrow : l.holds db.now job = true := List.find?_some hfind
  have hid := holdsJobLease_id hrow
  obtain ⟨hsome, hf⟩ := holdsJobLease_tokens hrow
  have hrank : 1 ≤ stageRank report.stage := by
    have hstage : report.stage ∈ [DocumentState.parsing, .chunking, .embedding, .indexing] := by
      simp only [ProgressCall.valid, decide_eq_true_eq] at hvalid
      exact hvalid.1
    simp only [List.mem_cons, List.not_mem_nil, or_false] at hstage
    rcases hstage with hs | hs | hs | hs <;> rw [hs] <;> decide
  have hnotBehind : ¬ (stageRank report.stage < stageRank job.stage ∨
      (stageRank report.stage = stageRank job.stage ∧ (report.completed < job.completedUnits ∨
        job.totalUnits.any fun t => report.total < t))) := by
    rcases (hrows job hmem hid).2 hf with hnone | ⟨_, hup | ⟨c, hc, hstage, hdone, htotal⟩⟩
    · rw [hnone] at hsome
      cases hsome
    · rw [hup]
      show ¬ (stageRank report.stage < 0 ∨ stageRank report.stage = 0 ∧ _)
      omega
    · have hcle := hle c hc
      rw [hstage, hdone, htotal]
      simp only [Option.any_some, decide_eq_true_eq]
      unfold ProgressCall.le at hcle
      omega
  show (answering .progressed (v4UpdateIngestionProgress db l.jobId l.leaseToken l.fencingToken
    report.stage report.completed report.total)).map (·.2) = _
  unfold v4UpdateIngestionProgress
  rw [if_neg (by rw [← not_valid_iff, hvalid]; simp)]
  rw [show db.content.jobs.find? (holdsJobLease db.now l.jobId l.leaseToken l.fencingToken) =
    some job from hfind]
  dsimp only
  rw [if_neg (by simp [hallows job hmem hid]), if_neg hnotBehind]
  rfl

/-! ## Fencing -/

/-- After the calls `before`, `call` is answered with the lease `r`. -/
def Hands (db : Db) (before : List JobCall) (call : JobCall) (r : JobClaim) : Prop :=
  jobAnswer (run jobStep db before) call = .ok (.claimed (some r))

/-- After the calls `before`, the commit stores its payload. -/
def Commits (db : Db) (before : List JobCall) (request : IngestRequest) : Prop :=
  jobAnswer (run jobStep db before) (.commit request) = .ok (.returned true)

theorem hands_lt (hkeys : Keyed (·.id) db.content.jobs) {before between : List JobCall}
    {call' : JobCall} {r' : JobClaim} (h : Hands db before call r)
    (h' : Hands db (before ++ call :: between) call' r') (hjob : r'.jobId = r.jobId) :
    r.fencingToken < r'.fencingToken := by
  have hk := keyed_jobRun hkeys before
  unfold Hands at h'
  rw [run_append, run_cons] at h'
  have hpast := past_run (keyed_jobStep hk call) between (past_claimed hk h)
  obtain ⟨_, _, _, job, hmem, _, hid, hf, _⟩ := claimed_ok h'
  have hle := hpast job hmem (hid.symm.trans hjob)
  omega

theorem closed_commits {request : IngestRequest}
    (h : jobAnswer db (.commit request) = .ok (.returned true)) :
    Closed request.jobId (jobStep db (.commit request)) := by
  obtain ⟨db', r, hres, hr⟩ := answering_eq_ok h
  obtain rfl := JobAnswer.returned.inj hr
  rcases v4CommitIngestionJob_ok hres with
    ⟨_, hfalse⟩ | ⟨job, target, document, operations, hlock, _, _, _, _, _, _, hdb, _⟩
  · cases hfalse
  · obtain ⟨hmem, hheld, _⟩ := lockIngestionJob_some hlock
    have hstep : jobStep db (.commit request) = db' := by
      show commit db (answering .returned (v4CommitIngestionJob db request)) = db'
      rw [hres]
      rfl
    rw [hstep, hdb]
    intro j hj hid
    have hj : j ∈ updateWhere (fun j => j.id = job.id) (completedJob request.chunks.length)
      db.content.jobs := hj
    rw [mem_updateWhere] at hj
    obtain ⟨j₀, hj₀, rfl⟩ := hj
    by_cases hk : j₀.id = job.id
    · simp [hk, completedJob]
    · simp only [hk, decide_false] at hid
      exact absurd (hid.trans (holdsJobLease_id hheld).symm) hk

/-- Fencing, for every interleaving of the workers' calls and the clock. A later
claim hands out a larger token; from then on every call under the earlier lease is
refused and changes nothing; a job is committed once; and under an unexpired lease,
with its operation running, every progress call that `process` makes in its order
is accepted, whatever was reported before the claim. -/
theorem fencing_run {db : Db} (hkeys : Keyed (·.id) db.content.jobs) :
    (∀ before call r between call' r', Hands db before call r →
      Hands db (before ++ call :: between) call' r' → r'.jobId = r.jobId →
      r.fencingToken < r'.fencingToken ∧
      ∀ after late, JobCall.lease late = some r.lease →
        let s := run jobStep db (before ++ call :: between ++ call' :: after)
        jobStep s late = s ∧ jobAnswer s late = late.refusal) ∧
    (∀ before request between request', Commits db before request →
      request'.jobId = request.jobId → ¬ Commits db (before ++ .commit request :: between) request') ∧
    (∀ before call r between w settings report, Hands db before call r →
      reportsUnder r.lease (between ++ [.progress r.jobId r.leaseToken r.fencingToken report]) <+:
        (process w settings r Reports.start).2.calls →
      let s := run jobStep db (before ++ call :: between)
      s.content.jobs.any (r.lease.holds s.now) = true →
      (∀ j ∈ s.content.jobs, j.id = r.jobId → operationAllows s j.reprocessingOperationId = true) →
      jobAnswer s (.progress r.jobId r.leaseToken r.fencingToken report) =
        .ok (.progressed .accepted)) := by
  refine ⟨?_, ?_, ?_⟩
  · intro before call r between call' r' h h' hjob
    have hlt := hands_lt hkeys h h' hjob
    refine ⟨hlt, fun after late hlease => ?_⟩
    have hk := keyed_jobRun hkeys (before ++ call :: between)
    have hpast := past_run (keyed_jobStep hk call') after (past_claimed hk h')
    rw [hjob] at hpast
    intro s
    have hs : s = run jobStep (jobStep (run jobStep db (before ++ call :: between)) call') after := by
      rw [← run_cons, ← run_append]
    rw [hs]
    exact jobStep_refused hlease (hpast.not_held hlt)
  · intro before request between request' h hjob h'
    have hk := keyed_jobRun hkeys before
    unfold Commits at h'
    rw [run_append, run_cons] at h'
    have hclosed := closed_run (keyed_jobStep hk (.commit request)) between (closed_commits h)
    obtain ⟨db', r, hres, hr⟩ := answering_eq_ok h'
    obtain rfl := JobAnswer.returned.inj hr
    rcases v4CommitIngestionJob_ok hres with
      ⟨_, hfalse⟩ | ⟨job, _, _, _, hlock, _, _, _, _, _, _, _, _⟩
    · cases hfalse
    · obtain ⟨hmem, hheld, _⟩ := lockIngestionJob_some hlock
      have hdone := hclosed job hmem ((holdsJobLease_id hheld).trans hjob)
      rw [holdsJobLease_running hheld] at hdone
      cases hdone
  · intro before call r between w settings report h hfront s hheld hallows
    have hk := keyed_jobRun hkeys before
    have hrows := reportedUnder_run (l := r.lease) between (keyed_jobStep hk call)
      (reportedUnder_claimed hk h)
    rw [← run_cons, ← run_append, List.nil_append] at hrows
    -- the calls so far and this one are an initial part of what `process` reports
    have hsplit : reportsUnder r.lease
        (between ++ [.progress r.jobId r.leaseToken r.fencingToken report]) =
        reportsUnder r.lease between ++ [report] := by
      rw [reportsUnder, List.filterMap_append]
      simp [JobCall.lease, JobClaim.lease, reportsUnder]
    rw [hsplit] at hfront
    have hwell := process_wellReported w settings r
    obtain ⟨rest, hcalls⟩ := hfront
    have hmem : report ∈ (process w settings r Reports.start).2.calls := by
      rw [← hcalls]
      simp
    have hle : ∀ c ∈ reportsUnder r.lease between, c.le report := by
      have hordered := hwell.ordered
      rw [← hcalls] at hordered
      have hpair := (List.pairwise_append.mp hordered).1
      intro c hc
      exact (List.pairwise_append.mp hpair).2.2 c hc report (by simp)
    exact progress_accepted (hwell.valid report hmem) hle hrows hheld hallows

/-- A document of one page with a text layer, and services that answer. -/
def sampleWorld : World where
  materialize := .ok ()
  reader := some [⟨"a", .direct⟩]
  parsePages := fun _ _ _ => .error (.ocr "unavailable")
  repeatsDirect := fun _ _ => false
  pack := fun page => [⟨page.pageNumber, page.text, none, 1, page.parseMethod, ""⟩]
  sha256Text := fun text => .digest text.length
  uuid5 := fun identity => identity.ordinal
  embed := fun texts _ => .ok (texts.map fun _ => 8)
  answer := fun _ => .ok ()

/-- The defaults of the settings, for the versions of the sample upload. -/
def sampleSettings : ProcessorSettings where
  ocrBatchSize := 8
  maximumPdfPages := 500
  maximumOcrPages := 128
  maximumExtractedTextCharacters := 10000000
  maximumStagedOcrResultBytes := 67108864
  maximumDocumentChunks := 5000
  embeddingBatchSize := 16
  externalBatchMaxAttempts := 2
  parserVersion := "p1"
  chunkingVersion := "c1"
  embeddingVersion := "embedding-v1"
  schemaVersion := "v1"
  ocrBatchSize_pos := by decide
  embeddingBatchSize_pos := by decide
  maximumOcrPages_le := by decide
  maximumDocumentChunks_le := by decide

/-- One document, uploaded and queued. -/
def uploadedDb : Db :=
  LocalRag.Core.run LocalRag.step sampleDb
    [.uploadPreflight (some (.digest 1)) 20 (sampleUpload 7 none "a.pdf"),
      .commitUpload (some (.digest 1)) 20 ⟨30, 31, 32, 33, 34⟩ (sampleUpload 7 none "a.pdf")]

/-- The lease of the `n`-th claim of that job. -/
def sampleClaim (n : Nat) : JobClaim where
  jobId := 31
  documentId := 30
  objectKey := .original 7
  originalFilename := "a.pdf"
  sha256 := .digest 7
  byteSize := 1
  attempt := n
  leaseToken := 100 + n
  fencingToken := n
  parserVersion := "p1"
  chunkingVersion := "c1"
  embeddingVersion := "embedding-v1"

/-- A first worker reports and stalls, its lease runs out and a second one claims
the job: the first one's requeue is refused, and the second one's first report is
accepted. -/
theorem fencing_run_stalled :
    Keyed (·.id) uploadedDb.content.jobs ∧
    (sampleClaim 1).fencingToken < (sampleClaim 2).fencingToken ∧
    jobAnswer (run jobStep uploadedDb [.claim "a" 60 101 [], .progress 31 101 1 ⟨.indexing, 0, 1⟩,
        .tick (61 * second), .claim "b" 60 102 []]) (.requeue 31 101 1 (62 * second)) =
      .ok (.returned false) ∧
    jobAnswer (run jobStep uploadedDb [.claim "a" 60 101 [], .progress 31 101 1 ⟨.indexing, 0, 1⟩,
        .tick (61 * second), .claim "b" 60 102 []]) (.progress 31 102 2 ⟨.parsing, 0, 1⟩) =
      .ok (.progressed .accepted) := by
  have hkeys : Keyed (·.id) uploadedDb.content.jobs := by decide +kernel
  have hfirst : Hands uploadedDb [] (.claim "a" 60 101 []) (sampleClaim 1) := by
    show jobAnswer _ _ = _
    decide +kernel
  have hsecond : Hands uploadedDb ([] ++ .claim "a" 60 101 [] ::
      [.progress 31 101 1 ⟨.indexing, 0, 1⟩, .tick (61 * second)]) (.claim "b" 60 102 [])
      (sampleClaim 2) := by
    show jobAnswer _ _ = _
    decide +kernel
  obtain ⟨hclaims, _, hreports⟩ := fencing_run hkeys
  obtain ⟨hlt, hstale⟩ := hclaims _ _ _ _ _ _ hfirst hsecond rfl
  refine ⟨hkeys, hlt, (hstale [] (.requeue 31 101 1 (62 * second)) rfl).2, ?_⟩
  exact hreports _ _ _ [] sampleWorld sampleSettings ⟨.parsing, 0, 1⟩ hsecond
    (by decide +kernel) (by decide +kernel) (by decide +kernel)

end LocalRag.Ingest
