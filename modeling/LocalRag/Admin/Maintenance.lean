import LocalRag.Core.Find
import LocalRag.Core.Gen
import LocalRag.Core.Run

/-!
# A backup and the gate — mutations drained, workers stopped, both undone

Mirrors `MaintenanceGate` and `MaintenanceGateMiddleware` of `runtime/maintenance_gate.py`, the two
maintenance routes of `routes/controller.py`, and `_create_backup` with `_start` and `_stop` of
`supervisor/personal_runtime.py`. A backup closes the gate of the API and waits for the mutations
inside to leave, stops the two workers, exports and verifies, and at its end starts the workers it
stopped and opens the gate it closed, by two local notes of what it did.

How every call ends is an argument, with the requests that arrive and the mutations that
leave meanwhile, so a run of the program is every interleaving and every point of failure. `loud`
is not in the source: it notes that the export or the verification saw a mutation or a worker.

Mirroring notes.
* The `asyncio` lock makes each method of the gate one step; `drain` is one up to its wait.
* A request to the API that raises was never performed, or was performed and its answer is lost.
  The drain request may also be answered with the time-out of its wait.
* The calls of the cleanup succeed: what they make of failures is not asked.
* The reports change nothing here; `failures` keeps the reasons the failure reports give.
* The monitor thread and the other controller actions, which `_operation_lock` keeps out, are left
  out.
-/

namespace LocalRag.Admin

open LocalRag.Core

/-! ## The gate -/

structure MaintenanceGate where
  draining : Bool
  activeMutations : Nat
  /-- `_idle.is_set()`. -/
  idle : Bool
deriving Repr, DecidableEq

namespace MaintenanceGate

def new : MaintenanceGate := ⟨false, 0, true⟩

/-- `enter_mutation`. -/
def enterMutation (g : MaintenanceGate) : Bool × MaintenanceGate :=
  if g.draining then (false, g)
  else (true, { g with activeMutations := g.activeMutations + 1, idle := false })

/-- `leave_mutation`. -/
def leaveMutation (g : MaintenanceGate) : MaintenanceGate :=
  { g with
    activeMutations := g.activeMutations - 1
    idle := if g.activeMutations - 1 = 0 then true else g.idle }

/-- `drain`, up to its wait. -/
def close (g : MaintenanceGate) : MaintenanceGate :=
  { g with draining := true, idle := if g.activeMutations = 0 then true else g.idle }

/-- `resume`. -/
def resume (g : MaintenanceGate) : MaintenanceGate := { g with draining := false }

end MaintenanceGate

/-- What the middleware reads of a request. -/
structure Scope where
  type : String
  method : String
  path : String
deriving Repr, DecidableEq

/-- `mutation and not internal`. -/
def Scope.entersGate (scope : Scope) : Bool :=
  scope.type = "http" ∧ (["POST", "PUT", "PATCH", "DELETE"].contains scope.method) ∧
    ¬ "/internal/controller/".toList.isPrefixOf scope.path.toList

/-- What happens at the API. -/
inductive GateEvent where
  | arrives (scope : Scope)
  /-- A mutation that entered is done. -/
  | leaves
deriving Repr, DecidableEq

/-- `MaintenanceGateMiddleware.__call__`, before and after the application. -/
def gateStep (g : MaintenanceGate) : GateEvent → MaintenanceGate
  | .arrives scope => if scope.entersGate then g.enterMutation.2 else g
  | .leaves => if g.activeMutations = 0 then g else g.leaveMutation

/-! ## The supervisor -/

inductive WorkerName where
  | ingestion | deletion
deriving Repr, DecidableEq

/-- A worker: whether `_children` has it, and whether its process runs. -/
structure WorkerProcess where
  tracked : Bool
  running : Bool
deriving Repr, DecidableEq

inductive BackupFault where
  /-- `PersonalBackupError`. -/
  | backup (message : String)
  | other
deriving Repr, DecidableEq

structure Maintenance where
  gate : MaintenanceGate
  workers : WorkerName → WorkerProcess
  claimed : Bool
  drained : Bool
  stoppedWorkers : List WorkerName
  failures : List String
  loud : Bool

/-- A step of the backup. -/
abbrev BacksUp := Gen Maintenance BackupFault

/-- A call: what happens at the API until it ends, and what it raises. -/
structure CallEnd where
  meanwhile : List GateEvent
  raises : Option BackupFault
deriving Repr, DecidableEq

/-- The drain request. -/
inductive DrainEnd where
  | unsent (meanwhile : List GateEvent)
  /-- The gate closes after `before`, and the wait goes on over `during`. -/
  | performed (before during : List GateEvent) (lost : Bool)
deriving Repr, DecidableEq

/-- How the calls of `_stop` on the process end. -/
structure StopEnd where
  meanwhile : List GateEvent
  windows : Bool
  /-- `process.poll()` finds it ended. -/
  exited : Bool
  /-- It ends in time after `CTRL_BREAK_EVENT`, `terminate` and `kill`. -/
  onBreak : Bool
  terminates : Bool
  onTerminate : Bool
  kills : Bool
  onKill : Bool
  /-- Whether it goes on running if none of this ended it. -/
  survives : Bool
deriving Repr, DecidableEq

structure BackupFates where
  claim : CallEnd
  chooseDestination : CallEnd
  drain : DrainEnd
  stop : WorkerName → StopEnd
  exporting : CallEnd
  doExport : CallEnd
  exported : CallEnd
  verifying : CallEnd
  verify : CallEnd
  verified : CallEnd
  failed : CallEnd
  start : WorkerName → List GateEvent
  resume : List GateEvent

/-- The API goes on. -/
def pass (events : List GateEvent) : BacksUp Unit :=
  Gen.update fun m => { m with gate := run gateStep m.gate events }

/-- A call with no effect here. -/
def call (f : CallEnd) : BacksUp Unit := do
  pass f.meanwhile
  match f.raises with
  | none => pure ()
  | some e => throw e

/-- A mutation is inside, or a worker runs. -/
def isLoud (workers : WorkerName → WorkerProcess) (g : MaintenanceGate) : Bool :=
  g.activeMutations ≠ 0 ∨ (workers .ingestion).running ∨ (workers .deletion).running

/-- At some moment of these events. -/
def loudAlong (workers : WorkerName → WorkerProcess) : MaintenanceGate → List GateEvent → Bool
  | g, [] => isLoud workers g
  | g, event :: events => isLoud workers g || loudAlong workers (gateStep g event) events

/-- A call that has to run in quiet. -/
def watched (f : CallEnd) : BacksUp Unit := do
  Gen.update fun m => { m with loud := m.loud || loudAlong m.workers m.gate f.meanwhile }
  call f

/-- `maintenance_drain`: the route answers once `_idle` is set, or that the wait timed out. -/
def maintenanceDrain (f : DrainEnd) : BacksUp Unit :=
  match f with
  | .unsent meanwhile => do
    pass meanwhile
    throw .other
  | .performed before during lost => do
    pass before
    Gen.update fun m => { m with gate := m.gate.close }
    pass during
    fun m => if m.gate.idle ∧ ¬ lost then (.ok (), m) else (.error .other, m)

/-- `_stop` returns, so the process has ended: from `poll` on. -/
def StopEnd.ends (f : StopEnd) : Bool :=
  if f.exited then true
  else if f.windows ∧ f.onBreak then true
  else if ¬ f.terminates then false
  else if f.onTerminate then true
  else f.kills ∧ f.onKill

/-- `_stop`. -/
def stop (f : StopEnd) (name : WorkerName) : BacksUp Unit := do
  pass f.meanwhile
  fun m =>
    if ¬ (m.workers name).tracked then (.ok (), m)
    else if f.ends then
      (.ok (), { m with workers := Function.update m.workers name ⟨false, false⟩ })
    else
      (.error .other, { m with
        workers := Function.update m.workers name ⟨false, (m.workers name).running && f.survives⟩ })

/-- `_start`. -/
def start (events : List GateEvent) (name : WorkerName) : BacksUp Unit := do
  pass events
  fun m =>
    if (m.workers name).tracked then (.error .other, m)
    else (.ok (), { m with workers := Function.update m.workers name ⟨true, true⟩ })

/-! ## `_create_backup` -/

section Backup

variable (fates : BackupFates)

/-- `if service in self._children: self._stop(service); stopped_workers.append(service)`. -/
def stopWorker (name : WorkerName) : BacksUp Unit := fun m =>
  if (m.workers name).tracked then
    (do
      stop (fates.stop name) name
      Gen.update fun m => { m with stoppedWorkers := m.stoppedWorkers ++ [name] } : BacksUp Unit) m
  else (.ok (), m)

/-- The body of the `try`. -/
def backUp : BacksUp Unit := do
  call fates.claim
  Gen.update fun m => { m with claimed := true }
  call fates.chooseDestination
  maintenanceDrain fates.drain
  Gen.update fun m => { m with drained := true }
  Gen.each (stopWorker fates) [.ingestion, .deletion]
  call fates.exporting
  watched fates.doExport
  call fates.exported
  call fates.verifying
  watched fates.verify
  call fates.verified

/-- `"cancelled" in message.lower()`, of ASCII letters. -/
def isCancelled (message : String) : Bool :=
  (findFrom "cancelled".toList (message.toList.map Char.toLower) 0).isSome

/-- The reason a failure is reported with. -/
def failureReason : BackupFault → String
  | .backup message =>
    if isCancelled message then "destination_cancelled"
    else "backup_or_restore_verification_failed"
  | .other => "backup_controller_failed"

/-- The two `except` clauses. -/
def reportFailure (e : BackupFault) : BacksUp Unit := do
  (fun m =>
    if m.claimed then
      (tryCatch (do
        Gen.update fun m => { m with failures := m.failures ++ [failureReason e] }
        call fates.failed) fun _ => pure () : BacksUp Unit) m
    else (.ok (), m) : BacksUp Unit)
  throw e

/-- The `finally` clause. -/
def cleanUp : BacksUp Unit := do
  (fun m => Gen.each (fun name => tryCatch (start (fates.start name) name) fun _ => pure ())
    m.stoppedWorkers m : BacksUp Unit)
  fun m =>
    if m.drained then
      (do
        pass fates.resume
        Gen.update fun m => { m with gate := m.gate.resume } : BacksUp Unit) m
    else (.ok (), m)

/-- `_create_backup`, of a runtime with a backup service. -/
def createBackup : BacksUp Unit :=
  Gen.ensuring (do
    Gen.update fun m => { m with claimed := false, drained := false, stoppedWorkers := [] }
    tryCatch (backUp fates) (reportFailure fates)) (cleanUp fates)

end Backup

end LocalRag.Admin
