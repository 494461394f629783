import LocalRag.Admin.Profiles
import LocalRag.Core.Gen

/-!
# Applying a configuration — the controller, the services and the ledger

Mirrors `ConfigurationController.apply` of `supervisor/controller.py`, the `APPLY_CONFIGURATION`
branch of `PersonalRuntime.apply` with `_Reporter`, `ControllerApi.claim` and `ControllerApi.stage`
of `supervisor/personal_runtime.py`, and the claim of `routes/controller.py`. The controller
drains, replaces, restarts and validates the affected services, one loop after the other, and
reports to the API between the loops; if any of it raises, it puts the prior settings back.

What may go wrong is an argument: `Fates` says of every call of the forward phase and of
every report how it ends. Nothing is asked of it, so it is every point at which one may raise.

Mirroring notes.
* A call of the runtime that raises may leave its service anyhow, but not validated. The calls of
  the rollback succeed.
* A request that raises was refused, never arrived, or was performed and its answer lost. Each
  report is made once at most, so its fate is that of its stage.
* `override` is what `_overrides` has for the service and, before the first application, what its
  environment file has for the same names. The rest of a process's environment is the same at
  every start and is left out.
* The two routes are their SQL calls: the stages, results and reasons sent are ones they accept.
-/

namespace LocalRag.Admin

open LocalRag.Core

/-- `ControllerStage`, the stages a configuration reaches. -/
inductive ControllerStage where
  | preflight | draining | applying | restarting | validating | effective | failed | rollingBack
  | rolledBack
deriving Repr, DecidableEq

def ControllerStage.value : ControllerStage → String
  | .preflight => "preflight"
  | .draining => "draining"
  | .applying => "applying"
  | .restarting => "restarting"
  | .validating => "validating"
  | .effective => "effective"
  | .failed => "failed"
  | .rollingBack => "rolling_back"
  | .rolledBack => "rolled_back"

/-- The calls of `ControllerRuntime`. -/
inductive RuntimeCall where
  | drain | replaceEnvironment | restart | validate
deriving Repr, DecidableEq

/-- One service: its settings, those its process was started with, and whether this application
restarted it and validated what runs. -/
structure Service where
  override : Settings
  running : Option Settings
  restarted : Bool
  validated : Bool
deriving Repr, DecidableEq

/-- How a call of the runtime ends. -/
inductive CallFate where
  | returns
  | raises (left : Service)
deriving Repr, DecidableEq

/-- How a request to the API ends. -/
inductive ReportFate where
  | answered
  /-- Performed, but the answer does not come back. -/
  | lost
  | unsent
deriving Repr, DecidableEq

structure Fates where
  claim : ReportFate
  report : ControllerStage → ReportFate
  call : RuntimeCall → String → CallFate

/-- The change a controller request names, with the digest of its nonce. -/
structure ChangeRequest where
  changeId : ChangeId
  nonceHash : HexText
deriving Repr, DecidableEq

structure Controlled where
  services : String → Service
  /-- The calls of the runtime so far, newest first. -/
  calls : List (RuntimeCall × String)
  db : ConfigurationDb
  /-- `_Reporter.last_stage`. -/
  lastStage : ControllerStage

/-- A step of an application. -/
abbrev Applies := Gen Controlled ApplyError

/-! ## The API -/

/-- `ControllerApi._post`, of a request that is one SQL call. -/
def post (fate : ReportFate) (request : ConfigurationDb → Except SqlError ConfigurationDb) :
    Applies Unit := fun w =>
  match fate, request w.db with
  | .answered, .ok db => (.ok (), { w with db := db })
  | .lost, .ok db => (.error .request, { w with db := db })
  | _, _ => (.error .request, w)

/-- `claim_configuration`: without one row the transaction is rolled back. -/
def claimConfiguration (db : ConfigurationDb) (request : ChangeRequest) :
    Except SqlError (ConfigurationDb × Configuration × Configuration) :=
  match v9ControllerRuntimeConfigurationChange db request.changeId request.nonceHash with
  | .error e => .error e
  | .ok db =>
    match changeConfigurations db request.changeId with
    | [(prior, desired)] => .ok (db, prior, desired)
    | _ => .error noDataFound

/-- `RuntimeConfiguration.parse` of the prior configuration, then of the desired one: the pair. -/
def parseBoth (prior desired : Configuration) :
    Except ApplyError (Configuration × Configuration) := do
  let prior ← parseConfiguration prior
  let desired ← parseConfiguration desired
  return (prior, desired)

/-- `ControllerApi.claim`. -/
def claim (fate : ReportFate) (request : ChangeRequest) :
    Applies (Configuration × Configuration) := fun w =>
  match fate, claimConfiguration w.db request with
  | .answered, .ok (db, prior, desired) => (parseBoth prior desired, { w with db := db })
  | .lost, .ok (db, _) => (.error .request, { w with db := db })
  | _, _ => (.error .request, w)

/-- The call of `finish_configuration`. -/
def finish (request : ChangeRequest) (result : String) (reasonCode : Option String)
    (db : ConfigurationDb) : Except SqlError ConfigurationDb :=
  v9ControllerFinishRuntimeConfiguration db request.changeId request.nonceHash result
    (some (reasonCode.getD "configuration_applied"))

/-- The call of `advance_configuration`. -/
def advance (request : ChangeRequest) (stage : ControllerStage) (db : ConfigurationDb) :
    Except SqlError ConfigurationDb :=
  v9ControllerAdvanceRuntimeConfiguration db request.changeId request.nonceHash stage.value

/-- `ControllerApi.stage`. -/
def apiStage (fates : Fates) (request : ChangeRequest) (stage : ControllerStage)
    (reasonCode : Option String) : Applies Unit :=
  match stage with
  | .preflight => pure ()
  | .effective => post (fates.report .effective) (finish request "effective" reasonCode)
  | .failed => post (fates.report .failed) (finish request "failed" reasonCode)
  | .rolledBack => post (fates.report .rolledBack) (finish request "rolled_back" reasonCode)
  | stage => post (fates.report stage) (advance request stage)

/-- `_Reporter.stage`. -/
def report (fates : Fates) (request : ChangeRequest) (stage : ControllerStage)
    (reasonCode : Option String) : Applies Unit := do
  apiStage fates request stage reasonCode
  Gen.update fun w => { w with lastStage := stage }

/-! ## The runtime -/

/-- A call on a service, with its effect where it returns. -/
def callRuntime (call : RuntimeCall) (service : String) (fate : CallFate)
    (effect : Service → Service) : Applies Unit := fun w =>
  match fate with
  | .returns =>
    (.ok (), { w with
      calls := (call, service) :: w.calls
      services := Function.update w.services service (effect (w.services service)) })
  | .raises left =>
    (.error .runtime, { w with
      calls := (call, service) :: w.calls
      services := Function.update w.services service { left with validated := false } })

/-- `drain`. -/
def drain (fate : CallFate) (service : String) : Applies Unit := callRuntime .drain service fate id

/-- `replace_environment`. -/
def replaceEnvironment (fate : CallFate) (service : String) (values : Settings) : Applies Unit :=
  callRuntime .replaceEnvironment service fate fun s => { s with override := values }

/-- `restart`: stop the process, start one with the settings there are now. -/
def restart (fate : CallFate) (service : String) : Applies Unit :=
  callRuntime .restart service fate fun s =>
    { s with running := some s.override, restarted := true, validated := false }

/-- `validate`. -/
def validate (fate : CallFate) (service : String) : Applies Unit :=
  callRuntime .validate service fate fun s => { s with validated := true }

/-! ## The controller -/

/-- `values[service]`. -/
def itemOf (values : Values) (service : String) : Except ApplyError Settings :=
  match values.lookup service with
  | some settings => .ok settings
  | none => .error (.key service)

section Controller

variable (fates : Fates) (request : ChangeRequest)

/-- The body of the `try`. -/
def forward (desiredValues : Values) (affected : List String) : Applies Unit := do
  report fates request .draining none
  Gen.each (fun service => drain (fates.call .drain service) service) affected
  report fates request .applying none
  Gen.each (fun service => do
    let values ← Gen.lift (itemOf desiredValues service)
    replaceEnvironment (fates.call .replaceEnvironment service) service values) affected
  report fates request .restarting none
  Gen.each (fun service => restart (fates.call .restart service) service) affected
  report fates request .validating none
  Gen.each (fun service => validate (fates.call .validate service) service) affected

/-- One service in the `except` clause. -/
def restore (priorValues : Values) (service : String) : Applies Unit := do
  let values ← Gen.lift (itemOf priorValues service)
  replaceEnvironment .returns service values
  restart .returns service
  validate .returns service

/-- The `except` clause up to its `raise`. -/
def rollBack (priorValues : Values) (affected : List String) : Applies Unit := do
  report fates request .rollingBack (some "application_failed")
  Gen.each (restore priorValues) affected
  report fates request .rolledBack (some "prior_revision_restored")

/-- `ConfigurationController.apply`, once the affected services are known. -/
def applyAffected (desiredValues priorValues : Values) (affected : List String) :
    Applies Unit := do
  Gen.when (affected = []) (throw (.protocol "configuration change has no runtime impact"))
  tryCatch (forward fates request desiredValues affected) fun e => do
    rollBack fates request priorValues affected
    throw e
  report fates request .effective none

/-- `ConfigurationController.apply`. -/
def applyConfiguration (resolver : SignedProfileResolver) (desired prior : Configuration) :
    Applies Unit := do
  report fates request .preflight none
  let desiredValues ← Gen.lift (resolver.resolve desired)
  let priorValues ← Gen.lift (resolver.resolve prior)
  applyAffected fates request desiredValues priorValues
    (affectedServices desiredValues priorValues)

/-- The report of the outer handler, whatever becomes of it. -/
def reportFailed : Applies Unit := fun w =>
  if w.lastStage = .rolledBack then (.ok (), w)
  else (tryCatch (report fates request .failed (some "rollback_failed")) fun _ => pure ()) w

/-- `PersonalRuntime.apply` of an `APPLY_CONFIGURATION`. -/
def personalApply (resolver : SignedProfileResolver) : Applies Unit := do
  let configurations ← claim fates.claim request
  Gen.update fun w => { w with lastStage := .preflight }
  tryCatch (applyConfiguration fates request resolver configurations.2 configurations.1) fun e => do
    reportFailed fates request
    throw e

end Controller

end LocalRag.Admin
