import LocalRag.Core.Json
import LocalRag.Core.Run
import LocalRag.Core.Table

/-!
# Polling the ingestion jobs — the hook of the library page

Mirrors `useJobPolling` (`features/library/use-job-polling.ts`) while it is mounted, a step
for each callback and for each thing React and the event loop do between them: the
microtasks it queued, the timer, the two callbacks of a poll that settled, a render, its
commit, and the effect that copies the rendered jobs into `trackedRef`.

Mirroring notes.
* A `Record<string, TrackedJob>` whose keys are the ids of its jobs is the list of the jobs.
* Microtasks run in the order they were queued. A click, a timer and a `visibilitychange`
  come when none is left; whatever else may come at any time, so does the copying effect
  between its commit and the next render.
* `queued` is the last value given to `setTracked` since the last render began. Each value
  is a new object, so each render that takes one has its effect run.
* `settle` is the callback of `then`, with what became of each request; `finally` is a
  microtask behind it.
* Nothing reads session storage once the hook is mounted: `restoreTracked` is modelled, what
  is written there is not. Neither is `onJob`, nor what `onTerminal` does.
-/

namespace LocalRag.Library

open LocalRag.Core

def TERMINAL : List String := ["completed", "failed", "interrupted"]

def NORMAL_DELAY : Nat := 2000

def MAX_FAILURE_DELAY : Nat := 30000

def pollingDelay (failures : Nat) : Nat :=
  if failures = 0 then NORMAL_DELAY
  else min MAX_FAILURE_DELAY (NORMAL_DELAY * Nat.pow 2 (min (failures - 1) 10))

structure TrackedJob where
  jobId : String
  documentId : String
  status : String
  failures : Nat
deriving DecidableEq

/-! ## What session storage held -/

/-- `isTrackedJob`, with the job it narrows to. -/
def isTrackedJob (value : Json) : Option TrackedJob :=
  match value with
  | .obj members =>
    match Json.get members "jobId", Json.get members "documentId", Json.get members "status",
      Json.get members "failures" with
    | some (.str jobId), some (.str documentId), some (.str status), some (.int failures) =>
      if 0 ≤ failures ∧ status ∉ TERMINAL then some ⟨jobId, documentId, status, failures.toNat⟩
      else none
    | _, _, _, _ => none
  | _ => none

/-- The entries of a parsed object, each key once with its last value. -/
def entriesOf (members : List (String × Json)) : List (String × Json) :=
  (members.map (·.1)).eraseDups.filterMap fun key => (Json.get members key).map fun value => (key, value)

/-- `restoreTracked`, on the parsed item, if there is one and it parses. An array has no entry
whose key is the id of a job, ids being no indices. -/
def restoreTracked (item : Option Json) : List TrackedJob :=
  match item with
  | some (.obj members) =>
    (entriesOf members).filterMap fun entry =>
      (isTrackedJob entry.2).filter fun job => entry.1 = job.jobId
  | _ => []

/-! ## The state -/

/-- A poll whose requests have not all settled. -/
structure Flight where
  id : Nat
  active : List TrackedJob
  aborted : Bool

inductive Microtask where
  /-- `pollRef.current()`. -/
  | poll
  /-- The callback of `finally`. -/
  | finished (flight : Nat)
deriving DecidableEq

structure Hook where
  /-- `trackedRef.current`. -/
  trackedRef : List TrackedJob
  queued : Option (List TrackedJob)
  /-- A render that is not committed yet. -/
  rendering : Option (List TrackedJob)
  /-- The effect of the last commit, if it has not run. -/
  copying : Option (List TrackedJob)
  pollError : Option String
  /-- The pending timer, with its delay. -/
  timer : Option Nat
  flights : List Flight
  /-- How many polls were started; a poll is known by its number. -/
  started : Nat
  controller : Option Nat
  inFlight : Bool
  microtasks : List Microtask
  visible : Bool
  /-- The jobs `onTerminal` was called for. -/
  terminalCalls : List String

/-- What became of a request for a job. -/
inductive JobAnswer where
  | job (status : String)
  /-- An `ApiError` with status 404. -/
  | missing
  /-- Any other rejection, with the message if it is an `Error`. -/
  | failed (message : Option String)

/-! ## The jobs -/

def jobOf (jobs : List TrackedJob) (jobId : String) : Option TrackedJob :=
  rowAt (·.jobId) jobs jobId

/-- `{ ...jobs, [item.jobId]: item }`. -/
def putJob (jobs : List TrackedJob) (item : TrackedJob) : List TrackedJob :=
  if (jobOf jobs item.jobId).isSome then
    updateWhere (fun job => job.jobId = item.jobId) (fun _ => item) jobs
  else jobs ++ [item]

/-- `delete jobs[jobId]`. -/
def dropJob (jobs : List TrackedJob) (jobId : String) : List TrackedJob :=
  deleteWhere (fun job => job.jobId = jobId) jobs

/-! ## The callbacks -/

def clearTimer (s : Hook) : Hook := { s with timer := none }

def schedule (s : Hook) (delay : Nat) : Hook :=
  if ¬ s.visible ∨ s.trackedRef = [] then clearTimer s else { s with timer := some delay }

def poll (s : Hook) : Hook :=
  if s.inFlight ∨ ¬ s.visible then s
  else
    let active := s.trackedRef.filter fun item => item.status ∉ TERMINAL
    if active = [] then s
    else
      { s with
        inFlight := true
        controller := some s.started
        started := s.started + 1
        flights := s.flights ++ [⟨s.started, active, false⟩] }

/-- `next`, `maximumFailures`, `failureReason`, and the calls of `onTerminal`. -/
structure Settling where
  next : List TrackedJob
  maximumFailures : Nat
  failureReason : Option String
  terminalCalls : List String

/-- One round of the loop over the results. -/
def settleItem (answer : String → JobAnswer) (acc : Settling) (item : TrackedJob) : Settling :=
  match jobOf acc.next item.jobId with
  | none => acc
  | some job =>
    match answer item.jobId with
    | .job status =>
      if status ∈ TERMINAL then
        { acc with
          next := dropJob acc.next item.jobId
          terminalCalls := acc.terminalCalls ++ [item.jobId] }
      else { acc with next := putJob acc.next { item with status := status, failures := 0 } }
    | .missing => { acc with next := dropJob acc.next item.jobId }
    | .failed message =>
      { acc with
        next := putJob acc.next { item with failures := job.failures + 1 }
        maximumFailures := max acc.maximumFailures (job.failures + 1)
        failureReason :=
          acc.failureReason <|> some (message.getD "Unable to refresh ingestion status.") }

/-- The callback of `then`, for results that are wanted. -/
def handleResults (s : Hook) (active : List TrackedJob) (answer : String → JobAnswer) : Hook :=
  let settled := active.foldl (settleItem answer) ⟨s.trackedRef, 0, none, s.terminalCalls⟩
  schedule
    { s with
      trackedRef := settled.next
      queued := some settled.next
      pollError := settled.failureReason
      terminalCalls := settled.terminalCalls }
    (pollingDelay settled.maximumFailures)

/-- The requests of a poll have settled. -/
def settle (s : Hook) (flight : Nat) (answer : String → JobAnswer) : Hook :=
  match s.flights.find? (·.id = flight) with
  | none => s
  | some f =>
    let s' := { s with
      flights := s.flights.filter (·.id ≠ flight)
      microtasks := s.microtasks ++ [.finished flight] }
    if f.aborted then s' else handleResults s' f.active answer

/-- The callback of `finally`. -/
def finished (s : Hook) (flight : Nat) : Hook :=
  if s.controller = some flight then { s with controller := none, inFlight := false } else s

def runMicrotask (s : Hook) : Hook :=
  match s.microtasks with
  | [] => s
  | .poll :: rest => poll { s with microtasks := rest }
  | .finished flight :: rest => finished { s with microtasks := rest } flight

def track (s : Hook) (item : TrackedJob) : Hook :=
  if item.status ∈ TERMINAL then s
  else
    let next := putJob s.trackedRef { item with failures := 0 }
    { clearTimer { s with trackedRef := next, queued := some next } with
      microtasks := s.microtasks ++ [.poll] }

def retryNow (s : Hook) : Hook := poll (clearTimer { s with pollError := none })

def untrackDocument (s : Hook) (documentId : String) : Hook :=
  let next := s.trackedRef.filter fun item => item.documentId ≠ documentId
  let s' := { s with trackedRef := next, queued := some next }
  if next = [] then { clearTimer s' with pollError := none } else s'

def abortFlight (s : Hook) : Hook :=
  { s with
    flights := s.flights.map fun f =>
      if s.controller = some f.id then { f with aborted := true } else f
    controller := none
    inFlight := false }

/-- `visibilitychange`. -/
def visibilityChange (s : Hook) (visible : Bool) : Hook :=
  if visible then retryNow { s with visible := true }
  else abortFlight (clearTimer { s with visible := false })

def fireTimer (s : Hook) : Hook :=
  match s.timer with
  | none => s
  | some _ => poll { s with timer := none }

/-! ## React -/

/-- `trackedRef.current = tracked`. -/
def copyTracked (s : Hook) : Hook :=
  match s.copying with
  | none => s
  | some tracked => { s with trackedRef := tracked, copying := none }

/-- A render that takes what was queued; the effects of the last one have run before. -/
def render (s : Hook) : Hook :=
  match s.queued with
  | none => s
  | some tracked => { copyTracked s with rendering := some tracked, queued := none }

def commitRender (s : Hook) : Hook :=
  match s.rendering with
  | none => s
  | some tracked => { s with copying := some tracked, rendering := none }

inductive HookAct where
  | track (item : TrackedJob)
  | untrackDocument (documentId : String)
  | retryNow
  | visibilityChange (visible : Bool)
  | fireTimer
  | settle (flight : Nat) (answer : String → JobAnswer)
  | microtask
  | render
  | commit
  | copyTracked

/-- A task of its own, which waits until no microtask is left. -/
def asTask (f : Hook → Hook) (s : Hook) : Hook := if s.microtasks = [] then f s else s

def hookStep (s : Hook) : HookAct → Hook
  | .track item => track s item
  | .untrackDocument documentId => untrackDocument s documentId
  | .retryNow => asTask retryNow s
  | .visibilityChange visible => asTask (visibilityChange · visible) s
  | .fireTimer => asTask fireTimer s
  | .settle flight answer => settle s flight answer
  | .microtask => runMicrotask s
  | .render => render s
  | .commit => commitRender s
  | .copyTracked => copyTracked s

/-- After the effects of the first render: the restored jobs are polled at once. -/
def mount (item : Option Json) (visible : Bool) : Hook where
  trackedRef := restoreTracked item
  queued := if restoreTracked item = [] then none else some (restoreTracked item)
  rendering := none
  copying := none
  pollError := none
  timer := none
  flights := []
  started := 0
  controller := none
  inFlight := false
  microtasks := if restoreTracked item = [] then [] else [.poll]
  visible := visible
  terminalCalls := []

end LocalRag.Library
