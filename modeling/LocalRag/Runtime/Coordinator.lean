import LocalRag.Runtime.Scheduler

/-!
# The inference coordinator — its dictionaries and its tasks

Mirrors `CoordinatorRuntime` (`app/runtime/coordinator.py`) as a system of steps. A
coroutine runs from one `await` to the next without interruption, and an `await`
of the scheduler's lock never waits (`Runtime.Scheduler`), so a step is: a call of
`submit`, `stream`, `cancel`, `drain` or `resume`; one turn of the dispatcher's
loop; the first step of an execution task; its last one; the callbacks of a
finished task. A run is any sequence of them.

Mirroring notes.
* A task cancelled before its first step never enters its body: asyncio throws
  into a coroutine that has not started, so no `try` of it is active
  (`taskStart`). Once in its body a task waits only inside the `try`, so it ends
  through the `finally` (`taskEnd`), whatever happened in between.
* What an execution does while it runs, a future's result and the items of a stream's
  queue stay outside. `_execution_tasks` is read by `close` alone, which is not
  among the steps.
* A `drain` that finds the event unset waits for it; `set` releases every waiting
  one, and a waiting one may time out.
* The dispatcher's loop goes on without a wait while there is work. As steps of
  their own its turns may interleave with everything else, which allows more runs
  than there are.
-/

namespace LocalRag.Runtime

open LocalRag.Core

inductive TaskState where
  /-- Not stepped yet; `mustCancel` is asyncio's `_must_cancel`. -/
  | created (mustCancel : Bool)
  /-- Inside `_execute`, or inside `_execute_stream`. -/
  | running (stream : Bool)
  /-- Ended, the done callbacks run or not. -/
  | done (calledBack : Bool)
deriving DecidableEq

structure Task where
  id : Nat
  requestId : RequestId
  state : TaskState
deriving DecidableEq

/-- `not task.done()`. -/
def Task.unfinished (t : Task) : Bool :=
  match t.state with
  | .created _ | .running _ => true
  | .done _ => false

/-- The attributes of `CoordinatorRuntime`; of `_futures` and `_streams` the keys, of
`_cancellations` also whether the event is set. `tasks` are the execution tasks
made so far and `waitingDrains` the drains that wait for `_idle`. -/
structure CoordinatorRuntime (α : Type) where
  scheduler : PriorityScheduler α
  tasks : List Task
  activeTasks : List (RequestId × Nat)
  futures : List RequestId
  streams : List RequestId
  cancellations : List (RequestId × Bool)
  draining : Bool
  idle : Bool
  waitingDrains : Nat

variable {α : Type}

/-- `__init__`. -/
def CoordinatorRuntime.new (α : Type) (starvationSeconds : Int) : CoordinatorRuntime α where
  scheduler := PriorityScheduler.new α starvationSeconds
  tasks := []
  activeTasks := []
  futures := []
  streams := []
  cancellations := []
  draining := false
  idle := true
  waitingDrains := 0

namespace CoordinatorRuntime

/-- The keys of `_cancellations`. -/
def tracked (s : CoordinatorRuntime α) : List RequestId := s.cancellations.map (·.1)

/-- `if not self._cancellations: self._idle.set()`. -/
def settle (s : CoordinatorRuntime α) : CoordinatorRuntime α :=
  if s.cancellations = [] then { s with idle := true, waitingDrains := 0 } else s

/-- `pop` of the three dictionaries. -/
def untrack (s : CoordinatorRuntime α) (r : RequestId) : CoordinatorRuntime α :=
  { s with
    futures := s.futures.filter (· ≠ r)
    streams := s.streams.filter (· ≠ r)
    cancellations := s.cancellations.filter (·.1 ≠ r) }

/-! ## Requests -/

/-- `submit` up to its wait for the future and `stream` up to its wait for an item:
the request is tracked, then queued. `stream` also looks at `_streams`. -/
def accept (streaming : Bool) (s : CoordinatorRuntime α) (r : RequestId) (payload : α)
    (priority : Priority) (now : Int) : Except String Unit × CoordinatorRuntime α :=
  if s.draining then (.error "coordinator is draining", s)
  else if r ∈ s.futures ∨ (streaming = true ∧ r ∈ s.streams) ∨ r ∈ s.tracked then
    (.error "request_id is already queued or active", s)
  else
    let s' : CoordinatorRuntime α :=
      { s with
        futures := if streaming then s.futures else s.futures ++ [r]
        streams := if streaming then s.streams ++ [r] else s.streams
        cancellations := s.cancellations ++ [(r, false)]
        idle := false }
    match s'.scheduler.enqueue r payload priority now with
    | .ok scheduler => (.ok (), { s' with scheduler := scheduler })
    | .error e => (.error e, (s'.untrack r).settle)

/-- `submit`. -/
def submit : CoordinatorRuntime α → RequestId → α → Priority → Int →
    Except String Unit × CoordinatorRuntime α := accept false

/-- `stream`. -/
def stream : CoordinatorRuntime α → RequestId → α → Priority → Int →
    Except String Unit × CoordinatorRuntime α := accept true

/-- `task.cancel()`: a task that has not started is marked, a running one gets the
exception at its wait, an ended one ignores it. -/
def cancelTask (id : Nat) (t : Task) : Task :=
  match t.state with
  | .created _ => if t.id = id then { t with state := .created true } else t
  | _ => t

/-- `cancel` up to the active task: the event is set, and a request that was queued
is off the books. -/
def withdraw (s : CoordinatorRuntime α) (r : RequestId) : CoordinatorRuntime α :=
  let s := { s with
    cancellations := s.cancellations.map fun (c : RequestId × Bool) =>
      if c.1 = r then (c.1, true) else c }
  let (queued, scheduler) := s.scheduler.cancel r
  let s := { s with scheduler := scheduler }
  if queued then s.untrack r else s

/-- `cancel`. -/
def cancel (s : CoordinatorRuntime α) (r : RequestId) : Bool × CoordinatorRuntime α :=
  if r ∉ s.tracked then (false, s)
  else
    let s := s.withdraw r
    (true,
      match s.activeTasks.lookup r with
      | some id => { s with tasks := s.tasks.map (cancelTask id) }
      | none => s)

/-- `drain`, up to its wait. -/
def drain (s : CoordinatorRuntime α) : CoordinatorRuntime α :=
  let s := { s with draining := true }.settle
  if s.idle then s else { s with waitingDrains := s.waitingDrains + 1 }

/-- A waiting `drain` times out. -/
def drainTimeout (s : CoordinatorRuntime α) : CoordinatorRuntime α :=
  { s with waitingDrains := s.waitingDrains - 1 }

/-- `resume`. -/
def resume (s : CoordinatorRuntime α) : CoordinatorRuntime α := { s with draining := false }

/-! ## The dispatcher and the execution tasks -/

/-- One turn of `_dispatch`. -/
def dispatch (s : CoordinatorRuntime α) (now : Int) : CoordinatorRuntime α :=
  match s.scheduler.next now with
  | (none, scheduler) => { s with scheduler := scheduler }
  | (some item, scheduler) =>
    { s with
      scheduler := scheduler
      tasks := s.tasks ++ [⟨s.tasks.length, item.requestId, .created false⟩]
      activeTasks := (item.requestId, s.tasks.length) ::
        s.activeTasks.filter (·.1 ≠ item.requestId) }

def setState (id : Nat) (state : TaskState) (t : Task) : Task :=
  if t.id = id then { t with state := state } else t

def setTask (s : CoordinatorRuntime α) (id : Nat) (state : TaskState) : CoordinatorRuntime α :=
  { s with tasks := s.tasks.map (setState id state) }

/-- The lookups in front of the `try` succeed. -/
def enters (s : CoordinatorRuntime α) (r : RequestId) : Bool :=
  (r ∈ s.streams ∨ r ∈ s.futures) ∧ r ∈ s.tracked

/-- The first step of an execution task: into the `try` of its body, or never
into the body at all. -/
def taskStart (s : CoordinatorRuntime α) (id : Nat) : CoordinatorRuntime α :=
  match s.tasks.find? (·.id = id) with
  | none => s
  | some t =>
    match t.state with
    | .created true => s.setTask id (.done false)
    | .created false =>
      if s.enters t.requestId then s.setTask id (.running (t.requestId ∈ s.streams))
      else s.setTask id (.done false)
    | _ => s

/-- The last step of a running task: the `finally` of its body. -/
def taskEnd (s : CoordinatorRuntime α) (id : Nat) (failed : Bool) : CoordinatorRuntime α :=
  match s.tasks.find? (·.id = id) with
  | none => s
  | some t =>
    match t.state with
    | .running streaming =>
      match s.scheduler.finish t.requestId failed with
      | .error _ => s.setTask id (.done false)
      | .ok scheduler =>
        { s with
          scheduler := scheduler
          futures := if streaming then s.futures else s.futures.filter (· ≠ t.requestId)
          streams := if streaming then s.streams.filter (· ≠ t.requestId) else s.streams
          cancellations := s.cancellations.filter (·.1 ≠ t.requestId) }.settle.setTask id
            (.done false)
    | _ => s

/-- The done callbacks of a task. -/
def taskCallbacks (s : CoordinatorRuntime α) (id : Nat) : CoordinatorRuntime α :=
  match s.tasks.find? (·.id = id) with
  | none => s
  | some t =>
    match t.state with
    | .done false =>
      { s with activeTasks := s.activeTasks.filter (·.1 ≠ t.requestId) }.setTask id (.done true)
    | _ => s

end CoordinatorRuntime

/-! ## Runs -/

inductive Action (α : Type) where
  | submit (requestId : RequestId) (payload : α) (priority : Priority) (now : Int)
  | stream (requestId : RequestId) (payload : α) (priority : Priority) (now : Int)
  | cancel (requestId : RequestId)
  | drain
  | drainTimeout
  | resume
  | dispatch (now : Int)
  | taskStart (id : Nat)
  | taskEnd (id : Nat) (failed : Bool)
  | taskCallbacks (id : Nat)

def step (s : CoordinatorRuntime α) : Action α → CoordinatorRuntime α
  | .submit r payload priority now => (s.submit r payload priority now).2
  | .stream r payload priority now => (s.stream r payload priority now).2
  | .cancel r => (s.cancel r).2
  | .drain => s.drain
  | .drainTimeout => s.drainTimeout
  | .resume => s.resume
  | .dispatch now => s.dispatch now
  | .taskStart id => s.taskStart id
  | .taskEnd id failed => s.taskEnd id failed
  | .taskCallbacks id => s.taskCallbacks id

end LocalRag.Runtime
