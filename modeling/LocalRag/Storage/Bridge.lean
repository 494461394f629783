import LocalRag.Core.Run

/-!
# The thread bridge — cancelled callers, threads that go on

`_BoundedThreadBridge.run` of `services/object_storage.py`: a blocking function runs
in a thread while its caller holds one of the bridge's permits. A cancelled task
ends at once and its thread does not, so the first cancellation of a caller is
kept from the worker (`asyncio.shield`) and handled by waiting for the worker, then
by handing its result to `cancel_cleanup` in a second thread. Neither of these two
waits is shielded.

A step is what happens between two awaits: a caller gets its permit, a thread of the
pool takes a function up or ends it, a caller goes on, a cancellation is delivered.
`bridge_kept_iff`: the calls of a run keep the bridge's promise (a finished call has
no thread left, no more threads run than there are permits, a result the caller did
not get was cleaned up once) in every state exactly if no cancellation reaches a
call that is still waiting for its worker's thread, for a result it has to clean up
or for the cleanup.

Mirroring notes. The pool takes functions up in any order, and the semaphore wakes
any of its waiters. A worker that is cancelled before the pool took it up never
runs; that is `dropped`. The error of a cleanup is swallowed, so its end carries
nothing.
-/

namespace LocalRag.Storage

open LocalRag.Core

variable {ρ : Type}

/-- What became of a function handed to the thread pool. -/
inductive Thread (ρ : Type) where
  | unsubmitted
  | queued
  | running
  /-- It returned a value, or raised. -/
  | ended (result : Option ρ)
  | dropped

/-- Nothing of it runs or will run. -/
def Thread.isOver : Thread ρ → Bool
  | .unsubmitted | .ended _ | .dropped => true
  | .queued | .running => false

def Thread.isRunning : Thread ρ → Bool
  | .running => true
  | _ => false

/-- The cancellation of the task that waits for the thread. -/
def Thread.drop : Thread ρ → Thread ρ
  | .queued => .dropped
  | thread => thread

/-- Where a call of `run` stands. -/
inductive CallPhase (ρ : Type) where
  /-- `async with self._semaphore`. -/
  | waiting
  /-- `await asyncio.shield(worker)`. -/
  | shielded
  /-- `await worker`, in the handler. -/
  | draining
  /-- `await asyncio.to_thread(cancel_cleanup, result)`. -/
  | cleaning (result : ρ)
  | returned (result : ρ)
  /-- The function's exception. -/
  | raised
  | cancelled

/-- Inside the `async with`. -/
def CallPhase.holds : CallPhase ρ → Bool
  | .shielded | .draining | .cleaning _ => true
  | _ => false

def CallPhase.isFinished : CallPhase ρ → Bool
  | .returned _ | .raised | .cancelled => true
  | _ => false

/-- A call of `run`. `cleaned` is what `cancel_cleanup` was called with. -/
structure ThreadCall (ρ : Type) where
  hasCleanup : Bool
  phase : CallPhase ρ
  function : Thread ρ
  cleanup : Thread Unit
  cleaned : List ρ

def ThreadCall.start (ρ : Type) (hasCleanup : Bool) : ThreadCall ρ where
  hasCleanup := hasCleanup
  phase := .waiting
  function := .unsubmitted
  cleanup := .unsubmitted
  cleaned := []

inductive CallEvent (ρ : Type) where
  | acquire
  | startFunction
  | endFunction (result : Option ρ)
  | startCleanup
  | endCleanup
  /-- The caller goes on after its await. -/
  | resume
  /-- A `CancelledError` is thrown into the caller. -/
  | cancel

/-- The caller goes on, if what it awaits has come. -/
def ThreadCall.resume (c : ThreadCall ρ) : ThreadCall ρ :=
  match c.phase, c.function, c.cleanup with
  | .shielded, .ended (some result), _ => { c with phase := .returned result }
  | .shielded, .ended none, _ => { c with phase := .raised }
  | .draining, .ended (some result), _ =>
    if c.hasCleanup then { c with phase := .cleaning result, cleanup := .queued }
    else { c with phase := .cancelled }
  | .draining, .ended none, _ => { c with phase := .cancelled }
  | .cleaning _, _, .ended _ => { c with phase := .cancelled }
  | _, _, _ => c

/-- The cancellation, by where it hits. -/
def ThreadCall.cancel (c : ThreadCall ρ) : ThreadCall ρ :=
  match c.phase with
  | .waiting => { c with phase := .cancelled }
  | .shielded => { c with phase := .draining }
  | .draining => { c with phase := .cancelled, function := c.function.drop }
  | .cleaning _ => { c with phase := .cancelled, cleanup := c.cleanup.drop }
  | _ => c

def ThreadCall.step (c : ThreadCall ρ) : CallEvent ρ → ThreadCall ρ
  | .acquire =>
    match c.phase with
    | .waiting => { c with phase := .shielded, function := .queued }
    | _ => c
  | .startFunction =>
    match c.function with
    | .queued => { c with function := .running }
    | _ => c
  | .endFunction result =>
    match c.function with
    | .running => { c with function := .ended result }
    | _ => c
  | .startCleanup =>
    match c.phase, c.cleanup with
    | .cleaning result, .queued => { c with cleanup := .running, cleaned := c.cleaned ++ [result] }
    | _, _ => c
  | .endCleanup =>
    match c.cleanup with
    | .running => { c with cleanup := .ended (some ()) }
    | _ => c
  | .resume => c.resume
  | .cancel => c.cancel

/-! ## The bridge -/

structure Bridge (ρ : Type) where
  permits : Nat
  calls : List (ThreadCall ρ)

def Bridge.start (ρ : Type) (concurrency : Nat) : Bridge ρ := ⟨concurrency, []⟩

inductive BridgeEvent (ρ : Type) where
  /-- `run` is called. -/
  | call (hasCleanup : Bool)
  | step (i : Nat) (event : CallEvent ρ)

/-- The permits after a call went from one phase to another. -/
def permitsAfter (permits : Nat) (before after : CallPhase ρ) : Nat :=
  permits + (if before.holds then 1 else 0) - (if after.holds then 1 else 0)

/-- A waiting call that would need a permit when there is none. -/
def isBlocked (permits : Nat) (c c' : ThreadCall ρ) : Bool :=
  permits = 0 ∧ c.phase.holds = false ∧ c'.phase.holds = true

/-- A step of one call. -/
def Bridge.update (b : Bridge ρ) (i : Nat) (event : CallEvent ρ) : Bridge ρ :=
  match b.calls[i]? with
  | none => b
  | some c =>
    if isBlocked b.permits c (c.step event) then b
    else
      { permits := permitsAfter b.permits c.phase (c.step event).phase
        calls := b.calls.set i (c.step event) }

def bridgeStep (b : Bridge ρ) : BridgeEvent ρ → Bridge ρ
  | .call hasCleanup => { b with calls := b.calls ++ [ThreadCall.start ρ hasCleanup] }
  | .step i event => b.update i event

/-! ## What is promised -/

/-- The results of a finished call that its caller did not get. -/
def ThreadCall.unreturned (c : ThreadCall ρ) : List ρ :=
  match c.phase, c.function with
  | .returned _, _ => []
  | _, .ended (some result) => [result]
  | _, _ => []

/-- A finished call: no thread of it runs or will, and a result that was not returned
has been given to the cleanup exactly once. -/
def CallKept (c : ThreadCall ρ) : Prop :=
  c.phase.isFinished = true →
    c.function.isOver = true ∧ c.cleanup.isOver = true ∧
      (c.hasCleanup = true → c.cleaned = c.unreturned)

/-- The promise of the bridge. -/
structure Kept (concurrency : Nat) (b : Bridge ρ) : Prop where
  calls : ∀ c ∈ b.calls, CallKept c
  bounded : b.calls.countP (·.function.isRunning) + b.calls.countP (·.cleanup.isRunning) ≤
    concurrency

/-- A cancellation that costs nothing: before the handler, or in the handler when the
thread waited for is over or never started, and no result is left to clean up. -/
def ThreadCall.mayCancel (c : ThreadCall ρ) : Bool :=
  match c.phase, c.function, c.cleanup with
  | .draining, .running, _ => false
  | .draining, .ended (some _), _ => !c.hasCleanup
  | .cleaning _, _, .ended _ => true
  | .cleaning _, _, _ => false
  | _, _, _ => true

/-- No cancellation of a call that cannot take it. -/
def isGentle (b : Bridge ρ) : BridgeEvent ρ → Bool
  | .step i .cancel => b.calls[i]?.all ThreadCall.mayCancel
  | _ => true

/-- The condition on a step. -/
def Gentle (b : Bridge ρ) (e : BridgeEvent ρ) : Prop := isGentle b e = true

instance (b : Bridge ρ) (e : BridgeEvent ρ) : Decidable (Gentle b e) :=
  inferInstanceAs (Decidable (_ = true))

variable {b : Bridge ρ}

theorem Gentle.mayCancel {i : Nat} {c : ThreadCall ρ} (h : Gentle b (.step i .cancel))
    (hcall : b.calls[i]? = some c) : c.mayCancel = true := by
  have hall : b.calls[i]?.all ThreadCall.mayCancel = true := h
  rwa [hcall, Option.all_some] at hall

variable {e : BridgeEvent ρ}

/-- A rough step is a cancellation. -/
theorem cancel_of_not_gentle (h : ¬ Gentle b e) :
    ∃ i c, e = .step i .cancel ∧ b.calls[i]? = some c ∧ c.mayCancel = false := by
  unfold Gentle isGentle at h
  split at h
  next i =>
    cases hcall : b.calls[i]? with
    | none => simp [hcall] at h
    | some c => exact ⟨i, c, rfl, hcall, by simpa [hcall] using h⟩
  next => exact absurd rfl h

/-! ## One call -/

/-- The phases: before the permit, with it, and after it. -/
theorem phase_cases (phase : CallPhase ρ) :
    phase = .waiting ∨ (phase = .shielded ∨ phase = .draining) ∨
      (∃ result, phase = .cleaning result) ∨ phase.isFinished = true := by
  cases phase with
  | waiting => exact .inl rfl
  | shielded => exact .inr (.inl (.inl rfl))
  | draining => exact .inr (.inl (.inr rfl))
  | cleaning result => exact .inr (.inr (.inl ⟨result, rfl⟩))
  | returned result => exact .inr (.inr (.inr rfl))
  | raised => exact .inr (.inr (.inr rfl))
  | cancelled => exact .inr (.inr (.inr rfl))

/-- A cleanup between its submission and its end, and what it was called with. -/
def CleaningInv (c : ThreadCall ρ) (result : ρ) : Prop :=
  c.hasCleanup = true ∧ c.function = .ended (some result) ∧
    ((c.cleanup = .queued ∧ c.cleaned = []) ∨
      ((c.cleanup = .running ∨ c.cleanup = .ended (some ())) ∧ c.cleaned = [result]))

/-- What holds of a call in each of its phases. -/
structure CallInv (c : ThreadCall ρ) : Prop where
  waiting : c.phase = .waiting →
    c.function = .unsubmitted ∧ c.cleanup = .unsubmitted ∧ c.cleaned = []
  working : c.phase = .shielded ∨ c.phase = .draining → c.cleanup = .unsubmitted ∧ c.cleaned = []
  cleaning : ∀ result, c.phase = .cleaning result → CleaningInv c result
  finished : CallKept c

theorem callInv_start (hasCleanup : Bool) : CallInv (ThreadCall.start ρ hasCleanup) where
  waiting _ := ⟨rfl, rfl, rfl⟩
  working := by rintro (h | h) <;> cases h
  cleaning _ h := by cases h
  finished h := by cases h

section Invariant

variable {c : ThreadCall ρ}

/-- A function that is not over has its caller waiting for it. -/
theorem CallInv.phase_of_function (hinv : CallInv c) (h : c.function.isOver = false) :
    c.phase = .shielded ∨ c.phase = .draining := by
  rcases phase_cases c.phase with hphase | hphase | ⟨result, hphase⟩ | hphase
  · rw [(hinv.waiting hphase).1] at h
    cases h
  · exact hphase
  · rw [(hinv.cleaning result hphase).2.1] at h
    cases h
  · rw [(hinv.finished hphase).1] at h
    cases h

/-- A cleanup that is not over has its caller waiting for it. -/
theorem CallInv.phase_of_cleanup (hinv : CallInv c) (h : c.cleanup.isOver = false) :
    ∃ result, c.phase = .cleaning result := by
  rcases phase_cases c.phase with hphase | hphase | ⟨result, hphase⟩ | hphase
  · rw [(hinv.waiting hphase).2.1] at h
    cases h
  · rw [(hinv.working hphase).1] at h
    cases h
  · exact ⟨result, hphase⟩
  · rw [(hinv.finished hphase).2.1] at h
    cases h

/-- A call with its caller at the worker. -/
theorem callInv_working (hphase : c.phase = .shielded ∨ c.phase = .draining)
    (h : c.cleanup = .unsubmitted ∧ c.cleaned = []) : CallInv c where
  waiting hw := by rcases hphase with hp | hp <;> rw [hp] at hw <;> cases hw
  working _ := h
  cleaning result hc := by rcases hphase with hp | hp <;> rw [hp] at hc <;> cases hc
  finished hf := by rcases hphase with hp | hp <;> rw [hp] at hf <;> cases hf

/-- A call with its caller at the cleanup. -/
theorem callInv_cleaning {result : ρ} (hphase : c.phase = .cleaning result)
    (h : CleaningInv c result) : CallInv c where
  waiting hw := by rw [hphase] at hw; cases hw
  working hw := by rw [hphase] at hw; rcases hw with hw | hw <;> cases hw
  cleaning result' hc := by
    rw [hphase] at hc
    cases hc
    exact h
  finished hf := by rw [hphase] at hf; cases hf

/-- A finished call. -/
theorem callInv_finished (hphase : c.phase.isFinished = true) (h : CallKept c) : CallInv c where
  waiting hw := by rw [hw] at hphase; cases hphase
  working hw := by rcases hw with hw | hw <;> rw [hw] at hphase <;> cases hphase
  cleaning result hc := by rw [hc] at hphase; cases hphase
  finished := h

/-- The caller leaves with nothing of the call running. -/
theorem callInv_leave (c : ThreadCall ρ) {phase : CallPhase ρ} (hphase : phase.isFinished = true)
    (hfunction : c.function.isOver = true) (hcleanup : c.cleanup.isOver = true)
    (hcleaned : c.hasCleanup = true → c.cleaned = { c with phase := phase }.unreturned) :
    CallInv { c with phase := phase } :=
  callInv_finished hphase fun _ => ⟨hfunction, hcleanup, hcleaned⟩

/-! ### The threads -/

theorem callInv_startFunction (hinv : CallInv c) : CallInv (c.step .startFunction) := by
  unfold ThreadCall.step
  cases hfunction : c.function with
  | queued =>
    have hphase := hinv.phase_of_function (by rw [hfunction]; rfl)
    exact callInv_working hphase (hinv.working hphase)
  | unsubmitted => exact hinv
  | running => exact hinv
  | ended result => exact hinv
  | dropped => exact hinv

theorem callInv_endFunction (hinv : CallInv c) (result : Option ρ) :
    CallInv (c.step (.endFunction result)) := by
  unfold ThreadCall.step
  cases hfunction : c.function with
  | running =>
    have hphase := hinv.phase_of_function (by rw [hfunction]; rfl)
    exact callInv_working hphase (hinv.working hphase)
  | unsubmitted => exact hinv
  | queued => exact hinv
  | ended result => exact hinv
  | dropped => exact hinv

theorem callInv_startCleanup (hinv : CallInv c) : CallInv (c.step .startCleanup) := by
  unfold ThreadCall.step
  simp only
  split
  next result hphase hcleanup =>
    obtain ⟨hhas, hfunction, hstate⟩ := hinv.cleaning result hphase
    have hempty : c.cleaned = [] := by
      rcases hstate with ⟨_, hempty⟩ | ⟨hrunning, _⟩
      · exact hempty
      · rw [hcleanup] at hrunning
        rcases hrunning with h | h <;> cases h
    refine callInv_cleaning hphase ⟨hhas, hfunction, .inr ⟨.inl rfl, ?_⟩⟩
    show c.cleaned ++ [result] = [result]
    rw [hempty, List.nil_append]
  next => exact hinv

theorem callInv_endCleanup (hinv : CallInv c) : CallInv (c.step .endCleanup) := by
  unfold ThreadCall.step
  simp only
  split
  next hcleanup =>
    obtain ⟨result, hphase⟩ := hinv.phase_of_cleanup (by rw [hcleanup]; rfl)
    obtain ⟨hhas, hfunction, hstate⟩ := hinv.cleaning result hphase
    have hcleaned : c.cleaned = [result] := by
      rcases hstate with ⟨hqueued, _⟩ | ⟨_, hcleaned⟩
      · rw [hcleanup] at hqueued
        cases hqueued
      · exact hcleaned
    exact callInv_cleaning hphase ⟨hhas, hfunction, .inr ⟨.inr rfl, hcleaned⟩⟩
  next => exact hinv

/-! ### The caller -/

theorem callInv_acquire (hinv : CallInv c) : CallInv (c.step .acquire) := by
  unfold ThreadCall.step
  simp only
  split
  next hphase => exact callInv_working (.inl rfl) (hinv.waiting hphase).2
  next => exact hinv

theorem callInv_resume (hinv : CallInv c) : CallInv (c.step .resume) := by
  show CallInv c.resume
  unfold ThreadCall.resume
  split
  next result hphase hfunction =>
    -- the caller has the result, and the cleanup never got it
    obtain ⟨hcleanup, hcleaned⟩ := hinv.working (.inl hphase)
    exact callInv_leave c rfl (by rw [hfunction]; rfl) (by rw [hcleanup]; rfl) fun _ => hcleaned
  next hphase hfunction =>
    obtain ⟨hcleanup, hcleaned⟩ := hinv.working (.inl hphase)
    refine callInv_leave c rfl (by rw [hfunction]; rfl) (by rw [hcleanup]; rfl) fun _ => ?_
    simp only [ThreadCall.unreturned, hfunction]
    exact hcleaned
  next result hphase hfunction =>
    obtain ⟨hcleanup, hcleaned⟩ := hinv.working (.inr hphase)
    split
    next hhas => exact callInv_cleaning rfl ⟨hhas, hfunction, .inl ⟨rfl, hcleaned⟩⟩
    next hhas =>
      exact callInv_leave c rfl (by rw [hfunction]; rfl) (by rw [hcleanup]; rfl)
        fun h => absurd h hhas
  next hphase hfunction =>
    obtain ⟨hcleanup, hcleaned⟩ := hinv.working (.inr hphase)
    refine callInv_leave c rfl (by rw [hfunction]; rfl) (by rw [hcleanup]; rfl) fun _ => ?_
    simp only [ThreadCall.unreturned, hfunction]
    exact hcleaned
  next result _ hphase hcleanup =>
    obtain ⟨hhas, hfunction, hstate⟩ := hinv.cleaning result hphase
    refine callInv_leave c rfl (by rw [hfunction]; rfl) (by rw [hcleanup]; rfl) fun _ => ?_
    simp only [ThreadCall.unreturned, hfunction]
    rcases hstate with ⟨hqueued, _⟩ | ⟨_, hcleaned⟩
    · rw [hcleanup] at hqueued
      cases hqueued
    · exact hcleaned
  next => exact hinv

/-- A gentle cancellation keeps what holds of the call. -/
theorem callInv_cancel (hinv : CallInv c) (hgentle : c.mayCancel = true) :
    CallInv (c.step .cancel) := by
  show CallInv c.cancel
  unfold ThreadCall.cancel
  split
  next hphase =>
    obtain ⟨hfunction, hcleanup, hcleaned⟩ := hinv.waiting hphase
    refine callInv_leave c rfl (by rw [hfunction]; rfl) (by rw [hcleanup]; rfl) fun _ => ?_
    simp only [ThreadCall.unreturned, hfunction]
    exact hcleaned
  next hphase => exact callInv_working (.inr rfl) (hinv.working (.inl hphase))
  next hphase =>
    obtain ⟨hcleanup, hcleaned⟩ := hinv.working (.inr hphase)
    unfold ThreadCall.mayCancel at hgentle
    refine callInv_leave { c with function := c.function.drop } rfl ?_
      (by show c.cleanup.isOver = true; rw [hcleanup]; rfl) fun hhas => ?_
    · show c.function.drop.isOver = true
      cases hfunction : c.function with
      | running => simp [hphase, hfunction] at hgentle
      | unsubmitted => rfl
      | queued => rfl
      | ended result => rfl
      | dropped => rfl
    · show c.cleaned = _
      rw [hcleaned]
      unfold ThreadCall.unreturned
      cases hfunction : c.function with
      | ended result =>
        -- a result would have been cleaned up first
        cases result with
        | none => rfl
        | some result => simp_all
      | running => rfl
      | unsubmitted => rfl
      | queued => rfl
      | dropped => rfl
  next result hphase =>
    obtain ⟨hhas, hfunction, hstate⟩ := hinv.cleaning result hphase
    have hended : c.cleanup = .ended (some ()) ∧ c.cleaned = [result] := by
      unfold ThreadCall.mayCancel at hgentle
      rcases hstate with ⟨hqueued, _⟩ | ⟨hrunning | hended, hcleaned⟩
      · simp [hphase, hqueued] at hgentle
      · simp [hphase, hrunning] at hgentle
      · exact ⟨hended, hcleaned⟩
    refine callInv_leave { c with cleanup := c.cleanup.drop } rfl
      (by show c.function.isOver = true; rw [hfunction]; rfl)
      (by show c.cleanup.drop.isOver = true; rw [hended.1]; rfl) fun _ => ?_
    simp only [ThreadCall.unreturned, hfunction]
    exact hended.2
  next => exact hinv

/-- Every step but a rough cancellation keeps what holds of the call. -/
theorem callInv_step (hinv : CallInv c) (e : CallEvent ρ)
    (hgentle : e = .cancel → c.mayCancel = true) : CallInv (c.step e) := by
  cases e with
  | acquire => exact callInv_acquire hinv
  | startFunction => exact callInv_startFunction hinv
  | endFunction result => exact callInv_endFunction hinv result
  | startCleanup => exact callInv_startCleanup hinv
  | endCleanup => exact callInv_endCleanup hinv
  | resume => exact callInv_resume hinv
  | cancel => exact callInv_cancel hinv (hgentle rfl)

/-- A rough cancellation breaks the promise at once. -/
theorem not_callKept_cancel (hinv : CallInv c) (hrough : c.mayCancel = false) :
    ¬ CallKept (c.step .cancel) := by
  intro hkept
  change CallKept c.cancel at hkept
  unfold ThreadCall.mayCancel at hrough
  split at hrough
  next hphase hfunction =>
    -- the thread goes on
    unfold ThreadCall.cancel at hkept
    rw [hphase] at hkept
    have hover := (hkept rfl).1
    simp only [hfunction] at hover
    cases hover
  next result hphase hfunction =>
    -- the result is lost
    have hhas : c.hasCleanup = true := by simpa using hrough
    unfold ThreadCall.cancel at hkept
    rw [hphase] at hkept
    have hcleaned := (hkept rfl).2.2 hhas
    simp only [ThreadCall.unreturned, hfunction, Thread.drop] at hcleaned
    rw [(hinv.working (.inr hphase)).2] at hcleaned
    cases hcleaned
  next => cases hrough
  next result hphase hnot =>
    obtain ⟨hhas, hfunction, hstate⟩ := hinv.cleaning result hphase
    unfold ThreadCall.cancel at hkept
    rw [hphase] at hkept
    rcases hstate with ⟨hqueued, hcleaned⟩ | ⟨hrunning | hended, _⟩
    · have hlost := (hkept rfl).2.2 hhas
      simp only [ThreadCall.unreturned, hfunction] at hlost
      rw [hcleaned] at hlost
      cases hlost
    · have hover := (hkept rfl).2.1
      simp only [hrunning] at hover
      cases hover
    · exact absurd hended (hnot _)
  next => cases hrough

end Invariant

/-! ## All calls -/

/-- Every permit is free or held by one call, and every call is as it should be. -/
structure BridgeInv (concurrency : Nat) (b : Bridge ρ) : Prop where
  permits : b.permits + b.calls.countP (·.phase.holds) = concurrency
  calls : ∀ c ∈ b.calls, CallInv c

theorem bridgeInv_start (concurrency : Nat) :
    BridgeInv concurrency (Bridge.start ρ concurrency) where
  permits := rfl
  calls c hc := by cases hc

/-- A running thread has its caller inside the semaphore, and a caller has one. -/
theorem CallInv.running_le {c : ThreadCall ρ} (hinv : CallInv c) :
    (if c.function.isRunning then 1 else 0) + (if c.cleanup.isRunning then 1 else 0) ≤
      if c.phase.holds then 1 else 0 := by
  by_cases hf : c.function.isRunning = true
  · have hover : c.function.isOver = false := by
      cases hfunction : c.function <;> simp_all [Thread.isRunning, Thread.isOver]
    have hphase := hinv.phase_of_function hover
    have hholds : c.phase.holds = true := by rcases hphase with hp | hp <;> rw [hp] <;> rfl
    rw [(hinv.working hphase).1, if_pos hf, if_pos hholds]
    simp [Thread.isRunning]
  · by_cases hc : c.cleanup.isRunning = true
    · have hover : c.cleanup.isOver = false := by
        cases hcleanup : c.cleanup <;> simp_all [Thread.isRunning, Thread.isOver]
      obtain ⟨result, hphase⟩ := hinv.phase_of_cleanup hover
      rw [if_neg hf, if_pos hc, hphase]
      simp [CallPhase.holds]
    · rw [if_neg hf, if_neg hc]
      exact Nat.zero_le _

/-- So no more threads run than there are callers inside. -/
theorem running_le_holds {calls : List (ThreadCall ρ)} (h : ∀ c ∈ calls, CallInv c) :
    calls.countP (·.function.isRunning) + calls.countP (·.cleanup.isRunning) ≤
      calls.countP (·.phase.holds) := by
  induction calls with
  | nil => exact Nat.le_refl 0
  | cons c calls ih =>
    obtain ⟨hc, hcalls⟩ := List.forall_mem_cons.1 h
    have hone := hc.running_le
    have hrest := ih hcalls
    simp only [List.countP_cons]
    omega

variable {concurrency : Nat}

theorem kept_of_inv (h : BridgeInv concurrency b) :
    Kept concurrency b where
  calls c hc := (h.calls c hc).finished
  bounded := by
    have hrunning := running_le_holds h.calls
    have hpermits := h.permits
    omega

/-- The held permits after one call changed. -/
theorem countP_holds_set {calls : List (ThreadCall ρ)} {i : Nat} {c c' : ThreadCall ρ}
    (h : calls[i]? = some c) :
    (calls.set i c').countP (·.phase.holds) + (if c.phase.holds then 1 else 0) =
      calls.countP (·.phase.holds) + if c'.phase.holds then 1 else 0 := by
  obtain ⟨hi, rfl⟩ := List.getElem?_eq_some_iff.1 h
  rw [List.countP_set hi]
  by_cases hholds : calls[i].phase.holds = true
  · have hpos : 0 < calls.countP (·.phase.holds) :=
      List.countP_pos_iff.2 ⟨calls[i], List.getElem_mem hi, hholds⟩
    simp only [hholds, if_true]
    omega
  · simp only [hholds, Bool.false_eq_true, if_false]
    omega

theorem bridgeInv_step (hgentle : Gentle b e) (h : BridgeInv concurrency b) :
    BridgeInv concurrency (bridgeStep b e) := by
  cases e with
  | call hasCleanup =>
    refine ⟨?_, fun c hc => ?_⟩
    · show b.permits + (b.calls ++ [ThreadCall.start ρ hasCleanup]).countP (·.phase.holds) = concurrency
      rw [List.countP_append]
      exact h.permits
    · rcases List.mem_append.1 hc with hc | hc
      · exact h.calls c hc
      · rw [List.mem_singleton.1 hc]
        exact callInv_start hasCleanup
  | step i event =>
    show BridgeInv concurrency (b.update i event)
    unfold Bridge.update
    split
    · exact h
    next c hcall =>
      split
      · exact h
      next hblocked =>
        have hmem : c ∈ b.calls := List.mem_of_getElem? hcall
        have hcount := @countP_holds_set _ _ _ _ (c.step event) hcall
        have hpermits := h.permits
        refine ⟨?_, fun d hd => ?_⟩
        · show permitsAfter b.permits c.phase (c.step event).phase +
            (b.calls.set i (c.step event)).countP (·.phase.holds) = concurrency
          -- a call that comes to hold a permit found one
          have hfree : ¬ (b.permits = 0 ∧ c.phase.holds = false ∧
              (c.step event).phase.holds = true) := by simpa [isBlocked] using hblocked
          unfold permitsAfter
          cases hbefore : c.phase.holds <;> cases hafter : (c.step event).phase.holds <;>
            simp [hbefore, hafter] at hcount hfree ⊢ <;> omega
        · rcases List.mem_or_eq_of_mem_set hd with hd | rfl
          · exact h.calls d hd
          · refine callInv_step (h.calls c hmem) event fun he => ?_
            rw [he] at hgentle
            exact hgentle.mayCancel hcall

/-- A rough cancellation leaves a call behind that breaks the promise. -/
theorem not_kept_step (hrough : ¬ Gentle b e) (h : BridgeInv concurrency b) :
    ¬ Kept concurrency (bridgeStep b e) := by
  obtain ⟨i, c, rfl, hcall, hmay⟩ := cancel_of_not_gentle hrough
  have hinv := h.calls c (List.mem_of_getElem? hcall)
  have hholds : c.phase.holds = true := by
    unfold ThreadCall.mayCancel at hmay
    cases hphase : c.phase <;> simp_all [CallPhase.holds]
  intro hkept
  refine not_callKept_cancel hinv hmay (hkept.calls _ ?_)
  show c.step .cancel ∈ (b.update i .cancel).calls
  unfold Bridge.update
  rw [hcall]
  simp only
  rw [if_neg (by simp [isBlocked, hholds])]
  exact List.mem_set (List.getElem?_eq_some_iff.1 hcall).1 _

/-- In a run of the bridge the promise holds in every state exactly if every
cancellation was one the call could take. -/
theorem bridge_kept_iff (concurrency : Nat) (events : List (BridgeEvent ρ)) :
    Always bridgeStep (Kept concurrency) (Bridge.start ρ concurrency) events ↔
      Along bridgeStep Gentle (Bridge.start ρ concurrency) events :=
  always_iff_along (BridgeInv concurrency) (fun _ h => kept_of_inv h)
    (fun _ _ hgentle h => bridgeInv_step hgentle h)
    (fun _ _ hrough h => not_kept_step hrough h) (bridgeInv_start concurrency)

end LocalRag.Storage
