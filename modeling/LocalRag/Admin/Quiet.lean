import LocalRag.Admin.Maintenance

/-!
# A backup — quiet always, undone not always

What a run of `createBackup` leaves, from a start where the gate is open and every worker that
runs is a child of the supervisor. The export and the verification never see a mutation or a
worker, whatever fails and whatever arrives (`Finishes.quiet`): they come after a drain
that was answered, a shut gate lets nothing in, and each `_stop` that returned ended its process.

That the end undoes it all holds exactly if the run is `Undoable`. The cleanup goes by two
notes that are written after the effect they stand for: `drained` after the answer to the drain,
though the gate closed before, and the name of a worker after `_stop` returned, though `_children`
lost it before. So a drain that was performed and not answered leaves the gate shut, and a `_stop`
that raises with the process ended leaves its worker down (`backup_undone`).
-/

namespace LocalRag.Admin

open LocalRag.Core

/-! ## The gate -/

/-- The event is set exactly while no mutation is inside. -/
def GateOk (g : MaintenanceGate) : Prop := g.idle = true ↔ g.activeMutations = 0

/-- Closed, and nothing inside. -/
structure Shut (g : MaintenanceGate) : Prop where
  draining : g.draining = true
  empty : g.activeMutations = 0

/-- Nothing happens, a mutation enters the open gate, or one that is inside leaves. -/
theorem gateStep_cases (g : MaintenanceGate) (event : GateEvent) :
    gateStep g event = g ∨
    (g.draining = false ∧
      gateStep g event = { g with activeMutations := g.activeMutations + 1, idle := false }) ∨
    (g.activeMutations ≠ 0 ∧ gateStep g event = g.leaveMutation) := by
  cases event with
  | arrives scope =>
    show (if scope.entersGate then g.enterMutation.2 else g) = g ∨ _
    by_cases henters : scope.entersGate = true
    · simp only [gateStep, if_pos henters, MaintenanceGate.enterMutation]
      cases hdraining : g.draining with
      | true => exact Or.inl (by simp)
      | false => exact Or.inr (Or.inl ⟨rfl, by simp⟩)
    · rw [if_neg henters]
      exact Or.inl rfl
  | leaves =>
    by_cases hactive : g.activeMutations = 0
    · exact Or.inl (if_pos hactive)
    · exact Or.inr (Or.inr ⟨hactive, if_neg hactive⟩)

theorem gateStep_ok (g : MaintenanceGate) (event : GateEvent) (h : GateOk g) :
    GateOk (gateStep g event) := by
  rcases gateStep_cases g event with heq | ⟨-, heq⟩ | ⟨hactive, heq⟩
  · rw [heq]
    exact h
  · rw [heq]
    exact ⟨fun hidle => absurd hidle (by simp), fun hzero => absurd hzero (by simp)⟩
  · rw [heq]
    unfold GateOk MaintenanceGate.leaveMutation
    by_cases hlast : g.activeMutations - 1 = 0
    · simp only [hlast, if_true]
    · simp only [if_neg hlast]
      exact ⟨fun hidle => absurd (h.mp hidle) hactive, fun hzero => absurd hzero hlast⟩

theorem run_gate_ok {g : MaintenanceGate} (events : List GateEvent) (h : GateOk g) :
    GateOk (run gateStep g events) :=
  run_inv_of_step GateOk gateStep_ok events h

theorem close_ok {g : MaintenanceGate} (h : GateOk g) : GateOk g.close := by
  unfold GateOk MaintenanceGate.close
  by_cases hzero : g.activeMutations = 0
  · simp only [hzero, if_true]
  · simp only [if_neg hzero]
    exact h

/-- Only `close` and `resume` move the flag. -/
theorem gateStep_draining (g : MaintenanceGate) (event : GateEvent) :
    (gateStep g event).draining = g.draining := by
  rcases gateStep_cases g event with heq | ⟨-, heq⟩ | ⟨-, heq⟩
  · rw [heq]
  · rw [heq]
  · rw [heq]
    rfl

theorem run_gate_draining (g : MaintenanceGate) (events : List GateEvent) :
    (run gateStep g events).draining = g.draining :=
  run_inv_of_step (fun g' => g'.draining = g.draining)
    (fun g' event h => (gateStep_draining g' event).trans h) events rfl

/-- A shut gate lets nothing in. -/
theorem gateStep_shut (g : MaintenanceGate) (event : GateEvent) (h : Shut g) :
    Shut (gateStep g event) := by
  rcases gateStep_cases g event with heq | ⟨hopen, -⟩ | ⟨hactive, -⟩
  · rw [heq]
    exact h
  · rw [h.draining] at hopen
    exact absurd hopen (by simp)
  · exact absurd h.empty hactive

theorem run_gate_shut {g : MaintenanceGate} (events : List GateEvent) (h : Shut g) :
    Shut (run gateStep g events) :=
  run_inv_of_step Shut gateStep_shut events h

/-- Behind a shut gate, with no worker running, there is quiet. -/
theorem loudAlong_shut {workers : WorkerName → WorkerProcess}
    (hworkers : ∀ name, (workers name).running = false) {g : MaintenanceGate} (h : Shut g)
    (events : List GateEvent) : loudAlong workers g events = false := by
  have hquiet : ∀ {g}, Shut g → isLoud workers g = false := by
    intro g hg
    unfold isLoud
    apply decide_eq_false
    rintro (hactive | hrunning | hrunning)
    · exact hactive hg.empty
    · rw [hworkers] at hrunning
      exact absurd hrunning (by simp)
    · rw [hworkers] at hrunning
      exact absurd hrunning (by simp)
  induction events generalizing g with
  | nil => exact hquiet h
  | cons event events ih =>
    unfold loudAlong
    rw [hquiet h, ih (gateStep_shut g event h)]
    rfl

/-! ## What can be undone -/

/-- The drain request is answered, from a gate as it is when the request is made. -/
def DrainEnd.isAnswered (f : DrainEnd) (g : MaintenanceGate) : Bool :=
  match f with
  | .unsent _ => false
  | .performed before during lost =>
    (run gateStep (run gateStep g before).close during).idle ∧ ¬ lost

def DrainEnd.isUnsent : DrainEnd → Bool
  | .unsent _ => true
  | .performed _ _ _ => false

/-- `_stop` returns, or the process goes on running. -/
def StopFine (fates : BackupFates) (m : Maintenance) (name : WorkerName) : Prop :=
  (m.workers name).tracked = true →
    (fates.stop name).ends = true ∨ (fates.stop name).survives = true

/-- The gate when the drain request is made. -/
def gateAtDrain (fates : BackupFates) (m : Maintenance) : MaintenanceGate :=
  run gateStep (run gateStep m.gate fates.claim.meanwhile) fates.chooseDestination.meanwhile

/-- The drain request, if it is made, is answered or never arrives; and no `_stop` that is reached
raises with its process ended. -/
def Undoable (fates : BackupFates) (m : Maintenance) : Prop :=
  fates.claim.raises = none → fates.chooseDestination.raises = none →
    fates.drain.isUnsent = true ∨
    (fates.drain.isAnswered (gateAtDrain fates m) = true ∧ StopFine fates m .ingestion ∧
      (((m.workers .ingestion).tracked = true → (fates.stop .ingestion).ends = true) →
        StopFine fates m .deletion))

/-- What a backup promises of its end. -/
structure Undone (m m' : Maintenance) : Prop where
  quiet : m'.loud = false
  opened : m'.gate.draining = false
  workers : ∀ name, (m.workers name).running = true → (m'.workers name).running = true

/-- A backup may start: the gate is open, and the workers that run are the supervisor's. -/
structure Ready (m : Maintenance) : Prop where
  opened : m.gate.draining = false
  gate : GateOk m.gate
  managed : ∀ name, (m.workers name).tracked = (m.workers name).running
  quiet : m.loud = false

/-! ## The calls -/

theorem call_spec {P R : Maintenance → Prop} {Q : Unit → Maintenance → Prop} {f : CallEnd}
    (hreturns : f.raises = none → ∀ m, P m → Q () { m with gate := run gateStep m.gate f.meanwhile })
    (hraises : f.raises ≠ none → ∀ m, P m → R { m with gate := run gateStep m.gate f.meanwhile }) :
    Spec P (call f) Q fun _ => R := by
  refine ⟨fun m hm => ?_⟩
  unfold call
  cases hr : f.raises with
  | none => exact hreturns hr m hm
  | some e => exact hraises (by rw [hr]; simp) m hm

section Backup

variable {fates : BackupFates} {m₀ : Maintenance}

/-- Where the cleanup may start from. -/
inductive Interrupted (fates : BackupFates) (m₀ m : Maintenance) : Prop where
  /-- The drain was not made, or never arrived. -/
  | untouched (hundoable : Undoable fates m₀) (hopened : m.gate.draining = false)
    (hdrained : m.drained = false) (hstopped : m.stoppedWorkers = [])
    (hworkers : m.workers = m₀.workers)
  /-- The drain was performed, and not answered. -/
  | shut (hnot : ¬ Undoable fates m₀) (hshut : m.gate.draining = true)
    (hdrained : m.drained = false) (hstopped : m.stoppedWorkers = [])
  /-- Every worker that does not run is to be started. -/
  | halted (hundoable : Undoable fates m₀) (hdrained : m.drained = true)
    (huntracked : ∀ name ∈ m.stoppedWorkers, (m.workers name).tracked = false)
    (hworkers : ∀ name, (m₀.workers name).running = true →
      name ∈ m.stoppedWorkers ∨ (m.workers name).running = true)
  /-- A worker ended and will not be started. -/
  | lost (hnot : ¬ Undoable fates m₀) (name : WorkerName)
    (hran : (m₀.workers name).running = true) (hmissing : name ∉ m.stoppedWorkers)
    (hended : (m.workers name).running = false)

theorem Interrupted.frame {m m' : Maintenance} (h : Interrupted fates m₀ m)
    (hgate : m'.gate.draining = m.gate.draining) (hdrained : m'.drained = m.drained)
    (hstopped : m'.stoppedWorkers = m.stoppedWorkers) (hworkers : m'.workers = m.workers) :
    Interrupted fates m₀ m' := by
  cases h with
  | untouched hundoable hopened hnone hempty hsame =>
    exact .untouched hundoable (hgate.trans hopened) (hdrained.trans hnone)
      (hstopped.trans hempty) (hworkers.trans hsame)
  | shut hnot hshut hnone hempty =>
    exact .shut hnot (hgate.trans hshut) (hdrained.trans hnone) (hstopped.trans hempty)
  | halted hundoable hdone huntracked hrun =>
    exact .halted hundoable (hdrained.trans hdone) (hstopped ▸ hworkers ▸ huntracked)
      (hstopped ▸ hworkers ▸ hrun)
  | lost hnot name hran hmissing hended =>
    exact .lost hnot name hran (hstopped ▸ hmissing) (hworkers ▸ hended)

/-! ## The `try` body -/

/-- Up to the drain. -/
structure Waiting (m₀ : Maintenance) (gate : MaintenanceGate) (m : Maintenance) : Prop where
  gate : m.gate = gate
  drained : m.drained = false
  stopped : m.stoppedWorkers = []
  workers : m.workers = m₀.workers
  quiet : m.loud = false

/-- Behind the answered drain, with these workers stopped. -/
structure Stopping (m₀ : Maintenance) (done : List WorkerName) (m : Maintenance) : Prop where
  gate : Shut m.gate
  drained : m.drained = true
  quiet : m.loud = false
  untracked : ∀ name ∈ m.stoppedWorkers, (m.workers name).tracked = false
  subset : ∀ name ∈ m.stoppedWorkers, name ∈ done
  ended : ∀ name ∈ done, (m.workers name).running = false
  listed : ∀ name ∈ done, (m₀.workers name).running = true → name ∈ m.stoppedWorkers
  rest : ∀ name ∉ done, m.workers name = m₀.workers name

/-- What is left of a call that raised, or of the last one. -/
def Left (fates : BackupFates) (m₀ m : Maintenance) : Prop :=
  m.loud = false ∧ Interrupted fates m₀ m

theorem waiting_call {f : CallEnd} {gate : MaintenanceGate} (hopened : gate.draining = false)
    (hundoable : f.raises ≠ none → Undoable fates m₀) :
    Spec (Waiting m₀ gate) (call f)
      (fun _ m => Waiting m₀ (run gateStep gate f.meanwhile) m ∧ f.raises = none)
      (fun _ => Left fates m₀) := by
  refine call_spec ?_ ?_
  · intro hnone m hm
    refine ⟨⟨?_, hm.drained, hm.stopped, hm.workers, hm.quiet⟩, hnone⟩
    rw [hm.gate]
  · intro hraises m hm
    refine ⟨hm.quiet, .untouched (hundoable hraises) ?_ hm.drained hm.stopped hm.workers⟩
    show (run gateStep m.gate f.meanwhile).draining = false
    rw [run_gate_draining, hm.gate]
    exact hopened

theorem drain_spec (gate : MaintenanceGate) (hok : GateOk gate) (hopened : gate.draining = false)
    (hunsent : fates.drain.isUnsent = true → Undoable fates m₀)
    (hunanswered : fates.drain.isUnsent = false → fates.drain.isAnswered gate = false →
      ¬ Undoable fates m₀) :
    Spec (Waiting m₀ gate) (maintenanceDrain fates.drain)
      (fun _ m => (Shut m.gate ∧ m.stoppedWorkers = [] ∧ m.workers = m₀.workers ∧
        m.loud = false) ∧ fates.drain.isAnswered gate = true)
      (fun _ => Left fates m₀) := by
  cases hdrain : fates.drain with
  | unsent meanwhile =>
    rw [hdrain] at hunsent
    refine Spec.bind (M := fun _ m => Waiting m₀ (run gateStep gate meanwhile) m)
      (Spec.update fun m hm => ⟨by rw [← hm.gate], hm.drained, hm.stopped, hm.workers, hm.quiet⟩)
      fun _ => Spec.throw fun m hm => ⟨hm.quiet, .untouched (hunsent rfl) ?_ hm.drained hm.stopped
        hm.workers⟩
    rw [hm.gate, run_gate_draining]
    exact hopened
  | performed before during lost =>
    rw [hdrain] at hunanswered
    have hclosed : ∀ g : MaintenanceGate, (run gateStep g.close during).draining = true :=
      fun g => run_gate_draining g.close during
    refine ⟨fun m hm => ?_⟩
    obtain ⟨rfl, hmdrained, hmstopped, hmworkers, hmquiet⟩ := hm
    have hgate : GateOk (run gateStep (run gateStep m.gate before).close during) :=
      run_gate_ok during (close_ok (run_gate_ok before hok))
    show Exits _ _ (if (run gateStep (run gateStep m.gate before).close during).idle ∧ ¬ lost
      then ((.ok (), _) : Except BackupFault Unit × Maintenance) else (.error .other, _))
    by_cases hanswered : (run gateStep (run gateStep m.gate before).close during).idle ∧ ¬ lost
    · rw [if_pos hanswered]
      exact ⟨⟨⟨hclosed _, hgate.mp hanswered.1⟩, hmstopped, hmworkers, hmquiet⟩,
        decide_eq_true hanswered⟩
    · rw [if_neg hanswered]
      exact ⟨hmquiet, .shut (hunanswered rfl (decide_eq_false hanswered)) (hclosed _) hmdrained
        hmstopped⟩

/-- `_stop` of a child. -/
theorem stop_spec {P R : Maintenance → Prop} {Q : Unit → Maintenance → Prop} {f : StopEnd}
    {name : WorkerName} (htracked : ∀ m, P m → (m.workers name).tracked = true)
    (hends : f.ends = true → ∀ m, P m → Q () { m with
      gate := run gateStep m.gate f.meanwhile
      workers := Function.update m.workers name ⟨false, false⟩ })
    (hraises : f.ends = false → ∀ m, P m → R { m with
      gate := run gateStep m.gate f.meanwhile
      workers := Function.update m.workers name
        ⟨false, (m.workers name).running && f.survives⟩ }) :
    Spec P (stop f name) Q fun _ => R := by
  refine ⟨fun m hm => ?_⟩
  have hstop : stop f name m = if ¬ (m.workers name).tracked then
        (.ok (), { m with gate := run gateStep m.gate f.meanwhile })
      else if f.ends then (.ok (), { m with
        gate := run gateStep m.gate f.meanwhile
        workers := Function.update m.workers name ⟨false, false⟩ })
      else (.error .other, { m with
        gate := run gateStep m.gate f.meanwhile
        workers := Function.update m.workers name
          ⟨false, (m.workers name).running && f.survives⟩ }) := rfl
  rw [hstop, if_neg (not_not.mpr (htracked m hm))]
  cases hf : f.ends with
  | true => exact hends hf m hm
  | false => exact hraises hf m hm

/-- One more worker stopped, and noted. -/
theorem Stopping.stop {done : List WorkerName} {name : WorkerName} {m : Maintenance}
    (h : Stopping m₀ done m) (hname : name ∉ done) (events : List GateEvent) :
    Stopping m₀ (done ++ [name]) { m with
      gate := run gateStep m.gate events
      workers := Function.update m.workers name ⟨false, false⟩
      stoppedWorkers := m.stoppedWorkers ++ [name] } := by
  have hself : (Function.update m.workers name ⟨false, false⟩) name = ⟨false, false⟩ :=
    Function.update_self ..
  have hother : ∀ {other}, other ≠ name →
      (Function.update m.workers name ⟨false, false⟩) other = m.workers other :=
    fun hne => Function.update_of_ne hne ..
  have hdone : ∀ other ∈ done, other ≠ name := fun other hin heq => hname (heq ▸ hin)
  refine ⟨run_gate_shut _ h.gate, h.drained, h.quiet, ?_, ?_, ?_, ?_, ?_⟩
  · intro other hin
    show ((Function.update m.workers name ⟨false, false⟩) other).tracked = false
    rcases List.mem_append.mp hin with hin | hin
    · rw [hother (hdone other (h.subset other hin))]
      exact h.untracked other hin
    · rw [List.mem_singleton.mp hin, hself]
  · intro other hin
    rcases List.mem_append.mp hin with hin | hin
    · exact List.mem_append_left _ (h.subset other hin)
    · exact List.mem_append_right _ hin
  · intro other hin
    show ((Function.update m.workers name ⟨false, false⟩) other).running = false
    rcases List.mem_append.mp hin with hin | hin
    · rw [hother (hdone other hin)]
      exact h.ended other hin
    · rw [List.mem_singleton.mp hin, hself]
  · intro other hin hran
    rcases List.mem_append.mp hin with hin | hin
    · exact List.mem_append_left _ (h.listed other hin hran)
    · exact List.mem_append_right _ hin
  · intro other hnot
    show (Function.update m.workers name ⟨false, false⟩) other = _
    rw [hother fun heq => hnot (List.mem_append_right _ (List.mem_singleton.mpr heq))]
    exact h.rest other fun hin => hnot (List.mem_append_left _ hin)

/-- `_stop` raised: the worker is no child any more, and runs or does not. -/
theorem Stopping.raises {done : List WorkerName} {name : WorkerName} {m : Maintenance}
    (h : Stopping m₀ done m) (hname : name ∉ done) (hran : (m₀.workers name).running = true)
    (hundoable : Undoable fates m₀ ↔ (fates.stop name).survives = true) (events : List GateEvent) :
    Interrupted fates m₀ { m with
      gate := run gateStep m.gate events
      workers := Function.update m.workers name
        ⟨false, (m.workers name).running && (fates.stop name).survives⟩ } := by
  have hmissing : name ∉ m.stoppedWorkers := fun hin => hname (h.subset name hin)
  have hrunning : (m.workers name).running = true := by
    rw [h.rest name hname]
    exact hran
  cases hsurvives : (fates.stop name).survives with
  | false =>
    rw [hsurvives] at hundoable
    refine .lost (fun hok => absurd (hundoable.mp hok) (by simp)) name hran hmissing ?_
    show ((Function.update m.workers name _) name).running = false
    rw [Function.update_self, Bool.and_false]
  | true =>
    refine .halted (hundoable.mpr hsurvives) h.drained ?_ ?_
    · intro other hin
      have hne : other ≠ name := fun heq => hmissing (heq ▸ hin)
      show ((Function.update m.workers name _) other).tracked = false
      rw [Function.update_of_ne hne]
      exact h.untracked other hin
    · intro other hother
      show other ∈ m.stoppedWorkers ∨ ((Function.update m.workers name _) other).running = true
      by_cases heq : other = name
      · right
        rw [heq, Function.update_self, hrunning]
        rfl
      · rw [Function.update_of_ne heq]
        by_cases hin : other ∈ done
        · exact Or.inl (h.listed other hin hother)
        · right
          rw [h.rest other hin]
          exact hother

theorem stopWorker_spec {done : List WorkerName} {name : WorkerName} (hname : name ∉ done)
    (hmanaged : (m₀.workers name).tracked = (m₀.workers name).running)
    (hundoable : (m₀.workers name).tracked = true → (fates.stop name).ends = false →
      (Undoable fates m₀ ↔ (fates.stop name).survives = true)) :
    Spec (Stopping m₀ done) (stopWorker fates name)
      (fun _ m => Stopping m₀ (done ++ [name]) m ∧
        ((m₀.workers name).tracked = true → (fates.stop name).ends = true))
      (fun _ => Left fates m₀) := by
  by_cases htracked : (m₀.workers name).tracked = true
  · have hstops : ∀ m, Stopping m₀ done m → (m.workers name).tracked = true := by
      intro m hm
      rw [hm.rest name hname]
      exact htracked
    refine ⟨fun m hm => ?_⟩
    unfold stopWorker
    rw [if_pos (hstops m hm)]
    -- between `_stop` and the note of it
    refine (Spec.bind (P := Stopping m₀ done) (M := fun _ m =>
      Stopping m₀ (done ++ [name]) { m with stoppedWorkers := m.stoppedWorkers ++ [name] } ∧
        (fates.stop name).ends = true) (stop_spec hstops ?_ ?_) fun _ => Spec.update fun m hm =>
          ⟨hm.1, fun _ => hm.2⟩).exits m hm
    · exact fun hends m hm => ⟨hm.stop hname _, hends⟩
    · exact fun hraises m hm => ⟨hm.quiet, hm.raises hname (hmanaged ▸ htracked)
        (hundoable htracked hraises) _⟩
  · have hdown : (m₀.workers name).running = false := by
      rw [← hmanaged]
      simpa using htracked
    refine ⟨fun m hm => ?_⟩
    unfold stopWorker
    rw [if_neg (by rw [hm.rest name hname]; exact htracked)]
    refine ⟨⟨hm.gate, hm.drained, hm.quiet, hm.untracked, ?_, ?_, ?_, ?_⟩,
      fun h => absurd h htracked⟩
    · exact fun other hother => List.mem_append_left _ (hm.subset other hother)
    · intro other hother
      rcases List.mem_append.mp hother with hother | hother
      · exact hm.ended other hother
      · rw [List.mem_singleton.mp hother, hm.rest name hname]
        exact hdown
    · intro other hother hran
      rcases List.mem_append.mp hother with hother | hother
      · exact hm.listed other hother hran
      · rw [List.mem_singleton.mp hother, hdown] at hran
        exact absurd hran (by simp)
    · exact fun other hother => hm.rest other fun hin => hother (List.mem_append_left _ hin)

/-- Both workers are stopped. -/
def bothWorkers : List WorkerName := [.ingestion, .deletion]

theorem mem_bothWorkers (name : WorkerName) : name ∈ bothWorkers := by
  cases name with
  | ingestion => exact List.mem_cons_self
  | deletion => exact List.mem_cons_of_mem _ List.mem_cons_self

theorem Stopping.left {m : Maintenance} (h : Stopping m₀ bothWorkers m)
    (hundoable : Undoable fates m₀) : Left fates m₀ m :=
  ⟨h.quiet, .halted hundoable h.drained h.untracked fun name hran =>
    Or.inl (h.listed name (mem_bothWorkers name) hran)⟩

theorem stopped_call {f : CallEnd} (hundoable : Undoable fates m₀) :
    Spec (Stopping m₀ bothWorkers) (call f) (fun _ => Stopping m₀ bothWorkers)
      (fun _ => Left fates m₀) := by
  have hpass : ∀ m, Stopping m₀ bothWorkers m →
      Stopping m₀ bothWorkers { m with gate := run gateStep m.gate f.meanwhile } := fun m hm =>
    ⟨run_gate_shut _ hm.gate, hm.drained, hm.quiet, hm.untracked, hm.subset, hm.ended, hm.listed,
      hm.rest⟩
  exact call_spec (fun _ m hm => hpass m hm) fun _ m hm => (hpass m hm).left hundoable

/-- The export and the verification run in quiet. -/
theorem stopped_watched {f : CallEnd} (hundoable : Undoable fates m₀) :
    Spec (Stopping m₀ bothWorkers) (watched f) (fun _ => Stopping m₀ bothWorkers)
      (fun _ => Left fates m₀) := by
  refine Spec.bind (M := fun _ => Stopping m₀ bothWorkers) (Spec.update fun m hm => ?_)
    fun _ => stopped_call hundoable
  refine ⟨hm.gate, hm.drained, ?_, hm.untracked, hm.subset, hm.ended, hm.listed, hm.rest⟩
  show (m.loud || loudAlong m.workers m.gate f.meanwhile) = false
  rw [hm.quiet, loudAlong_shut (fun name => hm.ended name (mem_bothWorkers name)) hm.gate]
  rfl

theorem backUp_spec (hready : Ready m₀) :
    Spec (Waiting m₀ m₀.gate) (backUp fates) (fun _ => Left fates m₀) (fun _ => Left fates m₀) := by
  have hdraining : ∀ events, (run gateStep m₀.gate events).draining = false := fun events =>
    (run_gate_draining m₀.gate events).trans hready.opened
  unfold backUp
  refine Spec.bind (waiting_call hready.opened fun hraises hclaim => absurd hclaim hraises)
    fun _ => Spec.assume fun hclaim => ?_
  refine Spec.bind (M := fun _ => Waiting m₀ (run gateStep m₀.gate fates.claim.meanwhile))
    (Spec.update fun m hm => ⟨hm.gate, hm.drained, hm.stopped, hm.workers, hm.quiet⟩) fun _ => ?_
  refine Spec.bind (waiting_call (hdraining _) fun hraises _ hchoose => absurd hchoose hraises)
    fun _ => Spec.assume fun hchoose => ?_
  have hgate : GateOk (gateAtDrain fates m₀) := run_gate_ok _ (run_gate_ok _ hready.gate)
  refine Spec.bind (drain_spec (gateAtDrain fates m₀) hgate
    ((run_gate_draining _ _).trans (hdraining _)) (fun hunsent _ _ => Or.inl hunsent) ?_)
    fun _ => Spec.assume fun hanswered => ?_
  · intro hsent hnot hundoable
    rcases hundoable hclaim hchoose with hunsent | ⟨hanswered, -⟩
    · rw [hsent] at hunsent
      exact absurd hunsent (by simp)
    · rw [hnot] at hanswered
      exact absurd hanswered (by simp)
  have hreached : Undoable fates m₀ ↔ StopFine fates m₀ .ingestion ∧
      (((m₀.workers .ingestion).tracked = true → (fates.stop .ingestion).ends = true) →
        StopFine fates m₀ .deletion) := by
    constructor
    · intro h
      rcases h hclaim hchoose with hunsent | ⟨-, hstops⟩
      · cases hdrain : fates.drain with
        | unsent meanwhile =>
          rw [hdrain] at hanswered
          exact absurd hanswered (by simp [DrainEnd.isAnswered])
        | performed before during lost =>
          rw [hdrain] at hunsent
          exact absurd hunsent (by simp [DrainEnd.isUnsent])
      · exact hstops
    · exact fun hstops _ _ => Or.inr ⟨hanswered, hstops⟩
  refine Spec.bind (M := fun _ => Stopping m₀ []) (Spec.update ?_) fun _ => ?_
  · rintro m ⟨hshut, hstopped, hworkers, hquiet⟩
    refine ⟨hshut, rfl, hquiet, fun name hin => ?_, fun name hin => ?_, by simp, by simp,
      fun name _ => congrFun hworkers name⟩
    · exact absurd (hstopped ▸ hin) List.not_mem_nil
    · exact hstopped ▸ hin
  refine Spec.bind (M := fun _ m => Stopping m₀ bothWorkers m ∧ Undoable fates m₀) ?_
    fun _ => Spec.assume fun hundoable => ?_
  · show Spec _ (stopWorker fates .ingestion >>= fun _ => stopWorker fates .deletion >>=
      fun _ => pure ()) _ _
    refine Spec.bind (stopWorker_spec List.not_mem_nil (hready.managed _) fun htracked hnot => ?_)
      fun _ => Spec.assume fun hfirst => ?_
    · rw [hreached]
      constructor
      · intro h
        rcases h.1 htracked with hends | hsurvives
        · rw [hnot] at hends
          exact absurd hends (by simp)
        · exact hsurvives
      · intro hsurvives
        refine ⟨fun _ => Or.inr hsurvives, fun h => ?_⟩
        have hends := h htracked
        rw [hnot] at hends
        exact absurd hends (by simp)
    have hfine : StopFine fates m₀ .ingestion := fun htracked => Or.inl (hfirst htracked)
    refine Spec.bind (stopWorker_spec (by simp) (hready.managed _) fun htracked hnot => ?_)
      fun _ => Spec.pure fun m hm => ⟨hm.1, hreached.mpr ⟨hfine, fun _ htracked =>
        Or.inl (hm.2 htracked)⟩⟩
    rw [hreached]
    constructor
    · intro h
      rcases h.2 hfirst htracked with hends | hsurvives
      · rw [hnot] at hends
        exact absurd hends (by simp)
      · exact hsurvives
    · exact fun hsurvives => ⟨hfine, fun _ _ => Or.inr hsurvives⟩
  refine Spec.bind (stopped_call hundoable) fun _ => ?_
  refine Spec.bind (stopped_watched hundoable) fun _ => ?_
  refine Spec.bind (stopped_call hundoable) fun _ => ?_
  refine Spec.bind (stopped_call hundoable) fun _ => ?_
  refine Spec.bind (stopped_watched hundoable) fun _ => ?_
  exact (stopped_call hundoable).conseq (fun m hm => hm) (fun _ m hm => hm.left hundoable)
    fun _ m hm => hm

/-! ## The clauses behind it -/

theorem reportFailure_spec (e : BackupFault) {Q : Unit → Maintenance → Prop} :
    Spec (Left fates m₀) (reportFailure fates e) Q (fun _ => Left fates m₀) := by
  have hpass : ∀ {f : CallEnd} {m}, Left fates m₀ m →
      Left fates m₀ { m with gate := run gateStep m.gate f.meanwhile } := fun hm =>
    ⟨hm.1, hm.2.frame (run_gate_draining ..) rfl rfl rfl⟩
  refine Spec.bind (M := fun _ => Left fates m₀) ⟨fun m hm => ?_⟩ fun _ =>
    Spec.throw fun m hm => hm
  have hreport : Spec (Left fates m₀) (tryCatch (do
      Gen.update fun m => { m with failures := m.failures ++ [failureReason e] }
      call fates.failed) fun _ => pure () : BacksUp Unit) (fun _ => Left fates m₀)
      (fun _ => Left fates m₀) := by
    refine Spec.tryCatch (M := fun _ => Left fates m₀) (Spec.bind (M := fun _ => Left fates m₀)
      (Spec.update fun m hm => ⟨hm.1, hm.2.frame rfl rfl rfl rfl⟩) fun _ => call_spec
        (fun _ m hm => hpass hm) fun _ m hm => hpass hm) fun _ => Spec.pure fun m hm => hm
  by_cases hclaimed : m.claimed = true
  · rw [if_pos hclaimed]
    exact hreport.exits m hm
  · rw [if_neg hclaimed]
    exact hm

/-- A start of the cleanup: the worker is a child already, or becomes one that runs. -/
theorem start_spec {P : Maintenance → Prop} {Q : Unit → Maintenance → Prop}
    {R : BackupFault → Maintenance → Prop} {events : List GateEvent} {name : WorkerName}
    (hchild : ∀ m, P m → (m.workers name).tracked = true →
      Q () { m with gate := run gateStep m.gate events })
    (hstarted : ∀ m, P m → (m.workers name).tracked = false → Q () { m with
      gate := run gateStep m.gate events
      workers := Function.update m.workers name ⟨true, true⟩ }) :
    Spec P (tryCatch (start events name) fun _ => pure ()) Q R := by
  refine ⟨fun m hm => ?_⟩
  have hstart : start events name m = if (m.workers name).tracked then
        (.error .other, { m with gate := run gateStep m.gate events })
      else (.ok (), { m with
        gate := run gateStep m.gate events
        workers := Function.update m.workers name ⟨true, true⟩ }) := rfl
  show Exits Q R (Gen.handle (start events name) _ m)
  unfold Gen.handle
  rw [hstart]
  cases htracked : (m.workers name).tracked with
  | true => exact hchild m hm htracked
  | false => exact hstarted m hm htracked

/-- What a backup leaves at its very end. -/
structure Finishes (fates : BackupFates) (m₀ m : Maintenance) : Prop where
  quiet : m.loud = false
  undone : (m.gate.draining = false ∧
    ∀ name, (m₀.workers name).running = true → (m.workers name).running = true) ↔
      Undoable fates m₀

/-- While the stopped workers are started again. -/
structure Starting (m₀ : Maintenance) (stopped done : List WorkerName) (m : Maintenance) :
    Prop where
  quiet : m.loud = false
  drained : m.drained = true
  started : ∀ name ∈ done, (m.workers name).running = true
  untracked : ∀ name ∈ stopped, name ∉ done → (m.workers name).tracked = false
  workers : ∀ name, (m₀.workers name).running = true →
    name ∈ stopped ∨ (m.workers name).running = true

/-- The starts of the cleanup. -/
def startAll (fates : BackupFates) (stopped : List WorkerName) : BacksUp Unit :=
  Gen.each (fun name => tryCatch (start (fates.start name) name) fun _ => pure ()) stopped

theorem startAll_spec (fates : BackupFates) (m₀ : Maintenance) (stopped : List WorkerName) :
    Spec (Starting m₀ stopped []) (startAll fates stopped) (fun _ => Starting m₀ stopped stopped)
      (fun _ _ => False) := by
  refine Spec.each (Starting m₀ stopped) fun done name rest hstopped => start_spec ?_ ?_
  · intro m hm htracked
    have hin : name ∈ stopped := by
      rw [hstopped]
      exact List.mem_append_right _ List.mem_cons_self
    -- a child among the stopped ones was started before
    have hdone : name ∈ done := by
      by_contra hnot
      rw [hm.untracked name hin hnot] at htracked
      exact absurd htracked (by simp)
    refine ⟨hm.quiet, hm.drained, fun other hother => ?_, fun other hother hnot =>
      hm.untracked other hother fun hin' => hnot (List.mem_append_left _ hin'), hm.workers⟩
    rcases List.mem_append.mp hother with hother | hother
    · exact hm.started other hother
    · rw [List.mem_singleton.mp hother]
      exact hm.started name hdone
  · intro m hm htracked
    have hself : (Function.update m.workers name ⟨true, true⟩) name = ⟨true, true⟩ :=
      Function.update_self ..
    have hruns : ∀ other, (m.workers other).running = true →
        ((Function.update m.workers name ⟨true, true⟩) other).running = true := by
      intro other hother
      by_cases heq : other = name
      · rw [heq, hself]
      · rw [Function.update_of_ne heq]
        exact hother
    refine ⟨hm.quiet, hm.drained, ?_, ?_, ?_⟩
    · intro other hother
      rcases List.mem_append.mp hother with hother | hother
      · exact hruns other (hm.started other hother)
      · show ((Function.update m.workers name ⟨true, true⟩) other).running = true
        rw [List.mem_singleton.mp hother, hself]
    · intro other hother hnot
      have hne : other ≠ name := fun heq =>
        hnot (List.mem_append_right _ (List.mem_singleton.mpr heq))
      show ((Function.update m.workers name ⟨true, true⟩) other).tracked = false
      rw [Function.update_of_ne hne]
      exact hm.untracked other hother fun hin => hnot (List.mem_append_left _ hin)
    · intro other hran
      rcases hm.workers other hran with hin | hrunning
      · exact Or.inl hin
      · exact Or.inr (hruns other hrunning)

/-- A worker that is not noted stays as it is. -/
theorem startAll_missing (fates : BackupFates) {stopped : List WorkerName} {missing : WorkerName}
    (hmissing : missing ∉ stopped) :
    Spec (fun m => m.loud = false ∧ (m.workers missing).running = false) (startAll fates stopped)
      (fun _ m => m.loud = false ∧ (m.workers missing).running = false) (fun _ _ => False) := by
  refine Spec.each (fun (_ : List WorkerName) (m : Maintenance) =>
    m.loud = false ∧ (m.workers missing).running = false) ?_
  intro done name rest hstopped
  have hne : missing ≠ name := by
    rintro rfl
    rw [hstopped] at hmissing
    exact hmissing (List.mem_append_right _ List.mem_cons_self)
  refine start_spec (fun m hm _ => hm) fun m hm _ => ⟨hm.1, ?_⟩
  show ((Function.update m.workers name ⟨true, true⟩) missing).running = false
  rw [Function.update_of_ne hne]
  exact hm.2

/-- The gate is opened again, if the drain was noted. -/
def openAgain (fates : BackupFates) : BacksUp Unit := fun m =>
  if m.drained then
    (do
      pass fates.resume
      Gen.update fun m => { m with gate := m.gate.resume } : BacksUp Unit) m
  else (.ok (), m)

theorem cleanUp_spec :
    Spec (Left fates m₀) (cleanUp fates) (fun _ => Finishes fates m₀)
      (fun _ => Finishes fates m₀) := by
  refine ⟨fun m hm => ?_⟩
  have hcleanUp : cleanUp fates m =
      Gen.andThen (startAll fates m.stoppedWorkers) (fun _ => openAgain fates) m := rfl
  rw [hcleanUp]
  obtain ⟨hquiet, hleaves⟩ := hm
  cases hleaves with
  | untouched hundoable hopened hdrained hstopped hworkers =>
    rw [hstopped]
    show Exits _ _ (openAgain fates m)
    unfold openAgain
    rw [hdrained]
    exact ⟨hquiet, fun _ => hundoable, fun _ => ⟨hopened, fun name hran => hworkers ▸ hran⟩⟩
  | shut hnot hshut hdrained hstopped =>
    rw [hstopped]
    show Exits _ _ (openAgain fates m)
    unfold openAgain
    rw [hdrained]
    refine ⟨hquiet, fun h => ?_, fun h => absurd h hnot⟩
    rw [hshut] at h
    exact absurd h.1 (by simp)
  | halted hundoable hdrained huntracked hworkers =>
    have hstart := (startAll_spec fates m₀ m.stoppedWorkers).exits m
      ⟨hquiet, hdrained, by simp, fun name hin _ => huntracked name hin, hworkers⟩
    unfold Gen.andThen
    cases hres : startAll fates m.stoppedWorkers m with
    | mk res m' =>
      rw [hres] at hstart
      cases res with
      | error e => exact hstart.elim
      | ok u =>
        have hm' : Starting m₀ m.stoppedWorkers m.stoppedWorkers m' := hstart
        show Exits _ _ (openAgain fates m')
        unfold openAgain
        rw [hm'.drained]
        refine ⟨hm'.quiet, fun _ => hundoable, fun _ => ⟨rfl, fun name hran => ?_⟩⟩
        rcases hm'.workers name hran with hin | hrunning
        · exact hm'.started name hin
        · exact hrunning
  | lost hnot name hran hmissing hended =>
    have hstart := (startAll_missing fates hmissing).exits m ⟨hquiet, hended⟩
    unfold Gen.andThen
    cases hres : startAll fates m.stoppedWorkers m with
    | mk res m' =>
      rw [hres] at hstart
      cases res with
      | error e => exact hstart.elim
      | ok u =>
        have hm' : m'.loud = false ∧ (m'.workers name).running = false := hstart
        -- opening the gate starts no worker
        have hdown : ∀ {m''}, m''.loud = m'.loud → m''.workers = m'.workers →
            Finishes fates m₀ m'' := by
          intro m'' hloud hworkers
          refine ⟨hloud.trans hm'.1, fun h => ?_, fun h => absurd h hnot⟩
          have hrunning := h.2 name hran
          rw [hworkers, hm'.2] at hrunning
          exact absurd hrunning (by simp)
        show Exits _ _ (openAgain fates m')
        unfold openAgain
        cases hdrained : m'.drained with
        | true => exact hdown rfl rfl
        | false => exact hdown rfl rfl

/-- However a backup ends. -/
theorem createBackup_finishes (fates : BackupFates) (hready : Ready m₀) :
    Finishes fates m₀ (createBackup fates m₀).2 := by
  have hspec : Spec (fun m => m = m₀) (createBackup fates) (fun _ => Finishes fates m₀)
      (fun _ => Finishes fates m₀) := by
    refine Spec.ensuring (M := fun _ => Left fates m₀) (N := fun _ => Left fates m₀)
      (Spec.bind (M := fun _ => Waiting m₀ m₀.gate) (Spec.update ?_) fun _ =>
        Spec.tryCatch (backUp_spec hready) fun e => reportFailure_spec e)
      (fun _ => cleanUp_spec) fun _ => cleanUp_spec
    rintro m rfl
    exact ⟨rfl, rfl, rfl, rfl, hready.quiet⟩
  have hexit := hspec.exits m₀ rfl
  cases hres : createBackup fates m₀ with
  | mk res m =>
    rw [hres] at hexit
    cases res with
    | ok u => exact hexit
    | error e => exact hexit

end Backup

/-- For every way in which the calls of a backup may end, every request that arrives and every
mutation that leaves meanwhile: the export and the verification run in quiet, the gate is open at
the end and every worker that ran before runs, exactly if the backup is undoable. The quiet holds
in any case. -/
theorem backup_undone (fates : BackupFates) (m : Maintenance) (hready : Ready m) :
    (createBackup fates m).2.loud = false ∧
      (Undone m (createBackup fates m).2 ↔ Undoable fates m) := by
  have hend := createBackup_finishes fates hready
  refine ⟨hend.quiet, fun h => hend.undone.mp ⟨h.opened, h.workers⟩, fun h => ?_⟩
  obtain ⟨hopened, hworkers⟩ := hend.undone.mpr h
  exact ⟨hend.quiet, hopened, hworkers⟩

/-! ## A sample -/

def quietCall : CallEnd := ⟨[], none⟩

/-- A mutation is inside, and both workers run. -/
def sampleMaintenance : Maintenance where
  gate := ⟨false, 1, false⟩
  workers _ := ⟨true, true⟩
  claimed := false
  drained := false
  stoppedWorkers := []
  failures := []
  loud := false

theorem sample_ready : Ready sampleMaintenance :=
  ⟨rfl, ⟨fun h => absurd h (by decide), fun h => absurd h (by decide)⟩, fun _ => rfl, rfl⟩

/-- The mutation leaves, another arrives and is refused; the export fails. -/
def exportFails : BackupFates where
  claim := quietCall
  chooseDestination := quietCall
  drain := .performed [] [.leaves] false
  stop _ := ⟨[], true, false, true, true, true, true, true, false⟩
  exporting := quietCall
  doExport := ⟨[.arrives ⟨"http", "POST", "/v1/chats"⟩], some (.backup "PostgreSQL backup failed")⟩
  exported := quietCall
  verifying := quietCall
  verify := quietCall
  verified := quietCall
  failed := quietCall
  start _ := []
  resume := []

theorem backup_undone_export : (createBackup exportFails sampleMaintenance).2.loud = false ∧
    Undone sampleMaintenance (createBackup exportFails sampleMaintenance).2 := by
  obtain ⟨hquiet, hundone⟩ := backup_undone exportFails sampleMaintenance sample_ready
  refine ⟨hquiet, hundone.mpr fun _ _ => Or.inr ⟨by decide, ?_, fun _ => ?_⟩⟩
  · exact fun _ => Or.inl rfl
  · exact fun _ => Or.inl rfl

/-- The mutation stays inside until the drain times out. -/
def drainTimesOut : BackupFates := { exportFails with drain := .performed [] [] false }

/-- The drain times out, and the gate stays shut. -/
theorem gate_stays_shut :
    ¬ Undone sampleMaintenance (createBackup drainTimesOut sampleMaintenance).2 := by
  intro h
  have hshut : (createBackup drainTimesOut sampleMaintenance).2.gate.draining = true := by
    decide +kernel
  rw [h.opened] at hshut
  exact absurd hshut (by decide)

end LocalRag.Admin
