import LocalRag.Runtime.Tracked

/-!
# The idle event — when a drain is released

`drain` waits for `_idle`, which every way a request leaves has to set once
`_cancellations` is empty: the `finally` of both bodies, the failed `enqueue` of both
entry points, and `drain` itself all say so (`settle`). `cancel` of a request that
is still queued empties the dictionary too and says nothing.

- `idle_always_iff`: in a run the event is set whenever nothing is tracked exactly
  if no `cancel` takes the only tracked request out of the queue; and if besides no
  task is cancelled before its first step, no drain waits once nothing is queued and
  no task is unfinished.
-/

namespace LocalRag.Runtime

open LocalRag.Core CoordinatorRuntime

variable {α : Type} {s : CoordinatorRuntime α}

/-- The event is set whenever no request is tracked. -/
def IdleWhenUntracked (s : CoordinatorRuntime α) : Prop := s.cancellations = [] → s.idle = true

/-- With nothing queued and no task unfinished, no drain waits. -/
def Released (s : CoordinatorRuntime α) : Prop :=
  s.scheduler.queued = [] → (∀ t ∈ s.tasks, t.unfinished = false) → s.waitingDrains = 0

/-- The step is not the cancel of a queued request that is the only one tracked. -/
def leavesTracked (s : CoordinatorRuntime α) : Action α → Prop
  | .cancel r => r ∈ s.scheduler.queued → ∃ r' ∈ s.tracked, r' ≠ r
  | _ => True

theorem tracked_eq_nil : s.tracked = [] ↔ s.cancellations = [] := List.map_eq_nil_iff

theorem settle_idle (s : CoordinatorRuntime α) : IdleWhenUntracked s.settle := by
  unfold settle
  split
  next => exact fun _ => rfl
  next hne => exact fun hempty => absurd hempty hne

/-- A cancel leaves the event as it was, and takes the request off the dictionary if it
was queued. -/
theorem withdraw_effect (s : CoordinatorRuntime α) (r : RequestId) :
    (s.withdraw r).idle = s.idle ∧
      ∀ r', r' ∈ (s.withdraw r).tracked ↔
        r' ∈ s.tracked ∧ (r ∈ s.scheduler.queued → r' ≠ r) := by
  obtain ⟨hqueued, -, -⟩ := cancel_spec s.scheduler r
  have hkeys := setEvent_keys s r
  unfold withdraw
  simp only []
  split
  next hwas =>
    refine ⟨rfl, fun r' => ?_⟩
    have hin := hqueued.mp hwas
    have hfilter := @mem_tracked_filter α { s with
      cancellations := s.cancellations.map fun (c : RequestId × Bool) =>
        if c.1 = r then (c.1, true) else c } r r'
    refine hfilter.trans ?_
    show r' ∈ List.map _ _ ∧ _ ↔ _
    rw [hkeys]
    exact ⟨fun h => ⟨h.1, fun _ => h.2⟩, fun h => ⟨h.1, h.2 hin⟩⟩
  next hnot =>
    refine ⟨rfl, fun r' => ?_⟩
    have hout : r ∉ s.scheduler.queued := fun hin => hnot (hqueued.mpr hin)
    show r' ∈ List.map _ _ ↔ _
    rw [hkeys]
    exact ⟨fun h => ⟨h, fun hin => absurd hin hout⟩, fun h => h.1⟩

theorem cancel_effect (s : CoordinatorRuntime α) {r : RequestId} (hr : r ∈ s.tracked) :
    (s.cancel r).2.idle = s.idle ∧
      ∀ r', r' ∈ (s.cancel r).2.tracked ↔
        r' ∈ s.tracked ∧ (r ∈ s.scheduler.queued → r' ≠ r) := by
  unfold CoordinatorRuntime.cancel
  rw [if_neg (not_not.mpr hr)]
  simp only []
  split
  next => exact withdraw_effect s r
  next => exact withdraw_effect s r

theorem cancel_idle (h : IdleWhenUntracked s) {r : RequestId}
    (hok : r ∈ s.scheduler.queued → ∃ r' ∈ s.tracked, r' ≠ r) :
    IdleWhenUntracked (s.cancel r).2 := by
  by_cases hr : r ∈ s.tracked
  · obtain ⟨hidle, htracked⟩ := cancel_effect s hr
    intro hempty
    -- something is tracked afterwards: the request itself, or another
    exfalso
    have hnone : ∀ r', r' ∉ (s.cancel r).2.tracked := by
      rw [tracked_eq_nil.mpr hempty]
      simp
    by_cases hq : r ∈ s.scheduler.queued
    · obtain ⟨r', hr', hne⟩ := hok hq
      exact hnone r' ((htracked r').mpr ⟨hr', fun _ => hne⟩)
    · exact hnone r ((htracked r).mpr ⟨hr, fun hin => absurd hin hq⟩)
  · unfold CoordinatorRuntime.cancel
    rw [if_pos hr]
    exact h

theorem accept_idle (h : IdleWhenUntracked s) (streaming : Bool) (r : RequestId) (payload : α)
    (priority : Priority) (now : Int) :
    IdleWhenUntracked (s.accept streaming r payload priority now).2 := by
  unfold accept
  split
  next => exact h
  next =>
    split
    next => exact h
    next =>
      simp only []
      split
      next =>
        intro hempty
        exact absurd hempty (by simp)
      next => exact settle_idle _

theorem taskEnd_idle (h : IdleWhenUntracked s) (id : Nat) (failed : Bool) :
    IdleWhenUntracked (s.taskEnd id failed) := by
  unfold taskEnd
  split
  next => exact h
  next =>
    split
    next =>
      split
      next => exact h
      next =>
        rw [settle_setTask]
        exact settle_idle _
    next => exact h

theorem step_idle (h : IdleWhenUntracked s) {a : Action α} (hok : leavesTracked s a) :
    IdleWhenUntracked (step s a) := by
  cases a with
  | submit r payload priority now => exact accept_idle h false r payload priority now
  | stream r payload priority now => exact accept_idle h true r payload priority now
  | cancel r => exact cancel_idle h hok
  | drain =>
    show IdleWhenUntracked s.drain
    unfold drain
    simp only []
    split
    next => exact settle_idle _
    next => exact settle_idle _
  | drainTimeout => exact h
  | resume => exact h
  | dispatch now =>
    show IdleWhenUntracked (s.dispatch now)
    unfold dispatch
    split <;> exact h
  | taskStart id =>
    show IdleWhenUntracked (s.taskStart id)
    unfold taskStart
    split
    next => exact h
    next =>
      split
      next => exact h
      next => split <;> exact h
      next => exact h
  | taskEnd id failed => exact taskEnd_idle h id failed
  | taskCallbacks id =>
    show IdleWhenUntracked (s.taskCallbacks id)
    unfold taskCallbacks
    split
    next => exact h
    next => split <;> exact h

/-- Taking the last tracked request out of the queue leaves the event unset. -/
theorem not_idle_of_cancelled (hinv : CoordinatorInv s) {a : Action α}
    (hok : ¬ leavesTracked s a) : ¬ IdleWhenUntracked (step s a) := by
  cases a with
  | cancel r =>
    simp only [leavesTracked, Classical.not_imp, not_exists, not_and, not_not] at hok
    obtain ⟨hq, honly⟩ := hok
    have hr : r ∈ s.tracked := (hinv.tracked r).mpr (Or.inl hq)
    obtain ⟨hidle, htracked⟩ := cancel_effect s hr
    have hbusy : s.idle = false := by
      apply hinv.busy
      intro hempty
      rw [tracked_eq_nil.mpr hempty] at hr
      exact absurd hr (by simp)
    have hnone : (s.cancel r).2.tracked = [] := by
      rw [List.eq_nil_iff_forall_not_mem]
      intro r' hr'
      obtain ⟨hin, hne⟩ := (htracked r').mp hr'
      exact hne hq (honly r' hin)
    intro h
    have hset : (s.cancel r).2.idle = true := h (tracked_eq_nil.mp hnone)
    rw [hidle, hbusy] at hset
    exact absurd hset (by simp)
  | _ => exact absurd trivial hok

/-- With the event set when nothing is tracked and every active request owned by a
task, no drain waits for nothing. -/
theorem released_of_owned (hinv : CoordinatorInv s) (howned : Owned s)
    (hidle : IdleWhenUntracked s) : Released s := by
  intro hqueued hdone
  apply hinv.released
  apply hidle
  rw [← tracked_eq_nil, List.eq_nil_iff_forall_not_mem]
  intro r hr
  rcases (hinv.tracked r).mp hr with hq | ha
  · rw [hqueued] at hq
    exact absurd hq (by simp)
  · obtain ⟨t, ht, -, hun⟩ := howned r ha
    rw [hdone t ht] at hun
    exact absurd hun (by simp)

theorem idle_always_iff (starvationSeconds : Int) (as : List (Action α)) :
    (Always step IdleWhenUntracked (CoordinatorRuntime.new α starvationSeconds) as ↔
        Along step leavesTracked (CoordinatorRuntime.new α starvationSeconds) as) ∧
      (Along step (fun s a => leavesTracked s a ∧ startsUncancelled s a)
          (CoordinatorRuntime.new α starvationSeconds) as →
        Always step Released (CoordinatorRuntime.new α starvationSeconds) as) := by
  have hstart := @coordinatorInv_new α starvationSeconds
  have hidle : IdleWhenUntracked (CoordinatorRuntime.new α starvationSeconds) := fun _ => rfl
  constructor
  · refine always_iff_along (fun s => CoordinatorInv s ∧ IdleWhenUntracked s) ?_ ?_ ?_
      ⟨hstart, hidle⟩
    · exact fun s h => h.2
    · exact fun s a hok h => ⟨step_inv h.1 a, step_idle h.2 hok⟩
    · exact fun s a hok h => not_idle_of_cancelled h.1 hok
  · intro hok
    refine always_of_along (fun s => CoordinatorInv s ∧ Owned s ∧ IdleWhenUntracked s) ?_ ?_ hok
      ⟨hstart, ?_, hidle⟩
    · exact fun s h => released_of_owned h.1 h.2.1 h.2.2
    · exact fun s a hok h => ⟨step_inv h.1 a, step_owned h.1 h.2.1 hok.2, step_idle h.2.2 hok.1⟩
    · simp [Owned, CoordinatorRuntime.new, PriorityScheduler.new]

/-- A request is submitted, a drain starts to wait, the request is cancelled in the
queue: nothing is tracked, the event is unset and the drain waits. -/
theorem idle_fails :
    ¬ IdleWhenUntracked (run step (CoordinatorRuntime.new Unit 60)
        [.submit "a" () .interactive 0, .drain, .cancel "a"]) ∧
      ¬ Released (run step (CoordinatorRuntime.new Unit 60)
        [.submit "a" () .interactive 0, .drain, .cancel "a"]) := by
  unfold IdleWhenUntracked Released
  decide +kernel

end LocalRag.Runtime
