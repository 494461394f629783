import LocalRag.Runtime.Coordinator

/-!
# What stays tracked — requests, their tasks and the idle event

The five views of a request, `_futures` or `_streams`, `_cancellations`, the
scheduler's `_entries` or `_active`, and the execution task, are kept in step by
four coroutines. `CoordinatorInv` is what holds of them in every run: the keys agree,
an unfinished task's request is active, and no two unfinished tasks have one
request.

Two facts do not hold in every run.

- A request that is active has an unfinished task (`Owned`). It fails exactly
  when a task takes its first step with a cancellation pending: the task ends
  without its `finally`, so nobody takes the request off the books
  (`owned_always_iff`).
- The idle event is set whenever nothing is tracked. It fails exactly when the
  only tracked request is cancelled while it is queued: `cancel` takes it off the
  books and does not set the event (`idle_always_iff`).
-/

namespace LocalRag.Runtime

open LocalRag.Core CoordinatorRuntime

variable {α : Type} {s : CoordinatorRuntime α}

/-- What every step keeps. -/
structure CoordinatorInv (s : CoordinatorRuntime α) : Prop where
  scheduler : SchedulerInv s.scheduler
  tracked : ∀ r, r ∈ s.tracked ↔ r ∈ s.scheduler.queued ∨ r ∈ s.scheduler.active
  served : ∀ r, r ∈ s.tracked ↔ r ∈ s.futures ∨ r ∈ s.streams
  apart : ∀ r ∈ s.futures, r ∉ s.streams
  ids : s.tasks.map (·.id) = List.range s.tasks.length
  active : ∀ t ∈ s.tasks, t.unfinished = true → t.requestId ∈ s.scheduler.active
  single : ∀ t ∈ s.tasks, ∀ u ∈ s.tasks, t.unfinished = true → u.unfinished = true →
    t.requestId = u.requestId → t.id = u.id
  body : ∀ t ∈ s.tasks, ∀ streaming, t.state = .running streaming →
    (t.requestId ∈ s.streams ↔ streaming = true)
  busy : s.cancellations ≠ [] → s.idle = false
  released : s.idle = true → s.waitingDrains = 0

theorem coordinatorInv_new (starvationSeconds : Int) :
    CoordinatorInv (CoordinatorRuntime.new α starvationSeconds) where
  scheduler := schedulerInv_new starvationSeconds
  tracked := by simp [CoordinatorRuntime.new, tracked, PriorityScheduler.new,
    PriorityScheduler.queued]
  served := by simp [CoordinatorRuntime.new, tracked]
  apart := by simp [CoordinatorRuntime.new]
  ids := rfl
  active := by simp [CoordinatorRuntime.new]
  single := by simp [CoordinatorRuntime.new]
  body := by simp [CoordinatorRuntime.new]
  busy := by simp [CoordinatorRuntime.new]
  released _ := rfl

/-! ## Tasks -/

variable {t : Task}

theorem CoordinatorInv.task_eq (h : CoordinatorInv s) {u : Task} (ht : t ∈ s.tasks)
    (hu : u ∈ s.tasks) (hid : t.id = u.id) : t = u := by
  have hnodup : (s.tasks.map (·.id)).Nodup := by
    rw [h.ids]
    exact List.nodup_range
  exact List.inj_on_of_nodup_map hnodup ht hu hid

theorem CoordinatorInv.find_task (h : CoordinatorInv s) (ht : t ∈ s.tasks) :
    s.tasks.find? (·.id = t.id) = some t := by
  cases hf : s.tasks.find? (·.id = t.id) with
  | none =>
    have hno := List.find?_eq_none.mp hf t ht
    exact absurd (decide_eq_true rfl) hno
  | some u =>
    have hid : u.id = t.id := by simpa using List.find?_some hf
    rw [h.task_eq (List.mem_of_find?_eq_some hf) ht hid]

/-- A change of the tasks alone, which starts none again and keeps what their bodies
are. -/
theorem CoordinatorInv.mapTasks (h : CoordinatorInv s) {f : Task → Task}
    (hid : ∀ t, (f t).id = t.id) (hreq : ∀ t, (f t).requestId = t.requestId)
    (hunfinished : ∀ t ∈ s.tasks, (f t).unfinished = true → t.unfinished = true)
    (hbody : ∀ t ∈ s.tasks, ∀ streaming, (f t).state = .running streaming →
      (t.requestId ∈ s.streams ↔ streaming = true)) :
    CoordinatorInv { s with tasks := s.tasks.map f } := by
  have hmem : ∀ u, u ∈ s.tasks.map f → ∃ t ∈ s.tasks, f t = u := fun u hu => List.mem_map.mp hu
  refine ⟨h.scheduler, h.tracked, h.served, h.apart, ?_, ?_, ?_, ?_, h.busy, h.released⟩
  · show (s.tasks.map f).map (·.id) = List.range (s.tasks.map f).length
    rw [List.map_map, List.length_map, ← h.ids]
    exact List.map_congr_left fun t _ => hid t
  · intro u hu hun
    obtain ⟨t, ht, rfl⟩ := hmem u hu
    rw [hreq]
    exact h.active t ht (hunfinished t ht hun)
  · intro u hu v hv hun hvn heq
    obtain ⟨t, ht, rfl⟩ := hmem u hu
    obtain ⟨w, hw, rfl⟩ := hmem v hv
    rw [hid, hid]
    exact h.single t ht w hw (hunfinished t ht hun) (hunfinished w hw hvn)
      (by rw [← hreq t, ← hreq w]; exact heq)
  · intro u hu streaming hstate
    obtain ⟨t, ht, rfl⟩ := hmem u hu
    show (f t).requestId ∈ s.streams ↔ _
    rw [hreq]
    exact hbody t ht streaming hstate

@[simp] theorem setState_id (id : Nat) (state : TaskState) (t : Task) :
    (setState id state t).id = t.id := by
  unfold setState
  split <;> rfl

@[simp] theorem setState_requestId (id : Nat) (state : TaskState) (t : Task) :
    (setState id state t).requestId = t.requestId := by
  unfold setState
  split <;> rfl

variable {id : Nat}

theorem setState_other {state : TaskState} (h : t.id ≠ id) :
    setState id state t = t := if_neg h

theorem setState_self {state : TaskState} (h : t.id = id) :
    (setState id state t).state = state := by
  unfold setState
  rw [if_pos h]

/-- Ending a task. -/
theorem CoordinatorInv.setDone (h : CoordinatorInv s) (id : Nat) (calledBack : Bool) :
    CoordinatorInv (s.setTask id (.done calledBack)) := by
  refine h.mapTasks (setState_id _ _) (setState_requestId _ _) ?_ ?_
  · intro t _ hun
    by_cases hid : t.id = id
    · unfold Task.unfinished at hun
      rw [setState_self hid] at hun
      exact absurd hun (by simp)
    · rwa [setState_other hid] at hun
  · intro t ht streaming hstate
    by_cases hid : t.id = id
    · rw [setState_self hid] at hstate
      exact absurd hstate (by simp)
    · rw [setState_other hid] at hstate
      exact h.body t ht streaming hstate

/-! ## `settle` and the dictionaries -/

theorem settle_inv (h : CoordinatorInv s) : CoordinatorInv s.settle := by
  unfold settle
  split
  next hempty =>
    exact ⟨h.scheduler, h.tracked, h.served, h.apart, h.ids, h.active, h.single, h.body,
      fun hne => absurd hempty hne, fun _ => rfl⟩
  next => exact h

/-- Ending a task and setting the event are independent. -/
theorem settle_setTask (s : CoordinatorRuntime α) (id : Nat) (state : TaskState) :
    s.settle.setTask id state = (s.setTask id state).settle := by
  by_cases hempty : s.cancellations = []
  · have hempty' : (s.setTask id state).cancellations = [] := hempty
    unfold settle
    rw [if_pos hempty, if_pos hempty']
    rfl
  · have hne : (s.setTask id state).cancellations ≠ [] := hempty
    unfold settle
    rw [if_neg hempty, if_neg hne]

theorem mem_tracked_filter {r r' : RequestId} :
    r' ∈ (s.cancellations.filter (·.1 ≠ r)).map (·.1) ↔ r' ∈ s.tracked ∧ r' ≠ r := by
  unfold CoordinatorRuntime.tracked
  simp only [List.mem_map, List.mem_filter, decide_eq_true_eq]
  constructor
  · rintro ⟨c, ⟨hc, hne⟩, rfl⟩
    exact ⟨⟨c, hc, rfl⟩, hne⟩
  · rintro ⟨⟨c, hc, rfl⟩, hne⟩
    exact ⟨c, ⟨hc, hne⟩, rfl⟩

/-! ## The steps -/

theorem accept_inv (h : CoordinatorInv s) (streaming : Bool) (r : RequestId) (payload : α)
    (priority : Priority) (now : Int) :
    CoordinatorInv (s.accept streaming r payload priority now).2 := by
  unfold accept
  split
  next => exact h
  next hdraining =>
    split
    next => exact h
    next hnew =>
      have huntracked : r ∉ s.tracked := fun hin => hnew (Or.inr (Or.inr hin))
      have hfree : r ∉ s.futures ∧ r ∉ s.streams := by
        rw [h.served] at huntracked
        exact not_or.mp huntracked
      have hunknown : r ∉ s.scheduler.queued ∧ r ∉ s.scheduler.active := by
        rw [h.tracked] at huntracked
        exact not_or.mp huntracked
      simp only []
      split
      next scheduler henq =>
        obtain ⟨-, -, hq, ha, -, -⟩ := enqueue_ok henq
        have htr : ∀ r', r' ∈ (s.cancellations ++ [(r, false)]).map (·.1) ↔
            r' ∈ s.tracked ∨ r' = r := by
          intro r'
          rw [List.map_append, List.mem_append]
          simp [CoordinatorRuntime.tracked]
        refine ⟨enqueue_inv h.scheduler henq, ?_, ?_, ?_, h.ids, ?_, h.single, ?_, fun _ => rfl,
          fun hidle => absurd hidle (by simp)⟩
        · intro r'
          show r' ∈ (s.cancellations ++ [(r, false)]).map (·.1) ↔
            r' ∈ scheduler.queued ∨ r' ∈ scheduler.active
          rw [htr, hq, ha, h.tracked, List.mem_append, List.mem_singleton]
          tauto
        · intro r'
          show r' ∈ (s.cancellations ++ [(r, false)]).map (·.1) ↔
            r' ∈ (if streaming = true then s.futures else s.futures ++ [r]) ∨
              r' ∈ (if streaming = true then s.streams ++ [r] else s.streams)
          rw [htr, h.served]
          cases streaming <;> simp <;> tauto
        · intro r' hr'
          show r' ∉ (if streaming = true then s.streams ++ [r] else s.streams)
          cases streaming with
          | true =>
            rw [if_pos rfl, List.mem_append, List.mem_singleton]
            rintro (hin | rfl)
            · exact h.apart r' hr' hin
            · exact hfree.1 hr'
          | false =>
            rcases List.mem_append.mp hr' with hr' | hr'
            · exact h.apart r' hr'
            · rw [List.mem_singleton.mp hr']
              exact hfree.2
        · intro t ht hun
          show t.requestId ∈ scheduler.active
          rw [ha]
          exact h.active t ht hun
        · intro t ht running hstate
          -- a running task's request is active, so it is not the new one
          have hne : t.requestId ≠ r := by
            rintro rfl
            exact hunknown.2 (h.active t ht (by simp [Task.unfinished, hstate]))
          show t.requestId ∈ (if streaming = true then s.streams ++ [r] else s.streams) ↔ _
          rw [← h.body t ht running hstate]
          cases streaming <;> simp [hne]
      next e henq =>
        -- the scheduler knows no request that is not tracked
        unfold PriorityScheduler.enqueue at henq
        rw [if_neg (by simp [hunknown])] at henq
        exact absurd henq (by simp)

/-- Taking a queued request off the books. -/
theorem untrack_inv (h : CoordinatorInv s) {r : RequestId} (hr : r ∈ s.scheduler.queued)
    {scheduler : PriorityScheduler α} (hs : SchedulerInv scheduler)
    (hq : ∀ r', r' ∈ scheduler.queued ↔ r' ∈ s.scheduler.queued ∧ r' ≠ r)
    (ha : scheduler.active = s.scheduler.active) :
    CoordinatorInv ({ s with scheduler := scheduler }.untrack r) := by
  have hinactive := h.scheduler.apart r hr
  refine ⟨hs, ?_, ?_, ?_, h.ids, ?_, h.single, ?_, ?_, h.released⟩
  · intro r'
    show r' ∈ (s.cancellations.filter (·.1 ≠ r)).map (·.1) ↔
      r' ∈ scheduler.queued ∨ r' ∈ scheduler.active
    rw [mem_tracked_filter, h.tracked, hq, ha]
    constructor
    · rintro ⟨hin | hin, hne⟩
      · exact Or.inl ⟨hin, hne⟩
      · exact Or.inr hin
    · rintro (⟨hin, hne⟩ | hin)
      · exact ⟨Or.inl hin, hne⟩
      · refine ⟨Or.inr hin, ?_⟩
        rintro rfl
        exact hinactive hin
  · intro r'
    show r' ∈ (s.cancellations.filter (·.1 ≠ r)).map (·.1) ↔
      r' ∈ s.futures.filter (· ≠ r) ∨ r' ∈ s.streams.filter (· ≠ r)
    rw [mem_tracked_filter, h.served, List.mem_filter, List.mem_filter, decide_eq_true_eq]
    tauto
  · intro r' hr' hin
    exact h.apart r' (List.mem_filter.mp hr').1 (List.mem_filter.mp hin).1
  · intro t ht hun
    show t.requestId ∈ scheduler.active
    rw [ha]
    exact h.active t ht hun
  · intro t ht streaming hstate
    have hne : t.requestId ≠ r := by
      rintro rfl
      exact hinactive (h.active t ht (by simp [Task.unfinished, hstate]))
    show t.requestId ∈ s.streams.filter (· ≠ r) ↔ _
    rw [← h.body t ht streaming hstate, List.mem_filter]
    simp [hne]
  · intro hne
    show s.idle = false
    apply h.busy
    rintro hempty
    exact hne (by show s.cancellations.filter _ = []; rw [hempty]; rfl)

/-- Marking the tasks of one id. -/
theorem cancelTask_inv (h : CoordinatorInv s) (id : Nat) :
    CoordinatorInv { s with tasks := s.tasks.map (cancelTask id) } := by
  have hcases : ∀ t : Task, cancelTask id t = t ∨
      ∃ m, t.state = .created m ∧ cancelTask id t = { t with state := .created true } := by
    intro t
    unfold cancelTask
    split
    next m hstate =>
      split
      · exact Or.inr ⟨m, hstate, rfl⟩
      · exact Or.inl rfl
    next => exact Or.inl rfl
  refine h.mapTasks ?_ ?_ ?_ ?_
  · intro t
    rcases hcases t with heq | ⟨m, -, heq⟩ <;> rw [heq]
  · intro t
    rcases hcases t with heq | ⟨m, -, heq⟩ <;> rw [heq]
  · intro t _ hun
    rcases hcases t with heq | ⟨m, hm, -⟩
    · rwa [heq] at hun
    · simp [Task.unfinished, hm]
  · intro t ht streaming hstate
    rcases hcases t with heq | ⟨m, -, heq⟩
    · rw [heq] at hstate
      exact h.body t ht streaming hstate
    · rw [heq] at hstate
      exact absurd hstate (by simp)

/-- Setting an event changes no key. -/
theorem setEvent_keys (s : CoordinatorRuntime α) (r : RequestId) :
    (s.cancellations.map fun (c : RequestId × Bool) =>
      if c.1 = r then (c.1, true) else c).map (·.1) = s.tracked := by
  unfold CoordinatorRuntime.tracked
  rw [List.map_map]
  refine List.map_congr_left fun c _ => ?_
  simp only [Function.comp]
  split <;> rfl

theorem setEvent_inv (h : CoordinatorInv s) (r : RequestId) :
    CoordinatorInv { s with
      cancellations := s.cancellations.map fun (c : RequestId × Bool) =>
        if c.1 = r then (c.1, true) else c } := by
  refine ⟨h.scheduler, ?_, ?_, h.apart, h.ids, h.active, h.single, h.body, ?_, h.released⟩
  · intro r'
    rw [← h.tracked, ← setEvent_keys s r]
    rfl
  · intro r'
    rw [← h.served, ← setEvent_keys s r]
    rfl
  · intro hne
    refine h.busy fun hempty => hne ?_
    show List.map _ s.cancellations = []
    rw [hempty]
    rfl

theorem withdraw_inv (h : CoordinatorInv s) (r : RequestId) : CoordinatorInv (s.withdraw r) := by
  have hevent := setEvent_inv h r
  obtain ⟨hqueued, ha, hq⟩ := cancel_spec s.scheduler r
  have hsched := cancel_inv h.scheduler r
  unfold withdraw
  simp only []
  split
  next hwas => exact untrack_inv hevent (hqueued.mp hwas) hsched hq ha
  next hnot =>
    have hsame : ∀ r', r' ∈ (s.scheduler.cancel r).2.queued ↔ r' ∈ s.scheduler.queued := by
      intro r'
      rw [hq]
      constructor
      · exact fun hin => hin.1
      · intro hin
        refine ⟨hin, ?_⟩
        rintro rfl
        exact hnot (hqueued.mpr hin)
    refine ⟨hsched, ?_, hevent.served, hevent.apart, hevent.ids, ?_, hevent.single,
      hevent.body, hevent.busy, hevent.released⟩
    · intro r'
      show _ ↔ r' ∈ (s.scheduler.cancel r).2.queued ∨ r' ∈ (s.scheduler.cancel r).2.active
      rw [hsame, ha]
      exact hevent.tracked r'
    · intro t ht hun
      show t.requestId ∈ (s.scheduler.cancel r).2.active
      rw [ha]
      exact hevent.active t ht hun

theorem cancel_coordinator_inv (h : CoordinatorInv s) (r : RequestId) :
    CoordinatorInv (s.cancel r).2 := by
  unfold CoordinatorRuntime.cancel
  split
  next => exact h
  next =>
    simp only []
    split
    next id _ => exact cancelTask_inv (withdraw_inv h r) id
    next => exact withdraw_inv h r

theorem drain_inv (h : CoordinatorInv s) : CoordinatorInv s.drain := by
  have hdraining : CoordinatorInv { s with draining := true } :=
    ⟨h.scheduler, h.tracked, h.served, h.apart, h.ids, h.active, h.single, h.body, h.busy,
      h.released⟩
  have hsettled := settle_inv hdraining
  unfold drain
  simp only []
  split
  next => exact hsettled
  next hidle =>
    exact ⟨hsettled.scheduler, hsettled.tracked, hsettled.served, hsettled.apart, hsettled.ids,
      hsettled.active, hsettled.single, hsettled.body, hsettled.busy,
      fun hidle' => absurd hidle' hidle⟩

theorem drainTimeout_inv (h : CoordinatorInv s) : CoordinatorInv s.drainTimeout := by
  refine ⟨h.scheduler, h.tracked, h.served, h.apart, h.ids, h.active, h.single, h.body, h.busy, ?_⟩
  intro hidle
  have hzero : s.waitingDrains = 0 := h.released hidle
  show s.waitingDrains - 1 = 0
  omega

theorem dispatch_inv (h : CoordinatorInv s) (now : Int) : CoordinatorInv (s.dispatch now) := by
  obtain ⟨hsched, hwas⟩ := next_inv h.scheduler now
  obtain ⟨dropped, -, -, hspec⟩ := next_spec s.scheduler now
  unfold dispatch
  split
  next scheduler heq =>
    rw [heq] at hsched hspec
    obtain ⟨-, he, ha⟩ := hspec
    refine ⟨hsched, ?_, h.served, h.apart, h.ids, ?_, h.single, h.body, h.busy, h.released⟩
    · intro r
      show _ ↔ r ∈ scheduler.entries.map (·.1) ∨ r ∈ scheduler.active
      rw [he, ha]
      exact h.tracked r
    · intro t ht hun
      show t.requestId ∈ scheduler.active
      rw [ha]
      exact h.active t ht hun
  next item scheduler heq =>
    rw [heq] at hsched hspec
    have hqueued : item.requestId ∈ s.scheduler.queued := hwas item (by rw [heq])
    obtain ⟨entry, -, -, -, he, ha⟩ := hspec
    have hinactive := h.scheduler.apart _ hqueued
    have hq : ∀ r, r ∈ scheduler.queued ↔ r ∈ s.scheduler.queued ∧ r ≠ item.requestId := by
      intro r
      show r ∈ scheduler.entries.map (·.1) ↔ r ∈ s.scheduler.entries.map (·.1) ∧ _
      rw [he]
      simp only [List.mem_map, List.mem_filter, decide_eq_true_eq]
      constructor
      · rintro ⟨k, ⟨hk, hne⟩, rfl⟩
        exact ⟨⟨k, hk, rfl⟩, hne⟩
      · rintro ⟨⟨k, hk, rfl⟩, hne⟩
        exact ⟨k, ⟨hk, hne⟩, rfl⟩
    refine ⟨hsched, ?_, h.served, h.apart, ?_, ?_, ?_, ?_, h.busy, h.released⟩
    · intro r
      show r ∈ s.tracked ↔ r ∈ scheduler.queued ∨ r ∈ scheduler.active
      rw [hq, ha, h.tracked, List.mem_cons]
      by_cases hr : r = item.requestId
      · subst hr
        simp [hqueued]
      · simp [hr]
    · show (s.tasks ++ [(⟨s.tasks.length, item.requestId, .created false⟩ : Task)]).map (·.id)
        = List.range (s.tasks ++ [(_ : Task)]).length
      rw [List.map_append, h.ids, List.length_append, List.length_singleton, List.range_succ]
      rfl
    · intro t ht hun
      show t.requestId ∈ scheduler.active
      rw [ha]
      rcases List.mem_append.mp ht with ht | ht
      · exact List.mem_cons_of_mem _ (h.active t ht hun)
      · rw [List.mem_singleton.mp ht]
        exact List.mem_cons_self
    · -- the new task's request was not active, so no other unfinished task has it
      have hother : ∀ t ∈ s.tasks, t.unfinished = true → t.requestId ≠ item.requestId := by
        intro t ht hun heq
        exact hinactive (heq ▸ h.active t ht hun)
      intro t ht u hu hun hun' hreq
      rcases List.mem_append.mp ht with ht | ht
      · rcases List.mem_append.mp hu with hu | hu
        · exact h.single t ht u hu hun hun' hreq
        · rw [List.mem_singleton.mp hu] at hreq
          exact absurd hreq (hother t ht hun)
      · rcases List.mem_append.mp hu with hu | hu
        · rw [List.mem_singleton.mp ht] at hreq
          exact absurd hreq.symm (hother u hu hun')
        · rw [List.mem_singleton.mp ht, List.mem_singleton.mp hu]
    · intro t ht streaming hstate
      rcases List.mem_append.mp ht with ht | ht
      · exact h.body t ht streaming hstate
      · rw [List.mem_singleton.mp ht] at hstate
        exact absurd hstate (by simp)

theorem taskStart_inv (h : CoordinatorInv s) (id : Nat) : CoordinatorInv (s.taskStart id) := by
  unfold taskStart
  split
  next => exact h
  next t hfind =>
    have ht := List.mem_of_find?_eq_some hfind
    have hid : t.id = id := by simpa using List.find?_some hfind
    split
    next => exact h.setDone id false
    next hstate =>
      split
      next =>
        refine h.mapTasks (setState_id _ _) (setState_requestId _ _) ?_ ?_
        · intro u hu hun
          by_cases hu' : u.id = id
          · rw [h.task_eq hu ht (hu'.trans hid.symm)]
            simp [Task.unfinished, hstate]
          · rwa [setState_other hu'] at hun
        · intro u hu streaming hstate'
          by_cases hu' : u.id = id
          · rw [setState_self hu', TaskState.running.injEq] at hstate'
            rw [h.task_eq hu ht (hu'.trans hid.symm), ← hstate']
            simp
          · rw [setState_other hu'] at hstate'
            exact h.body u hu streaming hstate'
      next => exact h.setDone id false
    next => exact h

/-- The `finally` of a body: the request is off every book. -/
theorem taskEnd_inv (h : CoordinatorInv s) (id : Nat) (failed : Bool) :
    CoordinatorInv (s.taskEnd id failed) := by
  unfold taskEnd
  split
  next => exact h
  next t hfind =>
    have ht := List.mem_of_find?_eq_some hfind
    have hid : t.id = id := by simpa using List.find?_some hfind
    split
    next streaming hstate =>
      split
      next => exact h.setDone id false
      next scheduler hfinish =>
        obtain ⟨hactive, ha, he⟩ := finish_ok hfinish
        have hunqueued : t.requestId ∉ s.scheduler.queued := by
          intro hq
          exact h.scheduler.apart _ hq hactive
        have hbody := h.body t ht streaming hstate
        -- first the task ends, then its request goes: no unfinished task has it any more
        have hdone := h.setDone id false
        have hgone : ∀ u ∈ (s.setTask id (.done false)).tasks, u.unfinished = true →
            u.requestId ≠ t.requestId := by
          intro u hu hun hreq
          obtain ⟨v, hv, rfl⟩ := List.mem_map.mp hu
          by_cases hv' : v.id = id
          · unfold Task.unfinished at hun
            rw [setState_self hv'] at hun
            exact absurd hun (by simp)
          · rw [setState_other hv'] at hun hreq
            exact hv' ((h.single v hv t ht hun (by simp [Task.unfinished, hstate]) hreq).trans hid)
        have hfutures : ∀ r, r ∈ (if streaming = true then s.futures
            else s.futures.filter (· ≠ t.requestId)) ↔ r ∈ s.futures ∧ r ≠ t.requestId := by
          intro r
          cases streaming with
          | true =>
            rw [if_pos rfl]
            refine ⟨fun hin => ⟨hin, ?_⟩, fun hin => hin.1⟩
            rintro rfl
            exact h.apart _ hin (hbody.mpr rfl)
          | false =>
            rw [if_neg (by simp), List.mem_filter, decide_eq_true_eq]
        have hstreams : ∀ r, r ∈ (if streaming = true then s.streams.filter (· ≠ t.requestId)
            else s.streams) ↔ r ∈ s.streams ∧ r ≠ t.requestId := by
          intro r
          cases streaming with
          | true => rw [if_pos rfl, List.mem_filter, decide_eq_true_eq]
          | false =>
            rw [if_neg (by simp)]
            refine ⟨fun hin => ⟨hin, ?_⟩, fun hin => hin.1⟩
            rintro rfl
            exact absurd (hbody.mp hin) (by simp)
        have hoff : CoordinatorInv ({ s.setTask id (.done false) with
            scheduler := scheduler
            futures := if streaming then s.futures else s.futures.filter (· ≠ t.requestId)
            streams := if streaming then s.streams.filter (· ≠ t.requestId) else s.streams
            cancellations := s.cancellations.filter (·.1 ≠ t.requestId) }
            : CoordinatorRuntime α) := by
          refine ⟨finish_inv h.scheduler hfinish, ?_, ?_, ?_, hdone.ids, ?_, hdone.single, ?_, ?_,
            h.released⟩
          · intro r
            show r ∈ (s.cancellations.filter (·.1 ≠ t.requestId)).map (·.1) ↔
              r ∈ scheduler.entries.map (·.1) ∨ r ∈ scheduler.active
            rw [mem_tracked_filter, h.tracked, he, ha, List.mem_filter, decide_eq_true_eq]
            constructor
            · rintro ⟨hin | hin, hne⟩
              · exact Or.inl hin
              · exact Or.inr ⟨hin, hne⟩
            · rintro (hin | ⟨hin, hne⟩)
              · refine ⟨Or.inl hin, ?_⟩
                rintro rfl
                exact hunqueued hin
              · exact ⟨Or.inr hin, hne⟩
          · intro r
            show r ∈ (s.cancellations.filter (·.1 ≠ t.requestId)).map (·.1) ↔ _ ∨ _
            rw [mem_tracked_filter, h.served, hfutures, hstreams]
            tauto
          · intro r hr hin
            exact h.apart r ((hfutures r).mp hr).1 ((hstreams r).mp hin).1
          · intro u hu hun
            show u.requestId ∈ scheduler.active
            rw [ha, List.mem_filter, decide_eq_true_eq]
            exact ⟨hdone.active u hu hun, hgone u hu hun⟩
          · intro u hu running hrunning
            show u.requestId ∈ (if streaming = true then _ else _) ↔ _
            rw [hstreams, ← hdone.body u hu running hrunning]
            have hne := hgone u hu (by simp [Task.unfinished, hrunning])
            exact ⟨fun hin => hin.1, fun hin => ⟨hin, hne⟩⟩
          · intro hne
            refine h.busy fun hempty => hne ?_
            show s.cancellations.filter _ = []
            rw [hempty]
            rfl
        rw [settle_setTask]
        exact settle_inv hoff
    next => exact h

theorem taskCallbacks_inv (h : CoordinatorInv s) (id : Nat) :
    CoordinatorInv (s.taskCallbacks id) := by
  unfold taskCallbacks
  split
  next => exact h
  next t hfind =>
    split
    next =>
      have hdone := h.setDone id true
      exact ⟨hdone.scheduler, hdone.tracked, hdone.served, hdone.apart, hdone.ids, hdone.active,
        hdone.single, hdone.body, hdone.busy, hdone.released⟩
    next => exact h

theorem step_inv (h : CoordinatorInv s) (a : Action α) : CoordinatorInv (step s a) := by
  cases a with
  | submit r payload priority now => exact accept_inv h false r payload priority now
  | stream r payload priority now => exact accept_inv h true r payload priority now
  | cancel r => exact cancel_coordinator_inv h r
  | drain => exact drain_inv h
  | drainTimeout => exact drainTimeout_inv h
  | resume =>
    exact ⟨h.scheduler, h.tracked, h.served, h.apart, h.ids, h.active, h.single, h.body, h.busy,
      h.released⟩
  | dispatch now => exact dispatch_inv h now
  | taskStart id => exact taskStart_inv h id
  | taskEnd id failed => exact taskEnd_inv h id failed
  | taskCallbacks id => exact taskCallbacks_inv h id

/-! ## Requests and their tasks -/

/-- A tracked request is queued or has an unfinished task, and so has every active
one. -/
def Accounted (s : CoordinatorRuntime α) : Prop :=
  (∀ r ∈ s.tracked, r ∈ s.scheduler.queued ∨
      ∃ t ∈ s.tasks, t.requestId = r ∧ t.unfinished = true) ∧
    ∀ r ∈ s.scheduler.active, ∃ t ∈ s.tasks, t.requestId = r ∧ t.unfinished = true

instance decidableAccounted (s : CoordinatorRuntime α) : Decidable (Accounted s) :=
  inferInstanceAs (Decidable (_ ∧ _))

/-- The step is not the first of a task that a cancellation has already reached. -/
def startsUncancelled (s : CoordinatorRuntime α) : Action α → Prop
  | .taskStart id => ∀ t ∈ s.tasks, t.id = id → t.state ≠ .created true
  | _ => True

/-- Every active request has an unfinished task. -/
def Owned (s : CoordinatorRuntime α) : Prop :=
  ∀ r ∈ s.scheduler.active, ∃ t ∈ s.tasks, t.requestId = r ∧ t.unfinished = true

theorem accounted_of_owned (h : CoordinatorInv s) (ho : Owned s) : Accounted s := by
  refine ⟨?_, ho⟩
  intro r hr
  rcases (h.tracked r).mp hr with hq | ha
  · exact Or.inl hq
  · exact Or.inr (ho r ha)

/-- What a step must leave: the tasks of the requests that stay active. -/
theorem Owned.mono {s' : CoordinatorRuntime α} (h : Owned s)
    (hactive : ∀ r ∈ s'.scheduler.active, r ∈ s.scheduler.active)
    (htasks : ∀ t ∈ s.tasks, t.unfinished = true → t.requestId ∈ s'.scheduler.active →
      ∃ t' ∈ s'.tasks, t'.requestId = t.requestId ∧ t'.unfinished = true) : Owned s' := by
  intro r hr
  obtain ⟨t, ht, rfl, hun⟩ := h r (hactive r hr)
  exact htasks t ht hun hr

/-- A step that changes neither the active requests nor the tasks. -/
theorem Owned.same {s' : CoordinatorRuntime α} (h : Owned s)
    (hactive : s'.scheduler.active = s.scheduler.active) (htasks : s'.tasks = s.tasks) :
    Owned s' := by
  intro r hr
  rw [htasks]
  exact h r (hactive ▸ hr)

@[simp] theorem settle_scheduler (s : CoordinatorRuntime α) : s.settle.scheduler = s.scheduler := by
  unfold settle
  split <;> rfl

@[simp] theorem settle_tasks (s : CoordinatorRuntime α) : s.settle.tasks = s.tasks := by
  unfold settle
  split <;> rfl

theorem accept_owned (h : Owned s) (streaming : Bool) (r : RequestId) (payload : α)
    (priority : Priority) (now : Int) : Owned (s.accept streaming r payload priority now).2 := by
  unfold accept
  split
  next => exact h
  next =>
    split
    next => exact h
    next =>
      simp only []
      split
      next scheduler henq =>
        obtain ⟨-, -, -, ha, -, -⟩ := enqueue_ok henq
        exact h.same ha rfl
      next =>
        refine h.same ?_ ?_
        · rw [settle_scheduler]
          rfl
        · rw [settle_tasks]
          rfl

theorem cancelTask_unfinished (id : Nat) (t : Task) :
    (cancelTask id t).unfinished = t.unfinished ∧ (cancelTask id t).requestId = t.requestId := by
  unfold cancelTask
  split
  next m hstate =>
    split
    · exact ⟨by simp [Task.unfinished, hstate], rfl⟩
    · exact ⟨rfl, rfl⟩
  next => exact ⟨rfl, rfl⟩

theorem withdraw_owned (h : Owned s) (r : RequestId) : Owned (s.withdraw r) := by
  obtain ⟨-, ha, -⟩ := cancel_spec s.scheduler r
  unfold withdraw
  simp only []
  split
  next => exact h.same ha rfl
  next => exact h.same ha rfl

theorem cancel_owned (h : Owned s) (r : RequestId) : Owned (s.cancel r).2 := by
  unfold CoordinatorRuntime.cancel
  split
  next => exact h
  next =>
    simp only []
    split
    next id _ =>
      refine (withdraw_owned h r).mono (fun _ hr => hr) ?_
      intro t ht hun _
      obtain ⟨hkept, hreq⟩ := cancelTask_unfinished id t
      exact ⟨cancelTask id t, List.mem_map.mpr ⟨t, ht, rfl⟩, hreq, hkept.trans hun⟩
    next => exact withdraw_owned h r

theorem dispatch_owned (h : Owned s) (now : Int) : Owned (s.dispatch now) := by
  obtain ⟨dropped, -, -, hspec⟩ := next_spec s.scheduler now
  unfold dispatch
  split
  next scheduler heq =>
    rw [heq] at hspec
    exact h.same hspec.2.2 rfl
  next item scheduler heq =>
    rw [heq] at hspec
    obtain ⟨entry, -, -, -, -, ha⟩ := hspec
    intro r hr
    rw [show ({ s with
        scheduler := scheduler
        tasks := s.tasks ++ [⟨s.tasks.length, item.requestId, .created false⟩]
        activeTasks := (item.requestId, s.tasks.length) ::
          s.activeTasks.filter (·.1 ≠ item.requestId) } : CoordinatorRuntime α).scheduler
      = scheduler from rfl, ha] at hr
    rcases List.mem_cons.mp hr with rfl | hr
    · exact ⟨⟨s.tasks.length, item.requestId, .created false⟩, by simp, rfl, rfl⟩
    · obtain ⟨t, ht, hreq, hun⟩ := h r hr
      exact ⟨t, List.mem_append.mpr (Or.inl ht), hreq, hun⟩

/-- Unless it was cancelled first, a task's first step takes it into its body. -/
theorem taskStart_owned (hinv : CoordinatorInv s) (h : Owned s)
    (hok : ∀ t ∈ s.tasks, t.id = id → t.state ≠ .created true) : Owned (s.taskStart id) := by
  unfold taskStart
  split
  next => exact h
  next t hfind =>
    have ht := List.mem_of_find?_eq_some hfind
    have hid : t.id = id := by simpa using List.find?_some hfind
    split
    next hstate => exact absurd hstate (hok t ht hid)
    next hstate =>
      have hun : t.unfinished = true := by simp [Task.unfinished, hstate]
      have htracked : t.requestId ∈ s.tracked :=
        (hinv.tracked _).mpr (Or.inr (hinv.active t ht hun))
      have henters : s.enters t.requestId = true := by
        have hserved := (hinv.served _).mp htracked
        simp only [enters, decide_eq_true_eq]
        exact ⟨hserved.symm, htracked⟩
      rw [if_pos henters]
      refine h.mono (fun _ hr => hr) ?_
      intro u hu hun' _
      refine ⟨setState id (.running (t.requestId ∈ s.streams)) u, List.mem_map.mpr ⟨u, hu, rfl⟩,
        setState_requestId _ _ _, ?_⟩
      by_cases hu' : u.id = id
      · unfold Task.unfinished
        rw [setState_self hu']
      · rwa [setState_other hu']
    next => exact h

theorem taskEnd_owned (hinv : CoordinatorInv s) (h : Owned s) (id : Nat) (failed : Bool) :
    Owned (s.taskEnd id failed) := by
  unfold taskEnd
  split
  next => exact h
  next t hfind =>
    have ht := List.mem_of_find?_eq_some hfind
    have hid : t.id = id := by simpa using List.find?_some hfind
    split
    next streaming hstate =>
      have hactive := hinv.active t ht (by simp [Task.unfinished, hstate])
      split
      next e herror =>
        obtain ⟨scheduler, hfinish⟩ := finish_of_active hactive failed
        rw [hfinish] at herror
        exact absurd herror (by simp)
      next scheduler hfinish =>
        obtain ⟨-, ha, -⟩ := finish_ok hfinish
        rw [settle_setTask]
        refine h.mono ?_ ?_
        · intro r hr
          rw [settle_scheduler] at hr
          have hr' : r ∈ scheduler.active := hr
          rw [ha] at hr'
          exact (List.mem_filter.mp hr').1
        · intro u hu hun hr
          rw [settle_scheduler] at hr
          have hr' : u.requestId ∈ scheduler.active := hr
          rw [ha, List.mem_filter, decide_eq_true_eq] at hr'
          -- the request stays active, so the task is not the one that ended
          have hu' : u.id ≠ id := by
            intro heq
            exact hr'.2 (congrArg Task.requestId (hinv.task_eq hu ht (heq.trans hid.symm)))
          rw [settle_tasks]
          exact ⟨u, List.mem_map.mpr ⟨u, hu, setState_other hu'⟩, rfl, hun⟩
    next => exact h

theorem taskCallbacks_owned (hinv : CoordinatorInv s) (h : Owned s) (id : Nat) :
    Owned (s.taskCallbacks id) := by
  unfold taskCallbacks
  split
  next => exact h
  next t hfind =>
    have ht := List.mem_of_find?_eq_some hfind
    have hid : t.id = id := by simpa using List.find?_some hfind
    split
    next hstate =>
      refine h.mono (fun _ hr => hr) ?_
      intro u hu hun _
      have hu' : u.id ≠ id := by
        intro heq
        rw [hinv.task_eq hu ht (heq.trans hid.symm)] at hun
        simp [Task.unfinished, hstate] at hun
      exact ⟨u, List.mem_map.mpr ⟨u, hu, setState_other hu'⟩, rfl, hun⟩
    next => exact h

theorem step_owned (hinv : CoordinatorInv s) (h : Owned s) {a : Action α}
    (hok : startsUncancelled s a) : Owned (step s a) := by
  cases a with
  | submit r payload priority now => exact accept_owned h false r payload priority now
  | stream r payload priority now => exact accept_owned h true r payload priority now
  | cancel r => exact cancel_owned h r
  | drain =>
    show Owned s.drain
    unfold drain
    simp only []
    split
    next => exact h.same (by rw [settle_scheduler]) (by rw [settle_tasks])
    next => exact h.same (by simp) (by simp)
  | drainTimeout => exact h
  | resume => exact h
  | dispatch now => exact dispatch_owned h now
  | taskStart id => exact taskStart_owned hinv h hok
  | taskEnd id failed => exact taskEnd_owned hinv h id failed
  | taskCallbacks id => exact taskCallbacks_owned hinv h id

/-- A task that is cancelled before its first step leaves its request behind. -/
theorem not_accounted_of_cancelled (hinv : CoordinatorInv s) {a : Action α}
    (hok : ¬ startsUncancelled s a) : ¬ Accounted (step s a) := by
  cases a with
  | taskStart id =>
    simp only [startsUncancelled, not_forall, not_not] at hok
    obtain ⟨t, ht, rfl, hstate⟩ := hok
    have hactive := hinv.active t ht (by simp [Task.unfinished, hstate])
    have hstep : step s (.taskStart t.id) = s.setTask t.id (.done false) := by
      show s.taskStart t.id = _
      unfold taskStart
      rw [hinv.find_task ht]
      simp only [hstate]
    rw [hstep]
    rintro ⟨-, howned⟩
    obtain ⟨u, hu, hreq, hun⟩ := howned t.requestId hactive
    obtain ⟨v, hv, rfl⟩ := List.mem_map.mp hu
    by_cases hv' : v.id = t.id
    · unfold Task.unfinished at hun
      rw [setState_self hv'] at hun
      exact absurd hun (by simp)
    · rw [setState_other hv'] at hreq hun
      exact hv' (hinv.single v hv t ht hun (by simp [Task.unfinished, hstate]) hreq)
  | _ => exact absurd trivial hok

/-- No request is lost track of in a run exactly if no task takes its first step with a
cancellation pending. -/
theorem accounted_always_iff (starvationSeconds : Int) (as : List (Action α)) :
    Always step Accounted (CoordinatorRuntime.new α starvationSeconds) as ↔
      Along step startsUncancelled (CoordinatorRuntime.new α starvationSeconds) as := by
  refine always_iff_along (fun s => CoordinatorInv s ∧ Owned s) ?_ ?_ ?_ ?_
  · intro s h
    exact accounted_of_owned h.1 h.2
  · intro s a hok h
    exact ⟨step_inv h.1 a, step_owned h.1 h.2 hok⟩
  · intro s a hok h
    exact not_accounted_of_cancelled h.1 hok
  · exact ⟨coordinatorInv_new starvationSeconds, by
      simp [Owned, CoordinatorRuntime.new, PriorityScheduler.new]⟩

/-- Submitted, dispatched, cancelled, and only then the task's first step: the request is
active and tracked with no task left. -/
theorem accounted_fails :
    ¬ Accounted (run step (CoordinatorRuntime.new Unit 60)
      [.submit "a" () .interactive 0, .dispatch 0, .cancel "a", .taskStart 0]) := by
  decide +kernel

end LocalRag.Runtime
