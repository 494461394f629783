import LocalRag.Core.Window
import Mathlib.Algebra.Order.Ring.Rat
import Mathlib.Data.Nat.Cast.Order.Ring

/-!
# The restart budget

`RestartBudget.record_failure` of `apps/supervisor/runtime.py`, which the supervisor asks each
time a service does not start or ends, once for every failure and with one budget a service.

The queue of attempts is the window of the allowed failures (`attempts_eq_window`), so its
length is their number there, and a failure is allowed exactly while that number is below the
maximum (`recordFailure_allowed`). Every allowed failure therefore closes a window that holds at
most the maximum, and `length_window_le` carries that to all windows.

Mirroring notes. A time is a rational number. The fields of `RestartPolicy` that are proofs are
what the manifest loader checks of the numbers, as far as it matters here; `backoff_seconds` is
read at `delayIndex`, and `delayIndex_lt` is why that read is there.
-/

namespace LocalRag.Supervisor

open LocalRag.Core

structure RestartPolicy where
  maximumRestarts : Nat
  windowSeconds : Nat
  backoffSeconds : List Nat
  one_le_maximum : 1 ≤ maximumRestarts
  window_pos : 0 < windowSeconds
  backoff_ne : backoffSeconds ≠ []

structure RestartDecision where
  allowed : Bool
  delaySeconds : Option Nat
  attemptsInWindow : Nat
deriving Repr, DecidableEq

variable (policy : RestartPolicy)

/-- `min(len(attempts) - 1, len(backoff_seconds) - 1)`. -/
def delayIndex (attempts : List ℚ) : Nat :=
  min (attempts.length - 1) (policy.backoffSeconds.length - 1)

theorem delayIndex_lt (attempts : List ℚ) :
    delayIndex policy attempts < policy.backoffSeconds.length := by
  have hpos := List.length_pos_iff.mpr policy.backoff_ne
  unfold delayIndex
  omega

/-- `backoff_seconds[delay_index]`. -/
def delaySeconds (attempts : List ℚ) : Nat :=
  policy.backoffSeconds.get ⟨delayIndex policy attempts, delayIndex_lt policy attempts⟩

/-- `record_failure`: the decision and the attempts it leaves. -/
def recordFailure (attempts : List ℚ) (now : ℚ) : RestartDecision × List ℚ :=
  let attempts := evict (policy.windowSeconds : ℚ) now attempts
  if attempts.length ≥ policy.maximumRestarts then (⟨false, none, attempts.length⟩, attempts)
  else
    let attempts := attempts ++ [now]
    (⟨true, some (delaySeconds policy attempts), attempts.length⟩, attempts)

/-! ## A run of failures -/

/-- A budget and the decisions it has made. -/
structure Budget where
  attempts : List ℚ
  decisions : List (ℚ × RestartDecision)

/-- One more failure. -/
def Budget.fail (b : Budget) (now : ℚ) : Budget where
  attempts := (recordFailure policy b.attempts now).2
  decisions := b.decisions ++ [(now, (recordFailure policy b.attempts now).1)]

/-- The budget after the failures at `times`, oldest first. -/
def Budget.after (times : List ℚ) : Budget := times.foldl (Budget.fail policy) ⟨[], []⟩

/-- The times of the failures that were allowed. -/
def Budget.allowed (b : Budget) : List ℚ := (b.decisions.filter (·.2.allowed)).map (·.1)

/-- Of `times`, those in the window that ends at `now`. -/
abbrev inWindow (now : ℚ) (times : List ℚ) : List ℚ := window (policy.windowSeconds : ℚ) now times

variable {policy} {times : List ℚ} {now : ℚ}

theorem after_snoc (times : List ℚ) (now : ℚ) :
    Budget.after policy (times ++ [now]) = (Budget.after policy times).fail policy now := by
  simp [Budget.after]

theorem allowed_fail (b : Budget) (now : ℚ) :
    (b.fail policy now).allowed =
      b.allowed ++ if (recordFailure policy b.attempts now).1.allowed then [now] else [] := by
  unfold Budget.allowed Budget.fail
  rw [List.filter_append, List.map_append]
  cases h : (recordFailure policy b.attempts now).1.allowed <;> simp [h]

/-- Only failures are allowed, in their order. -/
theorem allowed_sublist (times : List ℚ) : (Budget.after policy times).allowed.Sublist times := by
  induction times using List.reverseRecOn with
  | nil => exact List.Sublist.refl _
  | append_singleton times now ih =>
    rw [after_snoc, allowed_fail]
    refine ih.append ?_
    split
    · exact List.Sublist.refl _
    · exact List.nil_sublist _

/-- One failure, where eviction leaves the allowed failures of the window: it is allowed while
they are fewer than the maximum, and leaves the allowed ones of the same window. -/
theorem recordFailure_spec {b : Budget}
    (h : evict (policy.windowSeconds : ℚ) now b.attempts = inWindow policy now b.allowed) :
    ((recordFailure policy b.attempts now).1.allowed = true ↔
      (inWindow policy now b.allowed).length < policy.maximumRestarts) ∧
    (b.fail policy now).attempts = inWindow policy now (b.fail policy now).allowed := by
  have hpos : (0 : ℚ) < policy.windowSeconds := Nat.cast_pos.mpr policy.window_pos
  rw [allowed_fail]
  unfold Budget.fail recordFailure
  rw [h]
  by_cases hfull : (inWindow policy now b.allowed).length ≥ policy.maximumRestarts
  · rw [if_pos hfull]
    refine ⟨⟨fun hallowed => absurd hallowed Bool.false_ne_true, fun hlt => ?_⟩, ?_⟩
    · omega
    · rw [if_neg Bool.false_ne_true, List.append_nil]
  · rw [if_neg hfull]
    refine ⟨⟨fun _ => by omega, fun _ => rfl⟩, ?_⟩
    rw [if_pos rfl]
    exact (window_snoc hpos).symm

/-- Eviction leaves the allowed failures of the window, at any time after the last failure. -/
theorem evict_attempts (hsorted : times.Pairwise (· ≤ ·)) (hnow : ∀ x ∈ times, x ≤ now) :
    evict (policy.windowSeconds : ℚ) now (Budget.after policy times).attempts =
      inWindow policy now (Budget.after policy times).allowed := by
  induction times using List.reverseRecOn generalizing now with
  | nil => rfl
  | append_singleton times last ih =>
    have hallowed := @allowed_sublist policy (times ++ [last])
    have hsorted' := hsorted.sublist hallowed
    rw [List.pairwise_append] at hsorted
    obtain ⟨htimes, -, hlast⟩ := hsorted
    have hbefore : ∀ x ∈ times, x ≤ last := fun x hx => hlast x hx last List.mem_cons_self
    have hmax : ∀ x ∈ (Budget.after policy (times ++ [last])).allowed, x ≤ last := by
      intro x hx
      obtain hx | hx := List.mem_append.mp (hallowed.subset hx)
      · exact hbefore x hx
      · exact (List.mem_singleton.mp hx).le
    have hattempts := (recordFailure_spec (ih htimes hbefore)).2
    rw [← after_snoc] at hattempts
    rw [hattempts]
    exact evict_window hsorted' hmax (hnow last (List.mem_append_right _ List.mem_cons_self))

/-- What the queue says of a failure at the end of the run: the budget is the window. -/
theorem recordFailure_after (hsorted : (times ++ [now]).Pairwise (· ≤ ·)) :
    ((recordFailure policy (Budget.after policy times).attempts now).1.allowed = true ↔
      (inWindow policy now (Budget.after policy times).allowed).length < policy.maximumRestarts) ∧
    (Budget.after policy (times ++ [now])).attempts =
      inWindow policy now (Budget.after policy (times ++ [now])).allowed := by
  rw [List.pairwise_append] at hsorted
  rw [after_snoc]
  exact recordFailure_spec
    (evict_attempts hsorted.1 fun x hx => hsorted.2.2 x hx now List.mem_cons_self)

theorem length_inWindow_le (hsorted : times.Pairwise (· ≤ ·)) (t : ℚ) :
    (inWindow policy t (Budget.after policy times).allowed).length ≤ policy.maximumRestarts := by
  induction times using List.reverseRecOn generalizing t with
  | nil => exact Nat.zero_le _
  | append_singleton times now ih =>
    have hdecision := (@recordFailure_after policy _ _ hsorted).1
    rw [List.pairwise_append] at hsorted
    obtain ⟨htimes, -, hnow⟩ := hsorted
    rw [after_snoc, allowed_fail]
    split
    next hallowed =>
      refine length_window_le (Nat.cast_pos.mpr policy.window_pos) (fun x hx => ?_) (ih htimes)
        (hdecision.mp hallowed) t
      exact hnow x ((allowed_sublist times).subset hx) now List.mem_cons_self
    next =>
      rw [List.append_nil]
      exact ih htimes t

/-- The delay of an allowed failure is read at the index the attempts give. -/
theorem recordFailure_delay {b : Budget}
    (h : (recordFailure policy b.attempts now).1.allowed = true) :
    (recordFailure policy b.attempts now).1.delaySeconds =
      policy.backoffSeconds[delayIndex policy (b.fail policy now).attempts]? := by
  unfold Budget.fail
  unfold recordFailure at h ⊢
  by_cases hfull : (evict (policy.windowSeconds : ℚ) now b.attempts).length ≥ policy.maximumRestarts
  · rw [if_pos hfull] at h
    cases h
  · rw [if_neg hfull]
    exact (List.getElem?_eq_getElem _).symm

/-- Whatever the failures, no window holds more than the maximum of allowed ones; one is refused
only where its window is full; the delay is one of the list; and the attempts are the allowed
failures of the window that ends at the last failure. -/
theorem restart_budget (hsorted : times.Pairwise (· ≤ ·)) :
    (∀ t, (inWindow policy t (Budget.after policy times).allowed).length ≤
      policy.maximumRestarts) ∧
    ∀ front now back, times = front ++ now :: back →
      let before := Budget.after policy front
      let after := Budget.after policy (front ++ [now])
      let decision := (recordFailure policy before.attempts now).1
      (decision.allowed = false →
        (inWindow policy now before.allowed).length = policy.maximumRestarts) ∧
      (decision.allowed = true →
        delayIndex policy after.attempts < policy.backoffSeconds.length ∧
        decision.delaySeconds = policy.backoffSeconds[delayIndex policy after.attempts]?) ∧
      after.attempts = inWindow policy now after.allowed := by
  refine ⟨length_inWindow_le hsorted, ?_⟩
  rintro front now back rfl
  rw [List.append_cons, List.pairwise_append] at hsorted
  obtain ⟨hsorted, -, -⟩ := hsorted
  obtain ⟨hallowed, hattempts⟩ := @recordFailure_after policy _ _ hsorted
  refine ⟨fun hrefused => ?_, fun h => ?_, hattempts⟩
  · -- refused: the window holds the maximum, and no window holds more
    have hfull : ¬ (inWindow policy now (Budget.after policy front).allowed).length <
        policy.maximumRestarts := by
      intro hroom
      rw [hallowed.mpr hroom] at hrefused
      cases hrefused
    have hbound := @length_inWindow_le policy _ (List.pairwise_append.mp hsorted).1 now
    omega
  · rw [after_snoc]
    exact ⟨delayIndex_lt policy _, recordFailure_delay h⟩

/-- With two restarts in a minute the third of these failures is refused; a minute after the
first there is room again. -/
theorem restart_budget_twoInAMinute :
    ∃ policy : RestartPolicy, policy.maximumRestarts = 2 ∧ policy.windowSeconds = 60 ∧
      (∀ t, (inWindow policy t (Budget.after policy [100, 101, 102, 160]).allowed).length ≤ 2) ∧
      (Budget.after policy [100, 101, 102, 160]).decisions.map (·.2.allowed) =
        [true, true, false, true] :=
  ⟨⟨2, 60, [1, 5], by decide, by decide, by decide⟩, rfl, rfl,
    (restart_budget (by decide +kernel)).1, by decide +kernel⟩

end LocalRag.Supervisor
