import Mathlib.Algebra.Order.Group.Defs
import Mathlib.Algebra.Order.Sub.Basic
import Mathlib.Data.List.Induction

/-!
# Sliding windows — the times of the last while

Times are those of any ordered group. `window w t` keeps of a list the times of the half-open
window `(t - w, t]`, `evict` drops from the front of a queue what has left it.

Theorems:
- `evict_window`: a queue that holds one window becomes a later one by eviction alone.
- `length_window_le`: when each time finds room in the window that ends at it, all windows are
  bounded, also those that end between two times.
-/

namespace LocalRag.Core

variable {T : Type*} [AddCommGroup T] [LinearOrder T] [IsOrderedAddMonoid T]

/-- The times in `(t - w, t]`. -/
def window (w t : T) (xs : List T) : List T := xs.filter fun x => t - w < x ∧ x ≤ t

/-- Drop from the front while it lies before the window that ends at `t`. -/
def evict (w t : T) (queue : List T) : List T := queue.dropWhile fun x => x ≤ t - w

variable {w s t : T} {xs : List T}

omit [IsOrderedAddMonoid T] in
theorem evict_eq_filter (hsorted : xs.Pairwise (· ≤ ·)) :
    evict w t xs = xs.filter fun x => t - w < x := by
  unfold evict
  induction xs with
  | nil => rfl
  | cons x xs ih =>
    rw [List.pairwise_cons] at hsorted
    by_cases hx : x ≤ t - w
    · rw [List.dropWhile_cons_of_pos (by simpa using hx), ih hsorted.2,
        List.filter_cons_of_neg (by simpa using hx)]
    · -- everything behind it is later
      have hlater : ∀ y ∈ x :: xs, t - w < y := by
        intro y hy
        obtain rfl | hy := List.mem_cons.mp hy
        · exact not_le.mp hx
        · exact (not_le.mp hx).trans_le (hsorted.1 y hy)
      rw [List.dropWhile_cons_of_neg (by simpa using hx),
        List.filter_eq_self.mpr fun y hy => decide_eq_true (hlater y hy)]

omit [IsOrderedAddMonoid T] in
theorem window_sublist : (window w t xs).Sublist xs := List.filter_sublist

theorem evict_window (hsorted : xs.Pairwise (· ≤ ·)) (hs : ∀ x ∈ xs, x ≤ s) (hst : s ≤ t) :
    evict w t (window w s xs) = window w t xs := by
  rw [evict_eq_filter (hsorted.sublist window_sublist)]
  unfold window
  rw [List.filter_filter]
  refine List.filter_congr fun x hx => ?_
  rw [← Bool.decide_and, decide_eq_decide]
  constructor
  · exact fun h => ⟨h.1, (hs x hx).trans hst⟩
  · exact fun h => ⟨h.1, (sub_le_sub_right hst w).trans_lt h.1, hs x hx⟩

theorem window_snoc (hw : 0 < w) : window w t (xs ++ [t]) = window w t xs ++ [t] := by
  have hlt : t - w < t := sub_lt_self t hw
  unfold window
  rw [List.filter_append]
  simp [hlt]

/-- A window that ends at the last time of the list holds what any later window does. -/
theorem length_window_mono (hs : ∀ x ∈ xs, x ≤ s) (hst : s ≤ t) :
    (window w t xs).length ≤ (window w s xs).length := by
  unfold window
  rw [← List.countP_eq_length_filter, ← List.countP_eq_length_filter]
  refine List.countP_mono_left fun x hx hin => ?_
  have hin := of_decide_eq_true hin
  exact decide_eq_true ⟨(sub_le_sub_right hst w).trans_lt hin.1, hs x hx⟩

/-- One more time at the end of the list keeps the bound, if its own window has room. -/
theorem length_window_le {m : Nat} (hw : 0 < w) (hs : ∀ x ∈ xs, x ≤ s)
    (h : ∀ t, (window w t xs).length ≤ m) (hroom : (window w s xs).length < m) (t : T) :
    (window w t (xs ++ [s])).length ≤ m := by
  by_cases hst : s ≤ t
  · have hmax : ∀ x ∈ xs ++ [s], x ≤ s := by
      intro x hx
      obtain hx | hx := List.mem_append.mp hx
      · exact hs x hx
      · exact (List.mem_singleton.mp hx).le
    have hmono := length_window_mono (w := w) hmax hst
    rw [window_snoc hw, List.length_append, List.length_singleton] at hmono
    omega
  · -- the new time lies after the window
    have hwindow : window w t (xs ++ [s]) = window w t xs := by
      unfold window
      rw [List.filter_append]
      simp [hst]
    rw [hwindow]
    exact h t

end LocalRag.Core
