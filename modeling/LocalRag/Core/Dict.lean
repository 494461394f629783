import Mathlib.Data.List.Nodup

/-!
# Dictionaries — a list of items, read by key

A Python `dict` is the list of its items in insertion order, and a key is looked up by the first
item that has it. `setItem` is `d[k] = v`. Two dictionaries are equal when they map every key to
the same, whatever their order: `sameItems` decides that from the keys they have.
-/

namespace LocalRag.Core

variable {κ υ : Type*} [DecidableEq κ]

/-- `d[k] = v`. -/
def setItem (d : List (κ × υ)) (k : κ) (v : υ) : List (κ × υ) :=
  if (d.lookup k).isSome then d.map fun item => if item.1 = k then (k, v) else item
  else d ++ [(k, v)]

/-- `a == b`. -/
def sameItems [DecidableEq υ] (a b : List (κ × υ)) : Bool :=
  (a ++ b).all fun item => a.lookup item.1 = b.lookup item.1

variable {d : List (κ × υ)} {k : κ}

theorem lookup_isSome : (d.lookup k).isSome = true ↔ k ∈ d.map (·.1) := by
  induction d with
  | nil => simp
  | cons item d ih =>
    obtain ⟨k', v⟩ := item
    rw [List.lookup_cons]
    by_cases hk : k = k'
    · simp [hk]
    · have hbeq : (k == k') = false := by simpa using hk
      rw [hbeq]
      simp only [List.map_cons, List.mem_cons, hk, false_or]
      exact ih

theorem mem_of_lookup {v : υ} (h : d.lookup k = some v) : (k, v) ∈ d := by
  induction d with
  | nil => exact absurd h (by simp)
  | cons item d ih =>
    obtain ⟨k', v'⟩ := item
    rw [List.lookup_cons] at h
    split at h
    next heq =>
      obtain rfl := Option.some.inj h
      rw [eq_of_beq heq]
      exact List.mem_cons_self
    next => exact List.mem_cons_of_mem _ (ih h)

theorem mem_keys_of_lookup {v : υ} (h : d.lookup k = some v) : k ∈ d.map (·.1) :=
  List.mem_map.mpr ⟨_, mem_of_lookup h, rfl⟩

theorem sameItems_iff [DecidableEq υ] {a b : List (κ × υ)} :
    sameItems a b = true ↔ ∀ k, a.lookup k = b.lookup k := by
  unfold sameItems
  rw [List.all_eq_true]
  refine ⟨fun h k => ?_, fun h item _ => decide_eq_true (h item.1)⟩
  -- a key that either has is compared; any other maps to nothing in both
  cases ha : a.lookup k with
  | some v =>
    have hin := List.mem_append_left b (mem_of_lookup ha)
    rw [← ha]
    exact of_decide_eq_true (h _ hin)
  | none =>
    cases hb : b.lookup k with
    | none => rfl
    | some v =>
      have hin := List.mem_append_right a (mem_of_lookup hb)
      rw [← ha, ← hb]
      exact of_decide_eq_true (h _ hin)

end LocalRag.Core
