import Mathlib.Tactic.Common

/-!
# Locks that are held to the end of a transaction

Row locks and advisory locks alike: each key has one owner at most, which is what it means
that the table is a function. A transaction takes keys that nobody else has, keeps them, and
gives all of them back when it ends. Everything an invariant needs of the lock table is that
taking and giving back leave the keys of the others alone (`take_other`, `release_other`).
-/

namespace LocalRag.Core

variable {κ τ : Type}

/-- Who has each key. -/
abbrev LockTable (κ τ : Type) := κ → Option τ

namespace LockTable

variable {locks : LockTable κ τ} {t t' : τ} {ks : List κ} {k : κ}

/-- Nobody else has one of the keys. -/
def free [DecidableEq τ] (locks : LockTable κ τ) (t : τ) (ks : List κ) : Bool :=
  ks.all fun k => locks k = none ∨ locks k = some t

def take [DecidableEq κ] (locks : LockTable κ τ) (t : τ) (ks : List κ) : LockTable κ τ :=
  fun k => if k ∈ ks then some t else locks k

/-- The end of a transaction. -/
def release [DecidableEq τ] (locks : LockTable κ τ) (t : τ) : LockTable κ τ :=
  fun k => if locks k = some t then none else locks k

theorem take_mem [DecidableEq κ] (hk : k ∈ ks) : locks.take t ks k = some t := if_pos hk

/-- What it had it has still. -/
theorem take_mono [DecidableEq κ] (h : locks k = some t) : locks.take t ks k = some t := by
  unfold take
  split
  next => rfl
  next => exact h

/-- What another has stays with that one. -/
theorem take_other [DecidableEq κ] [DecidableEq τ] (hfree : locks.free t ks = true)
    (hne : t' ≠ t) (h : locks k = some t') : locks.take t ks k = some t' := by
  unfold take
  split
  next hk =>
    have hkey := of_decide_eq_true (List.all_eq_true.mp hfree k hk)
    rw [h] at hkey
    rcases hkey with hnone | hsome
    · cases hnone
    · exact absurd (Option.some.inj hsome) hne
  next => exact h

theorem release_other [DecidableEq τ] (hne : t' ≠ t) (h : locks k = some t') :
    locks.release t k = some t' := by
  unfold release
  rw [if_neg fun heq => hne (Option.some.inj (h.symm.trans heq)), h]

end LockTable

end LocalRag.Core
