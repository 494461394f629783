import Mathlib.Data.List.Infix
import Mathlib.Data.Nat.Find

/-!
# Occurrences — `find` and the loop that collects every match

`hay.find(needle, start)` is the least position from `start` on at which the needle
stands; the loop of the callers asks again from one past the last match, so
overlapping matches are found too. `OccursAt` says what a match is, in the terms in
which results are stated: the text split into what is before, the needle and what
is after.

Theorems:
- `findFrom_eq_some`, `findFrom_eq_none`: `find` answers with the least match,
  and with none only if there is none.
- `mem_offsetsFrom`: the loop's answer is every match, whatever the fuel is beyond
  the length of the text.
-/

namespace LocalRag.Core

variable {α : Type*}

/-- The needle stands at position `k` of the text. -/
def OccursAt (needle hay : List α) (k : Nat) : Prop :=
  ∃ before after, hay = before ++ needle ++ after ∧ before.length = k

theorem occursAt_append (before needle after : List α) :
    OccursAt needle (before ++ needle ++ after) before.length :=
  ⟨before, after, rfl, rfl⟩

variable {needle hay : List α}

variable {k : Nat}

theorem OccursAt.le (h : OccursAt needle hay k) : k + needle.length ≤ hay.length := by
  obtain ⟨before, after, rfl, rfl⟩ := h
  simp

/-- A match, read off the text from `k` on. -/
theorem occursAt_iff : OccursAt needle hay k ↔ k ≤ hay.length ∧ needle <+: hay.drop k := by
  constructor
  · rintro ⟨before, after, rfl, rfl⟩
    refine ⟨by simp, after, ?_⟩
    rw [List.append_assoc, List.drop_left]
  · rintro ⟨hk, after, hafter⟩
    refine ⟨hay.take k, after, ?_, by simp [hk]⟩
    rw [List.append_assoc, hafter, List.take_append_drop]

theorem occursAt_zero : OccursAt needle hay 0 ↔ needle <+: hay := by
  simp [occursAt_iff]

theorem occursAt_succ {a : α} : OccursAt needle (a :: hay) (k + 1) ↔ OccursAt needle hay k := by
  simp [occursAt_iff]

variable [DecidableEq α]

instance decidableOccursAt (needle hay : List α) (k : Nat) : Decidable (OccursAt needle hay k) :=
  decidable_of_iff (k ≤ hay.length ∧ needle <+: hay.drop k) occursAt_iff.symm

/-- The first match in `hay`, counted from the position `at_` of its first character. -/
def findIn (needle : List α) : List α → Nat → Option Nat
  | [], at_ => if needle <+: [] then some at_ else none
  | a :: hay, at_ => if needle <+: a :: hay then some at_ else findIn needle hay (at_ + 1)

/-- `hay.find(needle, start)`. -/
def findFrom (needle hay : List α) (start : Nat) : Option Nat :=
  if start ≤ hay.length then findIn needle (hay.drop start) start else none

theorem findIn_eq_some {at_ : Nat} :
    findIn needle hay at_ = some k ↔
      ∃ j, k = at_ + j ∧ OccursAt needle hay j ∧ ∀ i < j, ¬ OccursAt needle hay i := by
  induction hay generalizing at_ with
  | nil =>
    unfold findIn
    constructor
    · intro h
      split at h
      next hn =>
        refine ⟨0, by simpa using h.symm, occursAt_zero.mpr hn, by omega⟩
      next => exact absurd h (by simp)
    · rintro ⟨j, rfl, hj, -⟩
      have hle := hj.le
      have hj0 : j = 0 := by
        rw [List.length_nil] at hle
        omega
      subst hj0
      rw [if_pos (occursAt_zero.mp hj)]
      rfl
  | cons a hay ih =>
    unfold findIn
    by_cases hn : needle <+: a :: hay
    · rw [if_pos hn]
      constructor
      · intro h
        exact ⟨0, by simpa using h.symm, occursAt_zero.mpr hn, by omega⟩
      · rintro ⟨j, rfl, -, hmin⟩
        rcases Nat.eq_zero_or_pos j with rfl | hj
        · rfl
        · exact absurd (occursAt_zero.mpr hn) (hmin 0 hj)
    · rw [if_neg hn, ih]
      constructor
      · rintro ⟨j, rfl, hj, hmin⟩
        refine ⟨j + 1, by omega, occursAt_succ.mpr hj, ?_⟩
        intro i hi hocc
        cases i with
        | zero => exact hn (occursAt_zero.mp hocc)
        | succ i => exact hmin i (by omega) (occursAt_succ.mp hocc)
      · rintro ⟨j, rfl, hj, hmin⟩
        cases j with
        | zero => exact absurd (occursAt_zero.mp hj) hn
        | succ j =>
          refine ⟨j, by omega, occursAt_succ.mp hj, ?_⟩
          intro i hi hocc
          exact hmin (i + 1) (by omega) (occursAt_succ.mpr hocc)

variable {start : Nat}

omit [DecidableEq α] in
/-- A match at or after `start`, seen from `start`. -/
theorem occursAt_drop {j : Nat} (hs : start ≤ hay.length) :
    OccursAt needle (hay.drop start) j ↔ OccursAt needle hay (start + j) := by
  rw [occursAt_iff, occursAt_iff, List.drop_drop, List.length_drop]
  constructor
  · rintro ⟨h1, h2⟩
    exact ⟨by omega, h2⟩
  · rintro ⟨h1, h2⟩
    exact ⟨by omega, h2⟩

theorem findFrom_eq_some :
    findFrom needle hay start = some k ↔
      start ≤ k ∧ OccursAt needle hay k ∧ ∀ i, start ≤ i → i < k → ¬ OccursAt needle hay i := by
  unfold findFrom
  by_cases hs : start ≤ hay.length
  · rw [if_pos hs, findIn_eq_some]
    constructor
    · rintro ⟨j, rfl, hj, hmin⟩
      refine ⟨by omega, (occursAt_drop hs).mp hj, ?_⟩
      intro i hsi hik hocc
      obtain ⟨d, rfl⟩ := Nat.exists_eq_add_of_le hsi
      exact hmin d (by omega) ((occursAt_drop hs).mpr hocc)
    · rintro ⟨hsk, hk, hmin⟩
      obtain ⟨d, rfl⟩ := Nat.exists_eq_add_of_le hsk
      refine ⟨d, rfl, (occursAt_drop hs).mpr hk, ?_⟩
      intro i hi hocc
      exact hmin (start + i) (by omega) (by omega) ((occursAt_drop hs).mp hocc)
  · rw [if_neg hs]
    constructor
    · intro h
      exact absurd h (by simp)
    · rintro ⟨hsk, hk, -⟩
      have := hk.le
      omega

theorem findFrom_eq_none :
    findFrom needle hay start = none ↔ ∀ k, start ≤ k → ¬ OccursAt needle hay k := by
  constructor
  · intro h k hk hocc
    -- the least match from `start` on would have been the answer
    have hex : ∃ k, start ≤ k ∧ OccursAt needle hay k := ⟨k, hk, hocc⟩
    have hfirst := Nat.find_spec hex
    have hmin : ∀ i, start ≤ i → i < Nat.find hex → ¬ OccursAt needle hay i :=
      fun i hsi hi hocc => Nat.find_min hex hi ⟨hsi, hocc⟩
    rw [findFrom_eq_some.mpr ⟨hfirst.1, hfirst.2, hmin⟩] at h
    exact absurd h (by simp)
  · intro h
    cases hf : findFrom needle hay start with
    | none => rfl
    | some k =>
      obtain ⟨hsk, hk, -⟩ := findFrom_eq_some.mp hf
      exact absurd hk (h k hsk)

/-! ## Every match -/

/-- The loop that asks for the next match one past the last. It makes at most one
round per position, which is what the fuel counts. -/
def offsetsFrom (needle hay : List α) : Nat → Nat → List Nat
  | 0, _ => []
  | fuel + 1, start =>
    match findFrom needle hay start with
    | none => []
    | some found => found :: offsetsFrom needle hay fuel (found + 1)

theorem mem_offsetsFrom {fuel : Nat} (hfuel : hay.length < fuel + start) :
    k ∈ offsetsFrom needle hay fuel start ↔ start ≤ k ∧ OccursAt needle hay k := by
  induction fuel generalizing start with
  | zero =>
    constructor
    · intro h
      exact absurd h (by simp [offsetsFrom])
    · rintro ⟨hsk, hk⟩
      have := hk.le
      omega
  | succ fuel ih =>
    unfold offsetsFrom
    cases hf : findFrom needle hay start with
    | none =>
      constructor
      · intro h
        exact absurd h (by simp)
      · rintro ⟨hsk, hk⟩
        exact absurd hk (findFrom_eq_none.mp hf k hsk)
    | some found =>
      obtain ⟨hsf, hfound, hmin⟩ := findFrom_eq_some.mp hf
      show k ∈ found :: offsetsFrom needle hay fuel (found + 1) ↔ _
      rw [List.mem_cons, ih (by omega)]
      constructor
      · rintro (rfl | ⟨hlt, hk⟩)
        · exact ⟨hsf, hfound⟩
        · exact ⟨by omega, hk⟩
      · rintro ⟨hsk, hk⟩
        rcases Nat.lt_trichotomy k found with hlt | rfl | hgt
        · exact absurd hk (hmin k hsk hlt)
        · exact Or.inl rfl
        · exact Or.inr ⟨hgt, hk⟩

/-- The matches come in order, each once. -/
theorem offsetsFrom_sorted (needle hay : List α) (fuel start : Nat) :
    (offsetsFrom needle hay fuel start).Pairwise (· < ·) ∧
      ∀ k ∈ offsetsFrom needle hay fuel start, start ≤ k := by
  induction fuel generalizing start with
  | zero => exact ⟨List.Pairwise.nil, fun k hk => absurd hk (by simp [offsetsFrom])⟩
  | succ fuel ih =>
    unfold offsetsFrom
    cases hf : findFrom needle hay start with
    | none => exact ⟨List.Pairwise.nil, fun k hk => absurd hk (by simp)⟩
    | some found =>
      have hsf := (findFrom_eq_some.mp hf).1
      obtain ⟨hsorted, hge⟩ := ih (found + 1)
      constructor
      · show (found :: offsetsFrom needle hay fuel (found + 1)).Pairwise (· < ·)
        refine List.pairwise_cons.mpr ⟨?_, hsorted⟩
        intro k hk
        have := hge k hk
        omega
      · intro k hk
        rcases List.mem_cons.mp hk with rfl | hk
        · exact hsf
        · have := hge k hk
          omega

end LocalRag.Core
