import Mathlib.Data.List.Sort
import Mathlib.Order.MinMax

/-!
# Aggregates — what leaving rows out does to `min` and `max`, and what `LIMIT` leaves

SQL's `min` and `max` of a column answer `NULL` for no rows, which is what
`List.min?` and `List.max?` answer. A query that aggregates over more rows than
it should still gives the right value if every surplus row is reached by a row
that belongs there; the three `_eq_iff` lemmas say that this is the only way.
-/

namespace LocalRag.Core

variable {α ρ : Type*} [LinearOrder ρ]

instance instLawfulOrderMax : Std.LawfulOrderMax ρ where
  max_le_iff _ _ _ := max_le_iff
  max_eq_or a b := max_choice a b

instance instLawfulOrderMin : Std.LawfulOrderMin ρ where
  le_min_iff _ _ _ := le_min_iff
  min_eq_or a b := min_choice a b

/-- The minimum of a column over some of the rows is that over all of them iff they
reach down to each one. -/
theorem min?_map_eq_iff {kept all : List α} (hsub : kept ⊆ all) (f : α → ρ) :
    (kept.map f).min? = (all.map f).min? ↔ ∀ x ∈ all, ∃ y ∈ kept, f y ≤ f x := by
  constructor
  · intro heq x hx
    have hfx := List.mem_map_of_mem (f := f) hx
    obtain ⟨m, hm⟩ := Option.isSome_iff_exists.mp (List.isSome_min?_of_mem hfx)
    obtain ⟨hmem, _⟩ := List.min?_eq_some_iff.mp (heq.trans hm)
    obtain ⟨y, hy, rfl⟩ := List.mem_map.mp hmem
    exact ⟨y, hy, (List.min?_eq_some_iff.mp hm).2 _ hfx⟩
  · intro hreach
    cases hm : (kept.map f).min? with
    | none =>
      rw [List.min?_eq_none_iff, List.map_eq_nil_iff] at hm
      subst hm
      cases all with
      | nil => rfl
      | cons x rest =>
        obtain ⟨y, hy, _⟩ := hreach x (by simp)
        cases hy
    | some m =>
      obtain ⟨hmem, hle⟩ := List.min?_eq_some_iff.mp hm
      refine (List.min?_eq_some_iff.mpr ⟨List.map_subset f hsub hmem, fun z hz => ?_⟩).symm
      obtain ⟨x, hx, rfl⟩ := List.mem_map.mp hz
      obtain ⟨y, hy, hyx⟩ := hreach x hx
      exact (hle _ (List.mem_map_of_mem hy)).trans hyx

/-- The maximum likewise, in the dual order. -/
theorem max?_map_eq_iff {kept all : List α} (hsub : kept ⊆ all) (f : α → ρ) :
    (kept.map f).max? = (all.map f).max? ↔ ∀ x ∈ all, ∃ y ∈ kept, f x ≤ f y :=
  min?_map_eq_iff (ρ := ρᵒᵈ) hsub f

/-- `coalesce(max(…), 0)` is at most a bound that is not negative iff every row is. -/
theorem getD_max?_le [Zero ρ] {l : List ρ} {c : ρ} (hc : 0 ≤ c) :
    l.max?.getD 0 ≤ c ↔ ∀ x ∈ l, x ≤ c := by
  cases hm : l.max? with
  | none =>
    rw [List.max?_eq_none_iff] at hm
    simp [hm, hc]
  | some m => exact List.max?_le_iff hm

/-- `greatest(b, coalesce(max(…), 0))` over some of the rows is that over all of them
iff each row is reached by `b` or by one of them. -/
theorem greatest_eq_iff [Zero ρ] {kept all : List α} (hsub : kept ⊆ all) (f : α → ρ) {b : ρ}
    (hb : 0 ≤ b) :
    max b ((kept.map f).max?.getD 0) = max b ((all.map f).max?.getD 0) ↔
      ∀ x ∈ all, f x ≤ b ∨ ∃ y ∈ kept, f x ≤ f y := by
  have hle : ∀ {l : List α} {c : ρ}, b ≤ c →
      (max b ((l.map f).max?.getD 0) ≤ c ↔ ∀ x ∈ l, f x ≤ c) := by
    intro l c hbc
    rw [max_le_iff, getD_max?_le (hb.trans hbc), List.forall_mem_map]
    exact and_iff_right hbc
  have hself : ∀ l : List α, ∀ x ∈ l, f x ≤ max b ((l.map f).max?.getD 0) := fun l =>
    (hle (le_max_left _ _)).mp le_rfl
  constructor
  · intro heq x hx
    have hreach : f x ≤ max b ((kept.map f).max?.getD 0) := heq ▸ hself all x hx
    rcases le_max_iff.mp hreach with hbx | hmx
    · exact Or.inl hbx
    · cases hm : (kept.map f).max? with
      | none =>
        rw [hm] at hmx
        exact Or.inl (hmx.trans hb)
      | some m =>
        rw [hm] at hmx
        obtain ⟨y, hy, rfl⟩ := List.mem_map.mp (List.max?_eq_some_iff.mp hm).1
        exact Or.inr ⟨y, hy, hmx⟩
  · intro hreach
    refine le_antisymm ?_ ?_
    · exact (hle (le_max_left _ _)).mpr fun x hx => hself all x (hsub hx)
    · refine (hle (le_max_left _ _)).mpr fun x hx => ?_
      rcases hreach x hx with hbx | ⟨y, hy, hxy⟩
      · exact hbx.trans (le_max_left _ _)
      · exact hxy.trans (hself kept y hy)

/-- `ORDER BY … LIMIT k`: the rows are in order, and a row that is left out is left out for
the limit and comes after every one of them. -/
theorem take_insertionSort (r : α → α → Prop) [DecidableRel r] [Std.Total r] [IsTrans α r]
    (rows : List α) (k : Nat) :
    ((rows.insertionSort r).take k).Pairwise r ∧ (rows.insertionSort r).take k ⊆ rows ∧
      ∀ x ∈ rows, x ∈ (rows.insertionSort r).take k ∨
        ((rows.insertionSort r).take k).length = k ∧
          ∀ y ∈ (rows.insertionSort r).take k, r y x := by
  have hperm := List.perm_insertionSort r rows
  have hsorted := List.pairwise_insertionSort r rows
  refine ⟨hsorted.sublist (List.take_sublist _ _),
    fun y hy => hperm.mem_iff.mp (List.mem_of_mem_take hy), fun x hx => ?_⟩
  have hx := hperm.mem_iff.mpr hx
  rw [← List.take_append_drop k (rows.insertionSort r)] at hx hsorted
  rcases List.mem_append.mp hx with hnear | hfar
  · exact Or.inl hnear
  · have hmore := List.length_pos_of_mem hfar
    rw [List.length_drop] at hmore
    refine Or.inr ⟨?_, fun y hy => (List.pairwise_append.mp hsorted).2.2 y hy x hfar⟩
    rw [List.length_take]
    omega

end LocalRag.Core
