import Mathlib.Order.WellFounded
import Mathlib.Data.Set.Finite.Basic

/-!
# Layers — taking from a list what waits for nothing in it

A loop takes the nodes of a list that wait for no node of the list, and goes on with the
others until none is left. `layers` is that loop for any relation `waits`; it fails when
nodes are left and each of them waits for another.

Theorems:
- `layers_isSome_iff`: the loop ends well exactly on an acyclic relation. One way a cycle
  is never taken apart, since each of its nodes waits for the next (`layers_of_cycle`); the
  other way a list in which every node waits has no end to its chains
  (`cycle_of_stuck`).
- `layers_perm`, `layers_after`: the layers are the list again, and a node comes after
  everything it waits for.
-/

namespace LocalRag.Core

open Relation

variable {α : Type*} (waits : α → α → Prop) [DecidableRel waits]

/-- The nodes that wait for none of the list. -/
def ready (left : List α) : List α := left.filter fun a => ∀ b ∈ left, ¬ waits a b

/-- The others. -/
def blocked (left : List α) : List α := left.filter fun a => ∃ b ∈ left, waits a b

variable {waits} {left : List α} {a b : α}

theorem mem_ready : a ∈ ready waits left ↔ a ∈ left ∧ ∀ b ∈ left, ¬ waits a b := by
  simp [ready]

theorem mem_blocked : a ∈ blocked waits left ↔ a ∈ left ∧ ∃ b ∈ left, waits a b := by
  simp [blocked]

theorem ready_append_blocked (left : List α) :
    (ready waits left ++ blocked waits left).Perm left := by
  have hnot : blocked waits left =
      left.filter fun a => !decide (∀ b ∈ left, ¬ waits a b) := by
    unfold blocked
    refine List.filter_congr fun a _ => ?_
    rw [← decide_not, decide_eq_decide]
    push Not
    rfl
  rw [hnot]
  exact List.filter_append_perm (fun a => decide (∀ b ∈ left, ¬ waits a b)) left

theorem length_blocked_lt (h : ready waits left ≠ []) :
    (blocked waits left).length < left.length := by
  have hlength := (@ready_append_blocked _ waits _ left).length_eq
  have hpos := List.length_pos_of_ne_nil h
  rw [List.length_append] at hlength
  omega

variable (waits) in
/-- One layer after the other. -/
def layers (left : List α) : Option (List (List α)) :=
  if left = [] then some []
  else if ready waits left = [] then none
  else (layers (blocked waits left)).map (ready waits left :: ·)
termination_by left.length
decreasing_by exact length_blocked_lt ‹_›

theorem layers_nil : layers waits [] = some [] := by
  rw [layers]
  simp

theorem layers_stuck (hleft : left ≠ []) (h : ready waits left = []) :
    layers waits left = none := by
  rw [layers]
  simp [hleft, h]

theorem layers_next (h : ready waits left ≠ []) :
    layers waits left = (layers waits (blocked waits left)).map (ready waits left :: ·) := by
  have hleft : left ≠ [] := by
    rintro rfl
    exact h rfl
  rw [layers]
  simp [hleft, h]

/-! ## What the layers are -/

theorem layers_perm {ls : List (List α)} (h : layers waits left = some ls) :
    ls.flatten.Perm left := by
  induction left using layers.induct waits generalizing ls with
  | case1 =>
    rw [layers_nil] at h
    rw [← Option.some.inj h]
    exact List.Perm.nil
  | case2 left hleft hstuck =>
    rw [layers_stuck hleft hstuck] at h
    cases h
  | case3 left _ hready ih =>
    rw [layers_next hready, Option.map_eq_some_iff] at h
    obtain ⟨ls', hls', rfl⟩ := h
    exact ((ih hls').append_left _).trans (ready_append_blocked left)

/-- What a node waits for stands in an earlier layer. -/
theorem layers_after {ls before after : List (List α)} {layer : List α}
    (h : layers waits left = some ls) (hsplit : ls = before ++ layer :: after) (ha : a ∈ layer)
    (hb : b ∈ left) (hwaits : waits a b) : b ∈ before.flatten := by
  induction left using layers.induct waits generalizing ls before with
  | case1 => exact absurd hb List.not_mem_nil
  | case2 left hleft hstuck =>
    rw [layers_stuck hleft hstuck] at h
    cases h
  | case3 left _ hready ih =>
    rw [layers_next hready, Option.map_eq_some_iff] at h
    obtain ⟨ls', hls', rfl⟩ := h
    cases before with
    | nil =>
      -- the first layer waits for nothing
      obtain ⟨rfl, -⟩ := List.cons.inj hsplit
      exact absurd hwaits ((mem_ready.mp ha).2 b hb)
    | cons first before =>
      obtain ⟨rfl, htail⟩ := List.cons.inj hsplit
      rw [List.flatten_cons, List.mem_append]
      by_cases hfirst : ∀ c ∈ left, ¬ waits b c
      · exact Or.inl (mem_ready.mpr ⟨hb, hfirst⟩)
      · push Not at hfirst
        exact Or.inr (ih hls' htail (mem_blocked.mpr ⟨hb, hfirst⟩))

/-! ## When there are layers -/

/-- Within the list, `a` waits for `b`. -/
def WaitsIn (waits : α → α → Prop) (left : List α) (a b : α) : Prop :=
  a ∈ left ∧ b ∈ left ∧ waits a b

theorem WaitsIn.blocked (h : WaitsIn waits left a b) : a ∈ blocked waits left :=
  mem_blocked.mpr ⟨h.1, b, h.2⟩

/-- A cycle stays in the list: each of its nodes waits for the next. -/
theorem cycle_blocked (h : TransGen (WaitsIn waits left) a a) :
    TransGen (WaitsIn waits (blocked waits left)) a a := by
  -- along a path every node but the last is blocked
  have hpath : ∀ {c}, TransGen (WaitsIn waits left) a c → c ∈ blocked waits left →
      TransGen (WaitsIn waits (blocked waits left)) a c := by
    intro c hac
    induction hac with
    | single hstep => exact fun hc => .single ⟨hstep.blocked, hc, hstep.2.2⟩
    | tail _ hstep ih => exact fun hc => (ih hstep.blocked).tail ⟨hstep.blocked, hc, hstep.2.2⟩
  obtain ⟨c, hstep, -⟩ := TransGen.head'_iff.mp h
  exact hpath h hstep.blocked

theorem layers_of_cycle (h : TransGen (WaitsIn waits left) a a) : layers waits left = none := by
  induction left using layers.induct waits with
  | case1 =>
    obtain ⟨c, hstep, -⟩ := TransGen.head'_iff.mp h
    exact absurd hstep.1 List.not_mem_nil
  | case2 left hleft hstuck => exact layers_stuck hleft hstuck
  | case3 left _ hready ih => rw [layers_next hready, ih (cycle_blocked h), Option.map_none]

/-- A list in which every node waits for another has a cycle: without one the relation
would have a last node. -/
theorem cycle_of_stuck (hleft : left ≠ []) (h : ready waits left = []) :
    ∃ a, TransGen (WaitsIn waits left) a a := by
  by_contra hacyclic
  push Not at hacyclic
  let after (x y : {c // c ∈ left}) : Prop := TransGen (WaitsIn waits left) y.1 x.1
  have hfinite : Finite {c // c ∈ left} := List.finite_toSet left
  have htrans : IsTrans _ after := ⟨fun _ _ _ hxy hyz => hyz.trans hxy⟩
  have hirrefl : Std.Irrefl after := ⟨fun x => hacyclic x.1⟩
  obtain ⟨c, hc⟩ := List.exists_mem_of_ne_nil left hleft
  obtain ⟨last, -, hlast⟩ :=
    (Finite.wellFounded_of_trans_of_irrefl after).has_min Set.univ ⟨⟨c, hc⟩, trivial⟩
  have hwaits : ∃ b ∈ left, waits last.1 b := by
    by_contra hnone
    push Not at hnone
    have hmem := mem_ready.mpr ⟨last.2, hnone⟩
    rw [h] at hmem
    exact absurd hmem List.not_mem_nil
  obtain ⟨b, hb, hstep⟩ := hwaits
  exact hlast ⟨b, hb⟩ trivial (.single ⟨last.2, hb, hstep⟩)

theorem layers_isSome_iff :
    (layers waits left).isSome = true ↔ ∀ a, ¬ TransGen (WaitsIn waits left) a a := by
  constructor
  · intro h a hcycle
    rw [layers_of_cycle hcycle] at h
    cases h
  · intro h
    induction left using layers.induct waits with
    | case1 => rw [layers_nil]; rfl
    | case2 left hleft hstuck =>
      obtain ⟨a, hcycle⟩ := cycle_of_stuck hleft hstuck
      exact absurd hcycle (h a)
    | case3 left _ hready ih =>
      rw [layers_next hready, Option.isSome_map]
      refine ih fun a hcycle => h a (TransGen.mono (fun x y hstep => ?_) _ _ hcycle)
      exact ⟨(mem_blocked.mp hstep.1).1, (mem_blocked.mp hstep.2.1).1, hstep.2.2⟩

end LocalRag.Core
