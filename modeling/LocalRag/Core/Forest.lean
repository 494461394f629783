import Mathlib.Data.List.Nodup
import Mathlib.Data.List.Perm.Subperm

/-!
# Walks in a forest of parent links

A recursive query over a `parent` column is a walk: up from a row (`climb`) or
down from one (`descend`). Both are written here with a fuel argument, over an
arbitrary parent function, so that they evaluate; the point of this file is
that the fuel is not part of their meaning.

`Ranked next l` says that the links of `l` stay in `l` and strictly decrease
some rank — no cycle. Under it the walk from a member of `l` visits distinct
members, so it ends within `l.length` links (`Ranked.ends`, the pigeonhole),
more fuel changes nothing (`climb_eq`), and membership in a walk is plain
reachability (`Ranked.mem_climb`). `mem_descend` says the downward walk lists
every node together with the number of links it lies below the root.
-/

namespace LocalRag.Core

open Relation

variable {α : Type*}

/-- `a` and the nodes `next` leads to from it, at most `fuel` links. -/
def climb (next : α → Option α) : Nat → α → List α
  | 0, a => [a]
  | fuel + 1, a => a :: (match next a with
    | none => []
    | some b => climb next fuel b)

/-- `next` leads from `a` to `b` in some number of links. -/
def Reaches (next : α → Option α) : α → α → Prop :=
  ReflTransGen fun x y => next x = some y

/-- The walk from `a` is over after at most `k` links. -/
def Ends (next : α → Option α) : Nat → α → Prop
  | 0, a => next a = none
  | k + 1, a => ∀ b, next a = some b → Ends next k b

/-- Links out of `l` stay in `l` and lower the rank: a finite forest. -/
structure Ranked (next : α → Option α) (l : List α) (rank : α → Nat) : Prop where
  mem : ∀ a ∈ l, ∀ b, next a = some b → b ∈ l
  lt : ∀ a ∈ l, ∀ b, next a = some b → rank b < rank a

/-! ## Climbing -/

theorem self_mem_climb (next : α → Option α) (fuel : Nat) (a : α) : a ∈ climb next fuel a := by
  cases fuel <;> simp [climb]

variable {a : α}

theorem climb_succ_none {next : α → Option α} (h : next a = none) (fuel : Nat) :
    climb next fuel a = [a] := by
  cases fuel <;> simp [climb, h]

variable {b : α}

theorem climb_succ_some {next : α → Option α} (h : next a = some b) (fuel : Nat) :
    climb next (fuel + 1) a = a :: climb next fuel b := by
  simp [climb, h]

/-- Everything on the walk is reachable, whatever the fuel. -/
theorem reaches_of_mem_climb {next : α → Option α} :
    ∀ {fuel : Nat} {a : α}, b ∈ climb next fuel a → Reaches next a b
  | 0, a, h => by
    rw [climb, List.mem_singleton] at h
    exact h ▸ ReflTransGen.refl
  | fuel + 1, a, h => by
    cases hn : next a with
    | none =>
      rw [climb_succ_none hn, List.mem_singleton] at h
      exact h ▸ ReflTransGen.refl
    | some c =>
      rw [climb_succ_some hn, List.mem_cons] at h
      rcases h with rfl | h
      · exact ReflTransGen.refl
      · exact ReflTransGen.head hn (reaches_of_mem_climb h)

/-- Enough fuel: the walk lists everything reachable. -/
theorem mem_climb_of_reaches {next : α → Option α} :
    ∀ {k : Nat} {a : α}, Ends next k a → ∀ {fuel : Nat}, k ≤ fuel → Reaches next a b →
      b ∈ climb next fuel a
  | k, a, he, fuel, hk, h => by
    rcases ReflTransGen.cases_head h with rfl | ⟨c, hn, hc⟩
    · exact self_mem_climb next fuel _
    · cases k with
      | zero => exact absurd hn (by rw [show next a = none from he]; simp)
      | succ k =>
        obtain ⟨fuel, rfl⟩ : ∃ m, fuel = m + 1 := ⟨fuel - 1, by omega⟩
        rw [climb_succ_some hn]
        exact List.mem_cons_of_mem _ (mem_climb_of_reaches (he c hn) (by omega) hc)

/-- Fuel beyond the end of the walk changes nothing. -/
theorem climb_eq {next : α → Option α} :
    ∀ {k : Nat} {a : α}, Ends next k a → ∀ {fuel : Nat}, k ≤ fuel →
      climb next fuel a = climb next k a
  | 0, a, he, fuel, _ => by
    rw [climb_succ_none he, climb_succ_none he]
  | k + 1, a, he, fuel, hk => by
    obtain ⟨fuel, rfl⟩ : ∃ m, fuel = m + 1 := ⟨fuel - 1, by omega⟩
    cases hn : next a with
    | none => rw [climb_succ_none hn, climb_succ_none hn]
    | some b =>
      rw [climb_succ_some hn, climb_succ_some hn, climb_eq (he b hn) (by omega)]

/-- A walk that ends and lists at most `m + 1` nodes ends within `m` links. -/
theorem ends_of_length {next : α → Option α} :
    ∀ {k : Nat} {a : α} {m : Nat}, Ends next k a → (climb next k a).length ≤ m + 1 →
      Ends next m a
  | 0, a, m, he, _ => by
    cases m with
    | zero => exact he
    | succ m =>
      intro b hb
      exact absurd hb (by rw [show next a = none from he]; simp)
  | k + 1, a, m, he, hlen => by
    cases hn : next a with
    | none =>
      cases m with
      | zero => exact hn
      | succ m =>
        intro b hb
        exact absurd hb (by rw [hn]; simp)
    | some b =>
      rw [climb_succ_some hn, List.length_cons] at hlen
      have hpos : 0 < (climb next k b).length :=
        List.length_pos_of_mem (self_mem_climb next k b)
      obtain ⟨m, rfl⟩ : ∃ j, m = j + 1 := ⟨m - 1, by omega⟩
      intro c hc
      obtain rfl : b = c := by simpa [hn] using hc
      exact ends_of_length (he b hn) (by omega)

/-- A walk that stopped before its fuel ran out had nowhere to go. -/
theorem ends_of_length_le {next : α → Option α} :
    ∀ {fuel : Nat} {a : α}, (climb next fuel a).length ≤ fuel → Ends next fuel a
  | 0, a, h => by
    rw [climb, List.length_singleton] at h
    omega
  | fuel + 1, a, h => by
    intro b hb
    rw [climb_succ_some hb, List.length_cons] at h
    exact ends_of_length_le (by omega)

/-- Two parent functions that agree on what is reachable reach the same. -/
theorem reaches_congr {next next' : α → Option α} {c : α}
    (h : ∀ b, Reaches next a b → next' b = next b) : Reaches next' a c ↔ Reaches next a c := by
  constructor
  · intro hr
    induction hr with
    | refl => exact ReflTransGen.refl
    | tail _ hbc ih => exact ReflTransGen.tail ih ((h _ ih).symm.trans hbc)
  · intro hr
    induction hr with
    | refl => exact ReflTransGen.refl
    | tail hab hbc ih => exact ReflTransGen.tail ih ((h _ hab).trans hbc)

/-! ## Finite forests -/

namespace Ranked

variable {next : α → Option α} {l : List α} {rank : α → Nat}

theorem reaches_mem (h : Ranked next l rank) (ha : a ∈ l) (hr : Reaches next a b) : b ∈ l := by
  induction hr with
  | refl => exact ha
  | tail _ hbc ih => exact h.mem _ ih _ hbc

/-- Reachability never raises the rank. -/
theorem rank_le (h : Ranked next l rank) (ha : a ∈ l) (hr : Reaches next a b) :
    rank b ≤ rank a := by
  induction hr with
  | refl => exact Nat.le_refl _
  | tail hab hbc ih =>
    exact Nat.le_trans (Nat.le_of_lt (h.lt _ (h.reaches_mem ha hab) _ hbc)) ih

theorem climb_subset (h : Ranked next l rank) (ha : a ∈ l) (fuel : Nat) : climb next fuel a ⊆ l :=
  fun _ hb => h.reaches_mem ha (reaches_of_mem_climb hb)

/-- The walk's ranks strictly decrease, so it repeats no node. -/
theorem climb_nodup (h : Ranked next l rank) :
    ∀ {fuel : Nat} {a : α}, a ∈ l → (climb next fuel a).Nodup
  | 0, a, _ => List.nodup_singleton a
  | fuel + 1, a, ha => by
    cases hn : next a with
    | none => rw [climb_succ_none hn]; exact List.nodup_singleton a
    | some b =>
      rw [climb_succ_some hn, List.nodup_cons]
      refine ⟨fun hmem => ?_, h.climb_nodup (h.mem a ha b hn)⟩
      have hle := h.rank_le (h.mem a ha b hn) (reaches_of_mem_climb hmem)
      have hlt := h.lt a ha b hn
      omega

/-- A member's walk ends within its rank. -/
theorem ends_rank (h : Ranked next l rank) :
    ∀ {k : Nat} {a : α}, a ∈ l → rank a ≤ k → Ends next k a
  | 0, a, ha, hk => by
    cases hn : next a with
    | none => exact hn
    | some b => have := h.lt a ha b hn; omega
  | k + 1, a, ha, hk => fun b hb =>
    h.ends_rank (h.mem a ha b hb) (by have := h.lt a ha b hb; omega)

/-- The pigeonhole: a member's walk ends within the number of members. -/
theorem ends (h : Ranked next l rank) (ha : a ∈ l) : Ends next l.length a := by
  have he := h.ends_rank ha (Nat.le_refl (rank a))
  have hnd : (climb next (rank a) a).Nodup := h.climb_nodup ha
  have hle := (List.subperm_of_subset hnd (h.climb_subset ha (rank a))).length_le
  exact ends_of_length he (by omega)

/-- Being on the walk is being reachable. -/
theorem mem_climb (h : Ranked next l rank) (ha : a ∈ l) {fuel : Nat} (hf : l.length ≤ fuel) :
    b ∈ climb next fuel a ↔ Reaches next a b :=
  ⟨reaches_of_mem_climb, mem_climb_of_reaches (h.ends ha) hf⟩

theorem climb_fuel (h : Ranked next l rank) (ha : a ∈ l) {fuel fuel' : Nat} (hf : l.length ≤ fuel)
    (hf' : l.length ≤ fuel') : climb next fuel a = climb next fuel' a :=
  (climb_eq (h.ends ha) hf).trans (climb_eq (h.ends ha) hf').symm

end Ranked

/-! ## Descending -/

/-- `b` lies exactly `k` links below `a`. -/
def Below (next : α → Option α) : Nat → α → α → Prop
  | 0, b, a => b = a
  | k + 1, b, a => ∃ c, Below next k b c ∧ next c = some a

/-- The frontier and everything under it, each node with its depth, at most
`fuel` levels down. -/
def descend (children : α → List α) : Nat → Nat → List α → List (α × Nat)
  | 0, depth, frontier => frontier.map fun a => (a, depth)
  | fuel + 1, depth, frontier =>
    frontier.map (fun a => (a, depth)) ++
      descend children fuel (depth + 1) (frontier.flatMap children)

variable {children : α → List α}

variable {k : Nat}

/-- The downward walk lists each node with the number of links it lies below
the frontier; `children` has to be the inverse of `next` on `l` only. -/
theorem mem_descend {next : α → Option α} {l : List α}
    (hc : ∀ a ∈ l, ∀ b, b ∈ children a ↔ next b = some a) (hl : ∀ a ∈ l, ∀ b ∈ children a, b ∈ l) :
    ∀ {fuel depth : Nat} {frontier : List α}, frontier ⊆ l →
      ((b, k) ∈ descend children fuel depth frontier ↔
        ∃ j ≤ fuel, k = depth + j ∧ ∃ a ∈ frontier, Below next j b a)
  | 0, depth, frontier, _ => by
    simp only [descend, List.mem_map, Prod.mk.injEq, Nat.le_zero_eq]
    constructor
    · rintro ⟨a, ha, rfl, rfl⟩
      exact ⟨0, rfl, rfl, a, ha, rfl⟩
    · rintro ⟨j, rfl, rfl, a, ha, rfl⟩
      exact ⟨b, ha, rfl, rfl⟩
  | fuel + 1, depth, frontier, hf => by
    have hf' : frontier.flatMap children ⊆ l := by
      intro c hcm
      obtain ⟨a, ha, hca⟩ := List.mem_flatMap.mp hcm
      exact hl a (hf ha) c hca
    rw [descend, List.mem_append, mem_descend hc hl hf']
    constructor
    · rintro (hhere | ⟨j, hj, rfl, c, hcm, hb⟩)
      · obtain ⟨a, ha, heq⟩ := List.mem_map.mp hhere
        obtain ⟨rfl, rfl⟩ := Prod.mk.injEq .. ▸ heq
        exact ⟨0, by omega, rfl, a, ha, rfl⟩
      · obtain ⟨a, ha, hca⟩ := List.mem_flatMap.mp hcm
        exact ⟨j + 1, by omega, by omega, a, ha, c, hb, (hc a (hf ha) c).mp hca⟩
    · rintro ⟨j, hj, rfl, a, ha, hb⟩
      cases j with
      | zero => exact Or.inl (List.mem_map.mpr ⟨a, ha, by rw [show b = a from hb]; rfl⟩)
      | succ j =>
        obtain ⟨c, hbc, hca⟩ := hb
        exact Or.inr ⟨j, by omega, by omega, c,
          List.mem_flatMap.mpr ⟨a, ha, (hc a (hf ha) c).mpr hca⟩, hbc⟩

theorem mem_descend_frontier :
    ∀ {fuel depth : Nat} {frontier : List α}, a ∈ frontier →
      (a, depth) ∈ descend children fuel depth frontier
  | 0, _, _, h => List.mem_map_of_mem h
  | _ + 1, _, _, h => List.mem_append_left _ (List.mem_map_of_mem h)

/-- With fuel left, the children of a listed node are listed one level down. -/
theorem mem_descend_child (hb : b ∈ children a) :
    ∀ {fuel depth : Nat} {frontier : List α}, (a, k) ∈ descend children fuel depth frontier →
      k < depth + fuel → (b, k + 1) ∈ descend children fuel depth frontier
  | 0, depth, frontier, h, hk => by
    obtain ⟨c, _, heq⟩ := List.mem_map.mp h
    obtain ⟨_, rfl⟩ := Prod.mk.injEq .. ▸ heq
    omega
  | fuel + 1, depth, frontier, h, hk => by
    rw [descend, List.mem_append] at h ⊢
    rcases h with h | h
    · obtain ⟨c, hc, heq⟩ := List.mem_map.mp h
      obtain ⟨rfl, rfl⟩ := Prod.mk.injEq .. ▸ heq
      exact Or.inr (mem_descend_frontier (List.mem_flatMap.mpr ⟨c, hc, hb⟩))
    · exact Or.inr (mem_descend_child hb h (by omega))

/-- What holds of the frontier and passes from a node to its children holds of
everything listed. -/
theorem descend_inv (P : α → Prop) (hstep : ∀ a, P a → ∀ b ∈ children a, P b) :
    ∀ {fuel depth : Nat} {frontier : List α}, (∀ a ∈ frontier, P a) →
      (b, k) ∈ descend children fuel depth frontier → P b
  | 0, _, _, hf, h => by
    obtain ⟨c, hc, heq⟩ := List.mem_map.mp h
    obtain ⟨rfl, _⟩ := Prod.mk.injEq .. ▸ heq
    exact hf c hc
  | fuel + 1, depth, frontier, hf, h => by
    rw [descend, List.mem_append] at h
    rcases h with h | h
    · obtain ⟨c, hc, heq⟩ := List.mem_map.mp h
      obtain ⟨rfl, _⟩ := Prod.mk.injEq .. ▸ heq
      exact hf c hc
    · refine descend_inv P hstep (fun a ha => ?_) h
      obtain ⟨c, hc, hac⟩ := List.mem_flatMap.mp ha
      exact hstep c (hf c hc) a hac

theorem Below.reaches {next : α → Option α} :
    ∀ {k : Nat} {b a : α}, Below next k b a → Reaches next b a
  | 0, _, _, h => h ▸ ReflTransGen.refl
  | _ + 1, _, _, ⟨_, hbc, hca⟩ => hbc.reaches.tail hca

theorem exists_below_of_reaches {next : α → Option α} (h : Reaches next b a) :
    ∃ k, Below next k b a := by
  induction h with
  | refl => exact ⟨0, rfl⟩
  | tail _ hca ih =>
    obtain ⟨k, hk⟩ := ih
    exact ⟨k + 1, _, hk, hca⟩

/-- The same relation, decomposed at the bottom link. -/
theorem below_succ_iff {next : α → Option α} :
    ∀ {k : Nat} {b a : α}, Below next (k + 1) b a ↔ ∃ c, next b = some c ∧ Below next k c a
  | 0, b, a => by
    simp only [Below]
    constructor
    · rintro ⟨c, rfl, hc⟩
      exact ⟨a, hc, rfl⟩
    · rintro ⟨c, hc, rfl⟩
      exact ⟨b, rfl, hc⟩
  | k + 1, b, a => by
    constructor
    · rintro ⟨d, hbd, hda⟩
      obtain ⟨c, hbc, hcd⟩ := below_succ_iff.mp hbd
      exact ⟨c, hbc, d, hcd, hda⟩
    · rintro ⟨c, hbc, d, hcd, hda⟩
      exact ⟨d, below_succ_iff.mpr ⟨c, hbc, hcd⟩, hda⟩

/-- A walk that ends within `m` links cannot be climbed further than that. -/
theorem Below.le_of_ends {next : α → Option α} :
    ∀ {k m : Nat} {b a : α}, Below next k b a → Ends next m b → k ≤ m
  | 0, _, _, _, _, _ => Nat.zero_le _
  | k + 1, m, b, a, h, he => by
    obtain ⟨c, hbc, hca⟩ := below_succ_iff.mp h
    cases m with
    | zero => exact absurd hbc (by rw [show next b = none from he]; simp)
    | succ m => exact Nat.succ_le_succ (hca.le_of_ends (he c hbc))

end LocalRag.Core
