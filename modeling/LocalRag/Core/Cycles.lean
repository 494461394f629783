import Mathlib.Data.List.Nodup
import Mathlib.Data.List.Perm.Subperm

/-!
# Walks that notice a cycle — a loop that remembers where it has been

A loop follows links from a node until something stops it, notes every node it passes and
raises when it comes to one it has noted. `walk` is that loop with a fuel argument, for any
links and any reason to stop.

Theorems:
- `walk_ne_unfinished`: with more fuel than there are nodes to leave, the loop ends, whatever
  the links are.
- `walk_stopped`, `walk_cyclic`: it stops where its path stops, and raises only on a path that
  never does (`Endless`); `walk_cases` puts the three together.
-/

namespace LocalRag.Core

open Relation

/-- What a walk does at a node. -/
inductive Visit (α β : Type*) where
  | stop (result : β)
  | go (next : α)

/-- How a walk ends; `unfinished` is no end. -/
inductive Walked (β : Type*) where
  | stopped (result : β)
  | cyclic
  | unfinished
deriving Repr, DecidableEq

variable {α β : Type*}

/-- The nodes from `a` on, up to where the visit stops or a node of `seen` comes again. -/
def walk [DecidableEq α] (visit : α → Visit α β) : Nat → List α → α → Walked β
  | 0, _, _ => .unfinished
  | fuel + 1, seen, a =>
    if a ∈ seen then .cyclic
    else
      match visit a with
      | .stop result => .stopped result
      | .go next => walk visit fuel (seen ++ [a]) next

/-- The walk goes on from `a` to `b`. -/
def GoesTo (visit : α → Visit α β) (a b : α) : Prop := visit a = .go b

/-- Nothing on the way from `a` stops the walk. -/
def Endless (visit : α → Visit α β) (a : α) : Prop :=
  ∀ c, ReflTransGen (GoesTo visit) a c → ∃ d, visit c = .go d

variable {a : α}

variable {c : α}

theorem goesTo_unique {visit : α → Visit α β} {b : α} (hb : GoesTo visit a b)
    (hc : GoesTo visit a c) : b = c :=
  Visit.go.inj (hb.symm.trans hc)

/-! ## A path that comes back -/

/-- From a node that comes back to itself every path comes back to it. -/
theorem comes_back {visit : α → Visit α β} (hcycle : TransGen (GoesTo visit) a a)
    (hc : ReflTransGen (GoesTo visit) a c) : ReflTransGen (GoesTo visit) c a := by
  have hback : ∀ d, GoesTo visit a d → ReflTransGen (GoesTo visit) d a := by
    intro d hd
    obtain ⟨e, he, hrest⟩ := TransGen.head'_iff.mp hcycle
    rw [goesTo_unique hd he]
    exact hrest
  induction hc with
  | refl => exact ReflTransGen.refl
  | tail _ hcd ih =>
    cases ReflTransGen.cases_head ih with
    | inl heq =>
      subst heq
      exact hback _ hcd
    | inr hstep =>
      obtain ⟨e, he, hrest⟩ := hstep
      rw [goesTo_unique hcd he]
      exact hrest

theorem endless_of_cycle {visit : α → Visit α β} (hcycle : TransGen (GoesTo visit) a a) :
    Endless visit a := by
  intro c hc
  cases ReflTransGen.cases_head (comes_back hcycle hc) with
  | inl heq =>
    subst heq
    obtain ⟨e, he, -⟩ := TransGen.head'_iff.mp hcycle
    exact ⟨e, he⟩
  | inr hstep =>
    obtain ⟨e, he, -⟩ := hstep
    exact ⟨e, he⟩

theorem endless_step {visit : α → Visit α β} {b : α} (hab : GoesTo visit a b)
    (h : Endless visit b) : Endless visit a := by
  intro c hc
  cases ReflTransGen.cases_head hc with
  | inl heq =>
    subst heq
    exact ⟨b, hab⟩
  | inr hstep =>
    obtain ⟨d, hd, hrest⟩ := hstep
    rw [goesTo_unique hd hab] at hrest
    exact h c hrest

variable {result : β}

/-- There is one place where a path stops. -/
theorem stop_unique {visit : α → Visit α β} {d : α} {result' : β}
    (hc : ReflTransGen (GoesTo visit) a c) (hresult : visit c = .stop result)
    (hd : ReflTransGen (GoesTo visit) a d) (hresult' : visit d = .stop result') :
    result = result' := by
  have hstays : ∀ x y r, visit x = .stop r → ReflTransGen (GoesTo visit) x y → x = y := by
    intro x y r hx hxy
    cases ReflTransGen.cases_head hxy with
    | inl heq => exact heq
    | inr hstep =>
      obtain ⟨z, hz, -⟩ := hstep
      exact absurd (hx.symm.trans hz) (by simp)
  have heq : c = d := by
    have hunique : Relator.RightUnique (GoesTo visit) := fun _ _ _ => goesTo_unique
    cases ReflTransGen.total_of_right_unique hunique hc hd with
    | inl hcd => exact hstays c d result hresult hcd
    | inr hdc => exact (hstays d c result' hresult' hdc).symm
  subst heq
  exact Visit.stop.inj (hresult.symm.trans hresult')

/-! ## What the loop does -/

section Walk

variable [DecidableEq α] {visit : α → Visit α β}

variable {fuel : Nat} {seen : List α}

theorem walk_go {next : α} (ha : a ∉ seen) (hnext : visit a = .go next) :
    walk visit (fuel + 1) seen a = walk visit fuel (seen ++ [a]) next := by
  rw [walk, if_neg ha, hnext]

/-- The nodes that are left lie in `l`: the loop ends before it has noted more than `l` has. -/
theorem walk_ne_unfinished {l : List α} (hleft : ∀ a b, visit a = .go b → a ∈ l)
    (hnodup : seen.Nodup) (hseen : seen ⊆ l) (hfuel : l.length < fuel + seen.length) :
    walk visit fuel seen a ≠ .unfinished := by
  induction fuel generalizing seen a with
  | zero =>
    have hle := (List.subperm_of_subset hnodup hseen).length_le
    omega
  | succ fuel ih =>
    by_cases ha : a ∈ seen
    · rw [walk, if_pos ha]
      simp
    cases hvisit : visit a with
    | stop result =>
      rw [walk, if_neg ha, hvisit]
      simp
    | go next =>
      rw [walk_go ha hvisit]
      refine ih ?_ ?_ ?_
      · rw [List.nodup_append]
        refine ⟨hnodup, List.nodup_singleton a, ?_⟩
        intro b hb c hc heq
        rw [List.mem_singleton] at hc
        rw [heq, hc] at hb
        exact ha hb
      · exact List.append_subset.mpr ⟨hseen, by simpa using hleft a next hvisit⟩
      · rw [List.length_append, List.length_singleton]
        omega

/-- It stops where the path stops. -/
theorem walk_stopped (h : walk visit fuel seen a = .stopped result) :
    ∃ c, ReflTransGen (GoesTo visit) a c ∧ visit c = .stop result := by
  induction fuel generalizing seen a with
  | zero => exact absurd h (by simp [walk])
  | succ fuel ih =>
    by_cases ha : a ∈ seen
    · rw [walk, if_pos ha] at h
      exact absurd h (by simp)
    cases hvisit : visit a with
    | stop result' =>
      rw [walk, if_neg ha, hvisit] at h
      obtain rfl := Walked.stopped.inj h
      exact ⟨a, ReflTransGen.refl, hvisit⟩
    | go next =>
      rw [walk_go ha hvisit] at h
      obtain ⟨c, hc, hstop⟩ := ih h
      exact ⟨c, ReflTransGen.head hvisit hc, hstop⟩

/-- It raises where the path comes back. -/
theorem walk_cyclic (hseen : ∀ s ∈ seen, TransGen (GoesTo visit) s a)
    (h : walk visit fuel seen a = .cyclic) : Endless visit a := by
  induction fuel generalizing seen a with
  | zero => exact absurd h (by simp [walk])
  | succ fuel ih =>
    by_cases ha : a ∈ seen
    · exact endless_of_cycle (hseen a ha)
    cases hvisit : visit a with
    | stop result =>
      rw [walk, if_neg ha, hvisit] at h
      exact absurd h (by simp)
    | go next =>
      rw [walk_go ha hvisit] at h
      refine endless_step hvisit (ih ?_ h)
      intro s hs
      rw [List.mem_append, List.mem_singleton] at hs
      cases hs with
      | inl hs => exact (hseen s hs).tail hvisit
      | inr hs => exact hs ▸ TransGen.single hvisit

/-- A walk from nowhere, with enough fuel: it stops where its path does, or its path never
does and it raises. -/
theorem walk_cases {l : List α} (hleft : ∀ a b, visit a = .go b → a ∈ l) (a : α) :
    (∃ c result, walk visit (l.length + 1) [] a = .stopped result ∧
      ReflTransGen (GoesTo visit) a c ∧ visit c = .stop result) ∨
    (walk visit (l.length + 1) [] a = .cyclic ∧ Endless visit a) := by
  have hends : walk visit (l.length + 1) [] a ≠ .unfinished :=
    walk_ne_unfinished hleft List.nodup_nil (List.nil_subset l) (by rw [List.length_nil]; omega)
  cases hwalk : walk visit (l.length + 1) [] a with
  | unfinished => exact absurd hwalk hends
  | stopped result =>
    obtain ⟨c, hc, hstop⟩ := walk_stopped hwalk
    exact Or.inl ⟨c, result, rfl, hc, hstop⟩
  | cyclic => exact Or.inr ⟨rfl, walk_cyclic (fun s hs => absurd hs List.not_mem_nil) hwalk⟩

end Walk

/-! ## Links and walks

`link` is the relation the loop follows, where nothing stops it. -/

section Link

variable {visit : α → Visit α β} {link : α → α → Prop}

/-- Links whose start may also stop the walk for one reason: if the reason lies ahead on the
links, the walk stops for it. -/
theorem reaches_stop (hlink : ∀ a b, link a b → GoesTo visit a b ∨ visit a = .stop result)
    (h : ReflTransGen link a c) (hc : visit c = .stop result) :
    ∃ d, ReflTransGen (GoesTo visit) a d ∧ visit d = .stop result := by
  induction h using ReflTransGen.head_induction_on with
  | refl => exact ⟨c, ReflTransGen.refl, hc⟩
  | head hab _ ih =>
    obtain ⟨d, hd, hstop⟩ := ih
    cases hlink _ _ hab with
    | inl hgo => exact ⟨d, ReflTransGen.head hgo hd, hstop⟩
    | inr hstops => exact ⟨_, ReflTransGen.refl, hstops⟩

theorem reaches_of_goes (hgoes : ∀ a b, GoesTo visit a b → link a b)
    (h : ReflTransGen (GoesTo visit) a c) : ReflTransGen link a c :=
  ReflTransGen.mono hgoes _ _ h

/-- An endless walk passes everything the links lead to. -/
theorem endless_iff (link : α → α → Prop) (hgoes : ∀ a b, GoesTo visit a b → link a b)
    (hunique : ∀ a b c, link a b → link a c → b = c) :
    Endless visit a ↔ ∀ c, ReflTransGen link a c → ∃ d, visit c = .go d := by
  constructor
  · intro hendless c hc
    refine hendless c ?_
    induction hc with
    | refl => exact ReflTransGen.refl
    | tail _ hbc ih =>
      obtain ⟨d, hd⟩ := hendless _ ih
      rw [hunique _ _ _ hbc (hgoes _ _ hd)]
      exact ih.tail hd
  · intro h c hc
    exact h c (reaches_of_goes hgoes hc)

end Link

end LocalRag.Core
