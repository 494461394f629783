import LocalRag.Core.Run

/-!
# What a call may raise

A call that is an `Except` raises one thing or returns. `Only P x` says that whatever `x`
raises is of the kind `P`, and the rules say it of a body statement by statement: each rule is
an equivalence, and a later statement counts only where the earlier ones returned. So a
body of many statements raises nothing else exactly when no statement that is reached does.
-/

namespace LocalRag.Core

variable {ε α β : Type}

/-- Whatever the call raises is of this kind. -/
def Only (P : ε → Prop) (x : Except ε α) : Prop := ∀ e, x = .error e → P e

/-- The call returned. -/
def Returns (x : Except ε α) : Prop := ∃ a, x = .ok a

variable {P : ε → Prop} {x : Except ε α} {f : α → Except ε β}

@[simp] theorem only_ok (a : α) : Only P (.ok a : Except ε α) := by
  intro e h
  cases h

@[simp] theorem only_error {e : ε} : Only P (.error e : Except ε α) ↔ P e := by
  refine ⟨fun h => h e rfl, fun h e' he => ?_⟩
  obtain rfl := Except.error.inj he
  exact h

@[simp] theorem returns_ok (a : α) : Returns (.ok a : Except ε α) := ⟨a, rfl⟩

@[simp] theorem not_returns_error (e : ε) : ¬ Returns (.error e : Except ε α) := by
  rintro ⟨a, h⟩
  cases h

/-- Two statements: the second is reached where the first returned. -/
theorem only_bind : Only P (x >>= f) ↔ Only P x ∧ ∀ a, x = .ok a → Only P (f a) := by
  cases x with
  | error e => simp [bind, Except.bind]
  | ok a => simp [bind, Except.bind]

theorem only_map {g : α → β} : Only P (x.map g) ↔ Only P x := by
  cases x with
  | error e => simp [Except.map]
  | ok a => simp [Except.map]

/-- `if c: raise e`, in front of the rest. -/
theorem only_guard {c : Prop} [Decidable c] {e : ε} :
    Only P (if c then .error e else x) ↔ (c → P e) ∧ (¬ c → Only P x) := by
  by_cases hc : c
  · simp [hc]
  · simp [hc]

/-- A loop: a turn is reached where every earlier one returned. -/
theorem only_mapM {xs : List α} : Only P (xs.mapM f) ↔ ∀ front a back,
    xs = front ++ a :: back → (∀ b ∈ front, Returns (f b)) → Only P (f a) := by
  induction xs with
  | nil =>
    refine iff_of_true (only_ok _) fun front a back h => ?_
    exact absurd h (by simp)
  | cons a xs ih =>
    rw [List.mapM_cons, only_bind]
    constructor
    · rintro ⟨hfirst, hrest⟩ front b back hsplit hfront
      cases front with
      | nil =>
        obtain ⟨rfl, rfl⟩ := List.cons.inj hsplit
        exact hfirst
      | cons a' front =>
        obtain ⟨rfl, rfl⟩ := List.cons.inj hsplit
        obtain ⟨y, hy⟩ := hfront a List.mem_cons_self
        have hloop := (only_bind.mp (hrest y hy)).1
        exact ih.mp hloop front b back rfl fun c hc => hfront c (List.mem_cons_of_mem _ hc)
    · intro h
      refine ⟨h [] a xs rfl (List.forall_mem_nil _), fun y hy => only_bind.mpr ⟨?_, fun ys _ => ?_⟩⟩
      · refine ih.mpr fun front b back hsplit hfront => ?_
        refine h (a :: front) b back (congrArg (a :: ·) hsplit) ?_
        exact List.forall_mem_cons.mpr ⟨⟨y, hy⟩, hfront⟩
      · exact only_ok _

theorem only_forM {f : α → Except ε Unit} {xs : List α} (h : ∀ a ∈ xs, Only P (f a)) :
    Only P (xs.forM f) := by
  induction xs with
  | nil => exact only_ok _
  | cons a xs ih =>
    rw [List.forM, only_bind]
    exact ⟨h a List.mem_cons_self, fun _ _ => ih fun b hb => h b (List.mem_cons_of_mem _ hb)⟩

end LocalRag.Core
