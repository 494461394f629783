import Mathlib.Data.List.Forall2

/-!
# Runs of a transition system — one step lemma, one run lemma

Every result about "any sequence of calls" below has the same shape: a state,
a total `step`, and a property that one step keeps. `run` folds the step over
a list of actions and `Along` says that a per-step condition held in the state
each action was applied to, so that `run_inv` is the only induction over
histories in the development.

A call that can fail is a transaction: `commit` keeps the state the call
returned, or the old one when it raised.
-/

namespace LocalRag.Core

variable {σ α ε ρ : Type*}

/-- The state after the actions `as`, taken in order from `s`. -/
def run (step : σ → α → σ) (s : σ) (as : List α) : σ := as.foldl step s

@[simp] theorem run_nil (step : σ → α → σ) (s : σ) : run step s [] = s := rfl

@[simp] theorem run_cons (step : σ → α → σ) (s : σ) (a : α) (as : List α) :
    run step s (a :: as) = run step (step s a) as := rfl

theorem run_append (step : σ → α → σ) (s : σ) (as bs : List α) :
    run step s (as ++ bs) = run step (run step s as) bs :=
  List.foldl_append

/-- Every action of the run met `ok` in the state it was applied to. -/
def Along (step : σ → α → σ) (ok : σ → α → Prop) : σ → List α → Prop
  | _, [] => True
  | s, a :: as => ok s a ∧ Along step ok (step s a) as

variable {step : σ → α → σ} {ok : σ → α → Prop} {s : σ} {as : List α}

theorem along_append {bs : List α} :
    Along step ok s (as ++ bs) ↔ Along step ok s as ∧ Along step ok (run step s as) bs := by
  induction as generalizing s with
  | nil => exact ⟨fun h => ⟨trivial, h⟩, fun h => h.2⟩
  | cons a as ih =>
    rw [List.cons_append, Along, ih, Along, and_assoc]
    rfl

/-- `Along` is decidable when the condition is, so a concrete run can be checked. -/
instance decidableAlong (step : σ → α → σ) (ok : σ → α → Prop) [∀ s a, Decidable (ok s a)] :
    ∀ (s : σ) (as : List α), Decidable (Along step ok s as)
  | _, [] => isTrue trivial
  | s, a :: as =>
    have := decidableAlong step ok (step s a) as
    inferInstanceAs (Decidable (ok s a ∧ Along step ok (step s a) as))

/-- What one guarded step keeps, a whole guarded run keeps. -/
theorem run_inv (Inv : σ → Prop) (hstep : ∀ s a, ok s a → Inv s → Inv (step s a))
    (h : Along step ok s as) (hs : Inv s) : Inv (run step s as) := by
  induction as generalizing s with
  | nil => exact hs
  | cons a as ih => exact ih h.2 (hstep s a h.1 hs)

/-- The unguarded form: no condition on the actions at all. -/
theorem run_inv_of_step (Inv : σ → Prop) (hstep : ∀ s a, Inv s → Inv (step s a)) (as : List α)
    (hs : Inv s) : Inv (run step s as) := by
  induction as generalizing s with
  | nil => exact hs
  | cons a as ih => exact ih (hstep s a hs)

/-- `P` held in every state of the run, the first and the last included. -/
def Always (step : σ → α → σ) (P : σ → Prop) : σ → List α → Prop
  | s, [] => P s
  | s, a :: as => P s ∧ Always step P (step s a) as

variable {P : σ → Prop}

theorem Always.start (h : Always step P s as) : P s := by
  cases as with
  | nil => exact h
  | cons a as => exact h.1

theorem Always.last (h : Always step P s as) : P (run step s as) := by
  induction as generalizing s with
  | nil => exact h
  | cons a as ih => exact ih h.2

/-- What one guarded step keeps holds all along a guarded run. -/
theorem always_of_along (Inv : σ → Prop) (hinv : ∀ s, Inv s → P s)
    (hstep : ∀ s a, ok s a → Inv s → Inv (step s a)) (h : Along step ok s as) (hs : Inv s) :
    Always step P s as := by
  induction as generalizing s with
  | nil => exact hinv s hs
  | cons a as ih => exact ⟨hinv s hs, ih h.2 (hstep s a h.1 hs)⟩

/-- The unguarded form. -/
theorem always_of_step (Inv : σ → Prop) (hinv : ∀ s, Inv s → P s)
    (hstep : ∀ s a, Inv s → Inv (step s a)) (as : List α) (hs : Inv s) : Always step P s as := by
  induction as generalizing s with
  | nil => exact hinv s hs
  | cons a as ih => exact ⟨hinv s hs, ih (hstep s a hs)⟩

/-- Where the condition is what a step needs to keep the invariant, and a step
without it breaks the property at once, the property holds all along a run exactly
if the condition does. -/
theorem always_iff_along (Inv : σ → Prop) (hinv : ∀ s, Inv s → P s)
    (hstep : ∀ s a, ok s a → Inv s → Inv (step s a))
    (hbreak : ∀ s a, ¬ ok s a → Inv s → ¬ P (step s a)) (hs : Inv s) :
    Always step P s as ↔ Along step ok s as := by
  induction as generalizing s with
  | nil => exact iff_of_true (hinv s hs) trivial
  | cons a as ih =>
    by_cases hok : ok s a
    · exact ⟨fun h => ⟨hok, (ih (hstep s a hok hs)).mp h.2⟩,
        fun h => ⟨hinv s hs, (ih (hstep s a hok hs)).mpr h.2⟩⟩
    · exact ⟨fun h => absurd h.2.start (hbreak s a hok hs), fun h => absurd h.1 hok⟩

/-- A condition that holds of each step from a state the invariant allows holds along a run. -/
theorem along_of_along {good : σ → α → Prop} (Inv : σ → Prop)
    (hgood : ∀ s a, ok s a → Inv s → good s a) (hstep : ∀ s a, ok s a → Inv s → Inv (step s a))
    (h : Along step ok s as) (hs : Inv s) : Along step good s as := by
  induction as generalizing s with
  | nil => trivial
  | cons a as ih => exact ⟨hgood s a h.1 hs, ih h.2 (hstep s a h.1 hs)⟩

/-- Two per-step conditions that agree in the states the invariant allows hold along the same
runs. -/
theorem along_congr {good : σ → α → Prop} (Inv : σ → Prop)
    (hgood : ∀ s a, Inv s → (good s a ↔ ok s a)) (hstep : ∀ s a, ok s a → Inv s → Inv (step s a))
    (hs : Inv s) : Along step good s as ↔ Along step ok s as := by
  induction as generalizing s with
  | nil => exact Iff.rfl
  | cons a as ih =>
    constructor
    · intro h
      have hok := (hgood s a hs).mp h.1
      exact ⟨hok, (ih (hstep s a hok hs)).mp h.2⟩
    · intro h
      exact ⟨(hgood s a hs).mpr h.1, (ih (hstep s a h.1 hs)).mpr h.2⟩

/-- A guard that raises was not taken by a call that returned. -/
theorem ite_error_eq_ok {p : Prop} [Decidable p] {e : ε} {k : Except ε ρ} {r : ρ} :
    (if p then .error e else k) = .ok r ↔ ¬ p ∧ k = .ok r := by
  by_cases hp : p <;> simp [hp]

variable {β : Type}

/-- A computation in two parts returned: the first did, and the second from there. -/
theorem bind_eq_ok {ε α : Type} {x : Except ε α} {f : α → Except ε β} {r : β} :
    (x >>= f) = .ok r ↔ ∃ a, x = .ok a ∧ f a = .ok r := by
  cases x with
  | error e => simp [bind, Except.bind]
  | ok a => simp [bind, Except.bind]

/-- A computation whose result is rewritten returned. -/
theorem map_eq_ok {ε α : Type} {x : Except ε α} {f : α → β} {r : β} :
    x.map f = .ok r ↔ ∃ a, x = .ok a ∧ f a = r := by
  cases x with
  | error e => simp [Except.map]
  | ok a => simp [Except.map]

/-- A loop returned: each of its calls did. -/
theorem mapM_eq_ok {ε α : Type} {f : α → Except ε β} {xs : List α} {ys : List β} :
    xs.mapM f = .ok ys ↔ List.Forall₂ (fun x y => f x = .ok y) xs ys := by
  induction xs generalizing ys with
  | nil =>
    constructor
    · intro h
      obtain rfl : [] = ys := Except.ok.inj h
      exact .nil
    · intro h
      cases h
      rfl
  | cons x xs ih =>
    rw [List.mapM_cons, bind_eq_ok]
    constructor
    · intro h
      obtain ⟨y, hy, h⟩ := h
      obtain ⟨rest, hrest, h⟩ := bind_eq_ok.mp h
      obtain rfl : y :: rest = ys := Except.ok.inj h
      exact .cons hy (ih.mp hrest)
    · intro h
      cases h with
      | cons hy hrest => exact ⟨_, hy, bind_eq_ok.mpr ⟨_, ih.mpr hrest, rfl⟩⟩

/-- Each result of a loop comes from one of its calls. -/
theorem exists_of_mem_right {α : Type} {R : α → β → Prop} {xs : List α} {ys : List β}
    (h : List.Forall₂ R xs ys) : ∀ y ∈ ys, ∃ x ∈ xs, R x y := by
  induction h with
  | nil => exact List.forall_mem_nil _
  | cons hxy _ ih =>
    refine List.forall_mem_cons.mpr ⟨⟨_, List.mem_cons_self, hxy⟩, fun y hy => ?_⟩
    obtain ⟨x, hx, hR⟩ := ih y hy
    exact ⟨x, List.mem_cons_of_mem _ hx, hR⟩

theorem exists_of_mem_left {α : Type} {R : α → β → Prop} {xs : List α} {ys : List β}
    (h : List.Forall₂ R xs ys) : ∀ x ∈ xs, ∃ y ∈ ys, R x y :=
  exists_of_mem_right h.flip

theorem map_eq_map_of_pairs {α γ : Type} {R : α → β → Prop} {xs : List α} {ys : List β}
    {f : α → γ} {g : β → γ} (h : List.Forall₂ R xs ys) (hR : ∀ x y, R x y → f x = g y) :
    xs.map f = ys.map g := by
  induction h with
  | nil => rfl
  | cons hxy _ ih => rw [List.map_cons, List.map_cons, hR _ _ hxy, ih]

theorem exists_mapM_ok {ε α : Type} {f : α → Except ε β} {xs : List α}
    (h : ∀ x ∈ xs, ∃ y, f x = .ok y) : ∃ ys, xs.mapM f = .ok ys := by
  induction xs with
  | nil => exact ⟨[], rfl⟩
  | cons x rest ih =>
    obtain ⟨y, hy⟩ := h x List.mem_cons_self
    obtain ⟨ys, hys⟩ := ih fun z hz => h z (List.mem_cons_of_mem _ hz)
    exact ⟨y :: ys, mapM_eq_ok.mpr (.cons hy (mapM_eq_ok.mp hys))⟩

/-- A loop whose calls return what a function says. -/
theorem mapM_eq_map {ε α : Type} {f : α → Except ε β} {g : α → β} {P : α → Prop} {xs : List α}
    {ys : List β} (hf : ∀ x ∈ xs, ∀ y, f x = .ok y → P x ∧ y = g x) (h : xs.mapM f = .ok ys) :
    (∀ x ∈ xs, P x) ∧ ys = xs.map g := by
  have hall := mapM_eq_ok.mp h
  clear h
  induction hall with
  | nil => exact ⟨List.forall_mem_nil _, rfl⟩
  | cons hy _ ih =>
    obtain ⟨hP, rfl⟩ := hf _ List.mem_cons_self _ hy
    obtain ⟨hrest, rfl⟩ := ih fun x hx => hf x (List.mem_cons_of_mem _ hx)
    exact ⟨List.forall_mem_cons.mpr ⟨hP, hrest⟩, rfl⟩

/-- A loop without results returned: each of its calls did. -/
theorem forM_eq_ok {ε α : Type} {f : α → Except ε Unit} {xs : List α} :
    xs.forM f = .ok () ↔ ∀ x ∈ xs, f x = .ok () := by
  induction xs with
  | nil => exact iff_of_true rfl (List.forall_mem_nil _)
  | cons x xs ih =>
    rw [List.forM, bind_eq_ok, List.forall_mem_cons]
    constructor
    · intro h
      obtain ⟨_, hx, hxs⟩ := h
      exact ⟨hx, ih.mp hxs⟩
    · intro h
      exact ⟨(), h.1, ih.mpr h.2⟩

/-- What a loop with an accumulator keeps of the elements it has seen. -/
theorem foldlM_inv {ε α : Type} {f : β → α → Except ε β} {xs : List α} {b r : β}
    (Inv : List α → β → Prop)
    (hstep : ∀ seen, ∀ x ∈ xs, ∀ b b', f b x = .ok b' → Inv seen b → Inv (seen ++ [x]) b')
    (hb : Inv [] b) (h : xs.foldlM f b = .ok r) : Inv xs r := by
  suffices hall : ∀ ys seen b, (∀ x ∈ ys, x ∈ xs) → Inv seen b → ys.foldlM f b = .ok r →
      Inv (seen ++ ys) r from hall xs [] b (fun _ hx => hx) hb h
  intro ys
  induction ys with
  | nil =>
    intro seen b _ hb h
    obtain rfl : b = r := Except.ok.inj h
    rwa [List.append_nil]
  | cons y ys ih =>
    intro seen b hmem hb h
    rw [List.foldlM_cons] at h
    obtain ⟨b', hy, h⟩ := bind_eq_ok.mp h
    have hrest := ih (seen ++ [y]) b' (fun x hx => hmem x (List.mem_cons_of_mem _ hx))
      (hstep seen y (hmem y List.mem_cons_self) b b' hy hb) h
    rwa [List.append_assoc] at hrest

/-- A loop that puts a value behind the others at each turn. -/
theorem foldlM_eq_append {ε α γ : Type} {f : List β → α → Except ε (List β)} {g : γ → α}
    {v : γ → β} {xs : List γ} {b : List β}
    (hstep : ∀ front x back, xs = front ++ x :: back →
      f (b ++ front.map v) (g x) = .ok (b ++ front.map v ++ [v x])) :
    (xs.map g).foldlM f b = .ok (b ++ xs.map v) := by
  induction xs generalizing b with
  | nil => exact congrArg Except.ok (List.append_nil b).symm
  | cons x xs ih =>
    have hx := hstep [] x xs rfl
    rw [List.map_nil, List.append_nil] at hx
    rw [List.map_cons, List.foldlM_cons, hx]
    refine (ih fun front y back hsplit => ?_).trans ?_
    · have hy := hstep (x :: front) y back (congrArg (x :: ·) hsplit)
      rwa [List.map_cons, List.append_cons] at hy
    · rw [List.map_cons, List.append_cons b (v x) (xs.map v)]

/-- A guard that throws, in front of the rest. -/
theorem guard_eq_ok {ε : Type} {p : Prop} [Decidable p] {e : ε} {k : PUnit → Except ε β} {r : β} :
    (if p then throw e >>= k else k ⟨⟩) = .ok r ↔ ¬ p ∧ k ⟨⟩ = .ok r := by
  by_cases hp : p
  · simp [hp, bind, Except.bind, throw, throwThe, MonadExceptOf.throw]
  · simp [hp]

/-- A transaction's effect: the state it returned, or the old one if it raised. -/
def commit (s : σ) : Except ε (σ × ρ) → σ
  | .ok (s', _) => s'
  | .error _ => s

@[simp] theorem commit_ok (s s' : σ) (r : ρ) : commit (ε := ε) s (.ok (s', r)) = s' := rfl

@[simp] theorem commit_error (s : σ) (e : ε) : commit (ρ := ρ) s (.error e) = s := rfl

/-- What a transaction that returned has left. -/
theorem left_of_ok {s' : σ} {r r' : ρ} (h : (.ok (s, r) : Except ε (σ × ρ)) = .ok (s', r')) :
    s = s' :=
  congrArg Prod.fst (Except.ok.inj h)

/-- A property kept by every successful return is kept by the transaction. -/
theorem commit_inv (Inv : σ → Prop) {res : Except ε (σ × ρ)} (hs : Inv s)
    (h : ∀ s' r, res = .ok (s', r) → Inv s') : Inv (commit s res) := by
  match res, h with
  | .ok (s', r), h => exact h s' r rfl
  | .error _, _ => exact hs

end LocalRag.Core
