import Mathlib.Tactic.Common

/-!
# Generator bodies — emit, raise, and the rules for both

A Python generator body keeps what it yielded when it raises, and an `except`
clause goes on from there. `Gen σ ε` is that: a state that survives a raise.
`Spec P m Q R` reads "started where `P` holds, `m` returns where `Q` holds or
raises where `R` holds"; every exit is covered, so a rule for `tryCatch` hands
the handler exactly what the body may have left.

The rules follow the shape of the program. A proof about a body is one rule per
statement, with the intermediate assertions written out.

A body may be watched: `focus` runs it on a part of a larger state, and `Erases`
says that a body over the larger state does, on that part, exactly what another does. So what a
watching body keeps on record is a fact about the body it watches.
-/

namespace LocalRag.Core

/-- A body over the state `σ` that returns a value or raises. -/
def Gen (σ ε α : Type) : Type := σ → Except ε α × σ

namespace Gen

variable {σ ε α β : Type}

/-- Run the body, then what follows if it returned. -/
def andThen (m : Gen σ ε α) (f : α → Gen σ ε β) : Gen σ ε β := fun s =>
  match m s with
  | (.ok a, s') => f a s'
  | (.error e, s') => (.error e, s')

/-- `try: … except: …`. -/
def handle (m : Gen σ ε α) (h : ε → Gen σ ε α) : Gen σ ε α := fun s =>
  match m s with
  | (.ok a, s') => (.ok a, s')
  | (.error e, s') => h e s'

/-- `try: … finally: …`: what the last part raises is raised instead. -/
def ensuring (m : Gen σ ε α) (f : Gen σ ε Unit) : Gen σ ε α :=
  andThen (handle m fun e => andThen f fun _ s => (.error e, s)) fun a =>
    andThen f fun _ s => (.ok a, s)

instance : Monad (Gen σ ε) where
  pure a := fun s => (.ok a, s)
  bind := andThen

instance : MonadExceptOf ε (Gen σ ε) where
  throw e := fun s => (.error e, s)
  tryCatch := handle

/-- Change the state. -/
def update (f : σ → σ) : Gen σ ε Unit := fun s => (.ok (), f s)

/-- What a pure call returned or raised. -/
def lift (r : Except ε α) : Gen σ ε α := fun s => (r, s)

/-- `if p: …`, with nothing otherwise. -/
def when (p : Prop) [Decidable p] (m : Gen σ ε Unit) : Gen σ ε Unit := if p then m else pure ()

/-- `for x in xs: …`. -/
def each {ι : Type} (f : ι → Gen σ ε Unit) : List ι → Gen σ ε Unit
  | [] => pure ()
  | x :: xs => f x >>= fun _ => each f xs

end Gen

variable {σ ε α β : Type}

/-- One exit: a return meets `Q`, a raise meets `R`. -/
def Exits (Q : α → σ → Prop) (R : ε → σ → Prop) : Except ε α × σ → Prop
  | (.ok a, s) => Q a s
  | (.error e, s) => R e s

/-- Started where `P` holds, the body returns where `Q` holds or raises where `R`
holds. A structure, so that no elaboration step runs the body to see its type. -/
structure Spec (P : σ → Prop) (m : Gen σ ε α) (Q : α → σ → Prop) (R : ε → σ → Prop) : Prop where
  exits : ∀ s, P s → Exits Q R (m s)

/-- The body keeps `I`, however it ends. -/
abbrev Keeps (I : σ → Prop) (m : Gen σ ε α) : Prop := Spec I m (fun _ => I) (fun _ => I)

/-! ## Rules -/

variable {Q : α → σ → Prop} {R : ε → σ → Prop}

theorem Exits.mono {Q' : α → σ → Prop} {R' : ε → σ → Prop} {x : Except ε α × σ}
    (h : Exits Q' R' x) (hQ : ∀ a s, Q' a s → Q a s) (hR : ∀ e s, R' e s → R e s) :
    Exits Q R x := by
  match x, h with
  | (.ok a, s), h => exact hQ a s h
  | (.error e, s), h => exact hR e s h

/-- Nothing is asked of the start and nothing said of the end. -/
theorem Spec.always (m : Gen σ ε α) : Spec (fun _ => True) m (fun _ _ => True) (fun _ _ => True) :=
  ⟨fun s _ => by cases hm : m s with | mk r s' => cases r <;> trivial⟩

variable {P : σ → Prop}

theorem Spec.pure {a : α} (h : ∀ s, P s → Q a s) : Spec P (Pure.pure a : Gen σ ε α) Q R := ⟨h⟩

theorem Spec.throw {e : ε} (h : ∀ s, P s → R e s) :
    Spec P (MonadExcept.throw e : Gen σ ε α) Q R := ⟨h⟩

theorem Spec.update {Q : Unit → σ → Prop} {f : σ → σ} (h : ∀ s, P s → Q () (f s)) :
    Spec P (Gen.update f : Gen σ ε Unit) Q R := ⟨h⟩

theorem Spec.lift {r : Except ε α} (hok : ∀ a, r = .ok a → ∀ s, P s → Q a s)
    (hraise : ∀ e, r = .error e → ∀ s, P s → R e s) : Spec P (Gen.lift r : Gen σ ε α) Q R := by
  refine ⟨fun s hs => ?_⟩
  cases r with
  | ok a => exact hok a rfl s hs
  | error e => exact hraise e rfl s hs

variable {p : Prop}

theorem Spec.when [Decidable p] {m : Gen σ ε Unit} {Q : Unit → σ → Prop} (hm : p → Spec P m Q R)
    (hn : ¬ p → ∀ s, P s → Q () s) : Spec P (Gen.when p m) Q R := by
  unfold Gen.when
  by_cases hp : p
  · rw [if_pos hp]
    exact hm hp
  · rw [if_neg hp]
    exact Spec.pure (hn hp)

variable {m : Gen σ ε α}

theorem Spec.bind {M : α → σ → Prop} {f : α → Gen σ ε β} {Q : β → σ → Prop} (hm : Spec P m M R)
    (hf : ∀ a, Spec (M a) (f a) Q R) : Spec P (m >>= f) Q R := by
  refine ⟨fun s hs => ?_⟩
  have hexit := hm.exits s hs
  show Exits Q R (Gen.andThen m f s)
  unfold Gen.andThen
  match m s, hexit with
  | (.ok a, s'), hexit => exact (hf a).exits s' hexit
  | (.error e, s'), hexit => exact hexit

theorem Spec.tryCatch {h : ε → Gen σ ε α} {M : ε → σ → Prop} (hm : Spec P m Q M)
    (hh : ∀ e, Spec (M e) (h e) Q R) : Spec P (MonadExcept.tryCatch m h) Q R := by
  refine ⟨fun s hs => ?_⟩
  have hexit := hm.exits s hs
  show Exits Q R (Gen.handle m h s)
  unfold Gen.handle
  match m s, hexit with
  | (.ok a, s'), hexit => exact hexit
  | (.error e, s'), hexit => exact (hh e).exits s' hexit

theorem Spec.ensuring {f : Gen σ ε Unit} {M : α → σ → Prop} {N : ε → σ → Prop} (hm : Spec P m M N)
    (hreturn : ∀ a, Spec (M a) f (fun _ => Q a) R) (hraise : ∀ e, Spec (N e) f (fun _ => R e) R) :
    Spec P (Gen.ensuring m f) Q R := by
  refine ⟨fun s hs => ?_⟩
  have hexit := hm.exits s hs
  show Exits Q R (Gen.andThen (Gen.handle m _) _ s)
  unfold Gen.andThen Gen.handle
  match m s, hexit with
  | (.ok a, s'), hexit =>
    have hlast := (hreturn a).exits s' hexit
    match hf : f s', hlast with
    | (.ok u, s''), hlast =>
      simp only [hf]
      exact hlast
    | (.error e, s''), hlast =>
      simp only [hf]
      exact hlast
  | (.error e, s'), hexit =>
    have hlast := (hraise e).exits s' hexit
    match hf : f s', hlast with
    | (.ok u, s''), hlast =>
      simp only [hf]
      exact hlast
    | (.error e', s''), hlast =>
      simp only [hf]
      exact hlast

/-- A loop by what holds once a part of the list is done. -/
theorem Spec.each {ι : Type} {f : ι → Gen σ ε Unit} (I : List ι → σ → Prop) {xs : List ι}
    (hf : ∀ done x rest, xs = done ++ x :: rest →
      Spec (I done) (f x) (fun _ => I (done ++ [x])) R) :
    Spec (I []) (Gen.each f xs) (fun _ => I xs) R := by
  -- the loop from any point on, so that the induction keeps the whole list
  have hfrom : ∀ rest done, xs = done ++ rest →
      Spec (I done) (Gen.each f rest) (fun _ => I xs) R := by
    intro rest
    induction rest with
    | nil =>
      intro done hxs
      rw [hxs, List.append_nil]
      exact Spec.pure fun s hs => hs
    | cons x rest ih =>
      intro done hxs
      refine Spec.bind (hf done x rest hxs) fun _ => ih (done ++ [x]) ?_
      rw [hxs, List.append_assoc, List.singleton_append]
  exact hfrom xs [] rfl

theorem Spec.conseq {P' : σ → Prop} {Q' : α → σ → Prop} {R' : ε → σ → Prop} (h : Spec P' m Q' R')
    (hP : ∀ s, P s → P' s) (hQ : ∀ a s, Q' a s → Q a s) (hR : ∀ e s, R' e s → R e s) :
    Spec P m Q R :=
  ⟨fun s hs => (h.exits s (hP s hs)).mono hQ hR⟩

/-- A fact that the state does not enter moves out of the precondition. -/
theorem Spec.assume (h : p → Spec P m Q R) : Spec (fun s => P s ∧ p) m Q R :=
  ⟨fun s hs => (h hs.2).exits s hs.1⟩

/-- Where the precondition leaves a choice, each start may make its own. -/
theorem Spec.choose (h : ∀ s, P s → ∃ P' : σ → Prop, P' s ∧ Spec P' m Q R) : Spec P m Q R := by
  refine ⟨fun s hs => ?_⟩
  obtain ⟨P', hP', hspec⟩ := h s hs
  exact hspec.exits s hP'

variable {I : σ → Prop}

theorem Keeps.pure (a : α) : Keeps I (Pure.pure a : Gen σ ε α) :=
  Spec.pure fun _ hs => hs

theorem Keeps.throw (e : ε) : Keeps I (MonadExcept.throw e : Gen σ ε α) :=
  Spec.throw fun _ hs => hs

theorem Keeps.update {f : σ → σ} (h : ∀ s, I s → I (f s)) : Keeps I (Gen.update f : Gen σ ε Unit) :=
  Spec.update h

theorem Keeps.when [Decidable p] {m : Gen σ ε Unit} (hm : Keeps I m) : Keeps I (Gen.when p m) :=
  Spec.when (fun _ => hm) fun _ _ hs => hs

/-! ## Watched bodies -/

/-- A part of a state: what it is, and how it is replaced. -/
structure Part (τ σ : Type) where
  get : τ → σ
  set : σ → τ → τ
  get_set : ∀ s t, get (set s t) = s

section Watched

variable {τ : Type} (part : Part τ σ)

/-- The body, run on its part of the state. -/
def Gen.focus (m : Gen σ ε α) : Gen τ ε α := fun t =>
  ((m (part.get t)).1, part.set (m (part.get t)).2 t)

/-- On its part of the state, and in how it ends, `m'` does what `m` does. -/
structure Erases (m' : Gen τ ε α) (m : Gen σ ε α) : Prop where
  ends : ∀ t, (m' t).1 = (m (part.get t)).1
  leaves : ∀ t, part.get (m' t).2 = (m (part.get t)).2

variable {part}

/-- What the part does not enter stays. -/
theorem Spec.focus (h : Spec P m Q R) {F : τ → Prop} (hF : ∀ s t, F t → F (part.set s t)) :
    Spec (fun t => P (part.get t) ∧ F t) (Gen.focus part m) (fun a t => Q a (part.get t) ∧ F t)
      (fun e t => R e (part.get t) ∧ F t) := by
  refine ⟨fun t ht => ?_⟩
  have hexit := h.exits (part.get t) ht.1
  have hkept := hF (m (part.get t)).2 t ht.2
  have hpart := part.get_set (m (part.get t)).2 t
  show Exits _ _ ((m (part.get t)).1, part.set (m (part.get t)).2 t)
  cases hm : m (part.get t) with
  | mk res s =>
    rw [hm] at hexit hkept hpart
    cases res with
    | ok a => exact ⟨hpart.symm ▸ hexit, hkept⟩
    | error e => exact ⟨hpart.symm ▸ hexit, hkept⟩

theorem Erases.focus (m : Gen σ ε α) : Erases part (Gen.focus part m) m :=
  ⟨fun _ => rfl, fun t => part.get_set _ t⟩

theorem Erases.pure (a : α) :
    Erases part (Pure.pure a : Gen τ ε α) (Pure.pure a) := ⟨fun _ => rfl, fun _ => rfl⟩

variable {m' : Gen τ ε α}

/-- The two runs from a state, side by side. -/
theorem Erases.runs (h : Erases part m' m) (t : τ) :
    ∃ res t', m' t = (res, t') ∧ m (part.get t) = (res, part.get t') :=
  ⟨_, _, rfl, Prod.ext (h.ends t).symm (h.leaves t).symm⟩

theorem Erases.bind {f' : α → Gen τ ε β} {f : α → Gen σ ε β} (hm : Erases part m' m)
    (hf : ∀ a, Erases part (f' a) (f a)) : Erases part (m' >>= f') (m >>= f) := by
  have hboth : ∀ t, (Gen.andThen m' f' t).1 = (Gen.andThen m f (part.get t)).1 ∧
      part.get (Gen.andThen m' f' t).2 = (Gen.andThen m f (part.get t)).2 := by
    intro t
    obtain ⟨res, t', hm', hms⟩ := hm.runs t
    unfold Gen.andThen
    rw [hm', hms]
    cases res with
    | ok a => exact ⟨(hf a).ends t', (hf a).leaves t'⟩
    | error e => exact ⟨rfl, rfl⟩
  exact ⟨fun t => (hboth t).1, fun t => (hboth t).2⟩

theorem Erases.tryCatch {h' : ε → Gen τ ε α} {h : ε → Gen σ ε α} (hm : Erases part m' m)
    (hh : ∀ e, Erases part (h' e) (h e)) :
    Erases part (MonadExcept.tryCatch m' h') (MonadExcept.tryCatch m h) := by
  have hboth : ∀ t, (Gen.handle m' h' t).1 = (Gen.handle m h (part.get t)).1 ∧
      part.get (Gen.handle m' h' t).2 = (Gen.handle m h (part.get t)).2 := by
    intro t
    obtain ⟨res, t', hm', hms⟩ := hm.runs t
    unfold Gen.handle
    rw [hm', hms]
    cases res with
    | ok a => exact ⟨rfl, rfl⟩
    | error e => exact ⟨(hh e).ends t', (hh e).leaves t'⟩
  exact ⟨fun t => (hboth t).1, fun t => (hboth t).2⟩

/-- A record that the part does not enter. -/
theorem Erases.silent {f : τ → τ} (hf : ∀ t, part.get (f t) = part.get t) (hm : Erases part m' m) :
    Erases part (Gen.update f >>= fun _ => m') m :=
  ⟨fun t => (hm.ends (f t)).trans (by rw [hf]), fun t => (hm.leaves (f t)).trans (by rw [hf])⟩

end Watched

end LocalRag.Core
