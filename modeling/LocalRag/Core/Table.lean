import Mathlib.Data.List.Nodup

/-!
# Tables as lists of rows

A table is the list of its rows in insertion order. The three statements the
SQL of this project writes are `UPDATE … WHERE`, `DELETE … WHERE` and
`SELECT … WHERE` on a unique column; `Keyed` is the unique constraint, and
`find_eq` / `Keyed.eq` are how a proof uses it.
-/

namespace LocalRag.Core

variable {ρ κ : Type*}

/-- `UPDATE t SET f WHERE p`. -/
def updateWhere (p : ρ → Bool) (f : ρ → ρ) (t : List ρ) : List ρ :=
  t.map fun r => if p r then f r else r

/-- `DELETE FROM t WHERE p`. -/
def deleteWhere (p : ρ → Bool) (t : List ρ) : List ρ := t.filter fun r => !p r

variable {f : ρ → ρ}

theorem mem_updateWhere {p : ρ → Bool} {t : List ρ} {r : ρ} :
    r ∈ updateWhere p f t ↔ ∃ r₀ ∈ t, (if p r₀ then f r₀ else r₀) = r := by
  simp [updateWhere]

@[simp] theorem mem_deleteWhere {p : ρ → Bool} {t : List ρ} {r : ρ} :
    r ∈ deleteWhere p t ↔ r ∈ t ∧ p r = false := by
  simp [deleteWhere]

@[simp] theorem length_updateWhere (p : ρ → Bool) (f : ρ → ρ) (t : List ρ) :
    (updateWhere p f t).length = t.length := by
  simp [updateWhere]

/-- A column the update does not write reads as before. -/
theorem map_updateWhere {p : ρ → Bool} {g : ρ → κ} (hg : ∀ r, g (f r) = g r) (t : List ρ) :
    (updateWhere p f t).map g = t.map g := by
  simp only [updateWhere, List.map_map]
  refine List.map_congr_left fun r _ => ?_
  simp only [Function.comp]
  split
  · exact hg r
  · rfl

/-- An update whose condition no row meets changes nothing. -/
theorem updateWhere_eq_self {p : ρ → Bool} {t : List ρ} (h : ∀ r ∈ t, p r = false) :
    updateWhere p f t = t := by
  refine (List.map_congr_left fun r hr => ?_).trans (List.map_id t)
  simp [h r hr]

/-- Every row of `t'` that `p` selects stands, up to `key`, for one of `t` that `p` selects. -/
def Traced (key : ρ → κ) (p : ρ → Bool) (t t' : List ρ) : Prop :=
  ∀ r' ∈ t', p r' = true → ∃ r ∈ t, p r = true ∧ key r = key r'

namespace Traced

variable {key : ρ → κ} {p : ρ → Bool} {t t' t'' : List ρ}

theorem refl (key : ρ → κ) (p : ρ → Bool) (t : List ρ) : Traced key p t t :=
  fun r hr hp => ⟨r, hr, hp, rfl⟩

theorem trans (h : Traced key p t t') (h' : Traced key p t' t'') : Traced key p t t'' := by
  intro r'' hr'' hp''
  obtain ⟨r', hr', hp', hkey'⟩ := h' r'' hr'' hp''
  obtain ⟨r, hr, hp, hkey⟩ := h r' hr' hp'
  exact ⟨r, hr, hp, hkey.trans hkey'⟩

theorem of_subset (h : t' ⊆ t) : Traced key p t t' := fun r hr hp => ⟨r, h hr, hp, rfl⟩

/-- A deletion selects no new row. -/
theorem deleteWhere (q : ρ → Bool) : Traced key p t (deleteWhere q t) :=
  of_subset fun _ hr => (mem_deleteWhere.mp hr).1

/-- Nor does an update that turns no row into a selected one. -/
theorem updateWhere {q : ρ → Bool}
    (hf : ∀ r, q r = true → p (f r) = true → p r = true ∧ key r = key (f r)) :
    Traced key p t (updateWhere q f t) := by
  intro r' hr' hp'
  obtain ⟨r, hr, rfl⟩ := mem_updateWhere.mp hr'
  by_cases hq : q r = true
  · rw [if_pos hq] at hp' ⊢
    exact ⟨r, hr, hf r hq hp'⟩
  · rw [if_neg hq] at hp' ⊢
    exact ⟨r, hr, hp', rfl⟩

end Traced

/-- `ORDER BY … LIMIT 1`: the first row that no other row sorts before. -/
def pickFirst (before : ρ → ρ → Bool) : List ρ → Option ρ
  | [] => none
  | r :: t => match pickFirst before t with
    | none => some r
    | some best => if before best r then some best else some r

theorem pickFirst_mem {before : ρ → ρ → Bool} {r : ρ} :
    ∀ {t : List ρ}, pickFirst before t = some r → r ∈ t
  | a :: t, h => by
    rw [pickFirst] at h
    split at h
    · simp_all
    next best hbest =>
      split at h
      · obtain rfl : best = r := by simpa using h
        exact List.mem_cons_of_mem _ (pickFirst_mem hbest)
      · simp_all

@[simp] theorem pickFirst_eq_none {before : ρ → ρ → Bool} {t : List ρ} :
    pickFirst before t = none ↔ t = [] := by
  cases t with
  | nil => simp [pickFirst]
  | cons r t =>
    simp only [pickFirst, reduceCtorEq, iff_false]
    split
    · simp
    · split <;> simp

/-- The column `key` is unique in the table. -/
def Keyed (key : ρ → κ) (t : List ρ) : Prop := (t.map key).Nodup

instance (key : ρ → κ) (t : List ρ) [DecidableEq κ] : Decidable (Keyed key t) :=
  inferInstanceAs (Decidable (t.map key).Nodup)

theorem Keyed.nil (key : ρ → κ) : Keyed key [] := List.nodup_nil

variable {a : ρ}

theorem Keyed.eq {key : ρ → κ} {t : List ρ} (h : Keyed key t) {b : ρ} (ha : a ∈ t) (hb : b ∈ t)
    (hk : key a = key b) : a = b :=
  List.inj_on_of_nodup_map h ha hb hk

/-- A row of the table after one row was rewritten: the new one, or another that was there. -/
theorem Keyed.mem_rewritten [DecidableEq κ] {key : ρ → κ} {t : List ρ} (h : Keyed key t) {r : ρ}
    (hr : r ∈ t) (ha : a ∈ updateWhere (fun x => key x = key r) f t) :
    a = f r ∨ (a ∈ t ∧ key a ≠ key r) := by
  obtain ⟨x, hx, rfl⟩ := mem_updateWhere.mp ha
  by_cases hk : key x = key r
  · rw [if_pos (decide_eq_true hk), h.eq hx hr hk]
    exact Or.inl rfl
  · rw [if_neg (by simpa using hk)]
    exact Or.inr ⟨hx, hk⟩

/-- Appending a row whose key is new keeps the column unique. -/
theorem Keyed.append {key : ρ → κ} {t : List ρ} {r : ρ} (h : Keyed key t)
    (hr : ∀ a ∈ t, key a ≠ key r) : Keyed key (t ++ [r]) := by
  unfold Keyed
  rw [List.map_append, List.map_singleton]
  refine List.Nodup.append h (List.nodup_singleton _) ?_
  intro k hk hk'
  obtain ⟨a, ha, rfl⟩ := List.mem_map.mp hk
  exact hr a ha (by simpa using hk')

/-- So does appending a table whose keys are new. -/
theorem Keyed.appendAll {key : ρ → κ} {t u : List ρ} (h : Keyed key t) (hu : Keyed key u)
    (hnew : ∀ a ∈ t, ∀ b ∈ u, key a ≠ key b) : Keyed key (t ++ u) := by
  unfold Keyed
  rw [List.map_append]
  refine List.Nodup.append h hu ?_
  intro k hk hk'
  obtain ⟨a, ha, rfl⟩ := List.mem_map.mp hk
  obtain ⟨b, hb, hab⟩ := List.mem_map.mp hk'
  exact hnew a ha b hb hab.symm

/-- Rows numbered from a base are told apart by their numbers. -/
theorem keyed_mapIdx {σ : Type*} {key : ρ → Nat} {f : Nat → σ → ρ} {rows : List σ} (base : Nat)
    (hkey : ∀ i a, key (f i a) = base + i) : Keyed key (rows.mapIdx f) := by
  unfold Keyed
  rw [List.nodup_iff_injective_get]
  intro i k heq
  have hi := i.isLt
  have hk := k.isLt
  simp only [List.get_eq_getElem, List.getElem_map, List.getElem_mapIdx, hkey] at heq
  exact Fin.ext (by omega)

/-- A row before another has another key. -/
theorem Keyed.not_mem_front {key : ρ → κ} {t front back : List ρ} {r : ρ} (h : Keyed key t)
    (hsplit : t = front ++ r :: back) : key r ∉ front.map key := by
  subst hsplit
  unfold Keyed at h
  rw [List.map_append, List.map_cons, List.nodup_append] at h
  exact fun hin => h.2.2 _ hin _ List.mem_cons_self rfl

theorem Keyed.updateWhere {key : ρ → κ} {p : ρ → Bool} {t : List ρ} (h : Keyed key t)
    (hf : ∀ r, key (f r) = key r) : Keyed key (updateWhere p f t) := by
  unfold Keyed
  rw [map_updateWhere hf]
  exact h

theorem Keyed.filter {key : ρ → κ} {t : List ρ} (h : Keyed key t) (p : ρ → Bool) :
    Keyed key (t.filter p) :=
  List.Nodup.sublist (List.filter_sublist.map key) h

/-- Rows made of some rows, with their keys. -/
theorem Keyed.filterMap {σ : Type*} {key : ρ → κ} {key' : σ → κ} {t : List ρ} (h : Keyed key t)
    {f : ρ → Option σ} (hf : ∀ r r', f r = some r' → key' r' = key r) :
    Keyed key' (t.filterMap f) := by
  suffices hsub : ((t.filterMap f).map key').Sublist (t.map key) from h.sublist hsub
  clear h
  induction t with
  | nil => exact List.Sublist.refl _
  | cons r t ih =>
    cases hr : f r with
    | none =>
      rw [List.filterMap_cons_none hr]
      exact ih.cons _
    | some r' =>
      rw [List.filterMap_cons_some hr, List.map_cons, List.map_cons, hf r r' hr]
      exact ih.cons_cons _

/-- `eraseDups` keeps each row once. -/
theorem nodup_eraseDups [BEq ρ] [LawfulBEq ρ] (t : List ρ) : t.eraseDups.Nodup := by
  match t with
  | [] => simp
  | r :: rest =>
    have hshort : (rest.filter fun b => !b == r).length < (r :: rest).length :=
      Nat.lt_succ_of_le (List.length_filter_le _ _)
    rw [List.eraseDups_cons, List.nodup_cons, List.mem_eraseDups, List.mem_filter]
    exact ⟨by simp, nodup_eraseDups _⟩
termination_by t.length
decreasing_by exact hshort

theorem Keyed.deleteWhere {key : ρ → κ} {t : List ρ} (h : Keyed key t) (p : ρ → Bool) :
    Keyed key (deleteWhere p t) := h.filter _

/-- Deleting by a key that is there removes one row. -/
theorem Keyed.length_deleteWhere [DecidableEq κ] {key : ρ → κ} {t : List ρ} (h : Keyed key t)
    (ha : a ∈ t) :
    (LocalRag.Core.deleteWhere (fun r => key r = key a) t).length + 1 = t.length := by
  have hone : t.countP (fun r => key r = key a) = 1 := by
    have hcount := List.count_eq_one_of_mem h (List.mem_map_of_mem ha)
    rw [List.count, List.countP_map] at hcount
    exact hcount
  have hsplit := List.length_eq_countP_add_countP (l := t) fun r => decide (key r = key a)
  have hrest : t.countP (fun r => ¬ (decide (key r = key a)) = true) =
      (LocalRag.Core.deleteWhere (fun r => key r = key a) t).length := by
    rw [LocalRag.Core.deleteWhere, List.countP_eq_length_filter]
    simp
  omega

/-- The rows that carry a row's own unique key are that row. -/
theorem Keyed.filter_eq [DecidableEq κ] {key : ρ → κ} {t : List ρ} (h : Keyed key t) (ha : a ∈ t) :
    t.filter (fun r => key r = key a) = [a] := by
  obtain ⟨before, after, rfl⟩ := List.append_of_mem ha
  unfold Keyed at h
  rw [List.map_append, List.map_cons] at h
  obtain ⟨-, hafter, hbefore⟩ := List.nodup_append.mp h
  obtain ⟨hafter, -⟩ := List.nodup_cons.mp hafter
  rw [List.filter_append, List.filter_cons_of_pos (by simp)]
  have hleft : before.filter (fun r => key r = key a) = [] := by
    rw [List.filter_eq_nil_iff]
    intro r hr hkey
    exact hbefore (key r) (List.mem_map_of_mem hr) (key a) List.mem_cons_self
      (of_decide_eq_true hkey)
  have hright : after.filter (fun r => key r = key a) = [] := by
    rw [List.filter_eq_nil_iff]
    intro r hr hkey
    refine hafter ?_
    rw [← of_decide_eq_true hkey]
    exact List.mem_map_of_mem hr
  rw [hleft, hright]
  rfl

/-- Looking a row up by its own unique key finds that row. -/
theorem Keyed.find_eq [DecidableEq κ] {key : ρ → κ} {t : List ρ} (h : Keyed key t) (ha : a ∈ t) :
    t.find? (fun r => key r = key a) = some a := by
  cases hf : t.find? (fun r => key r = key a) with
  | none => exact absurd (List.find?_eq_none.mp hf a ha) (by simp)
  | some b =>
    have hb := List.mem_of_find?_eq_some hf
    have hk : key b = key a := by simpa using List.find?_some hf
    rw [h.eq hb ha hk]

/-- A lookup by key answers exactly the rows that carry it. -/
theorem Keyed.find_eq_some [DecidableEq κ] {key : ρ → κ} {t : List ρ} (h : Keyed key t) {k : κ} :
    t.find? (fun r => key r = k) = some a ↔ a ∈ t ∧ key a = k := by
  constructor
  · intro hf
    exact ⟨List.mem_of_find?_eq_some hf, by simpa using List.find?_some hf⟩
  · rintro ⟨ha, rfl⟩
    exact h.find_eq ha

/-! ## The row of a key -/

/-- The row with this primary key. -/
def rowAt [DecidableEq κ] (key : ρ → κ) (t : List ρ) (k : κ) : Option ρ :=
  t.find? fun r => key r = k

section RowAt

variable [DecidableEq κ] {key : ρ → κ} {t : List ρ} {k k₀ : κ} {r : ρ}

theorem rowAt_key (h : rowAt key t k = some r) : key r = k := by
  simpa using List.find?_some h

theorem Keyed.rowAt_eq_some (h : Keyed key t) : rowAt key t k = some r ↔ r ∈ t ∧ key r = k :=
  h.find_eq_some

/-- An update that writes no keys updates the row of each key. -/
theorem rowAt_updateWhere {p : ρ → Bool} (hf : ∀ r, key (f r) = key r) :
    rowAt key (LocalRag.Core.updateWhere p f t) k =
      (rowAt key t k).map fun r => if p r then f r else r := by
  unfold rowAt LocalRag.Core.updateWhere
  rw [List.find?_map]
  have hsame : ((fun r => decide (key r = k)) ∘ fun r => if p r then f r else r) =
      fun r => decide (key r = k) := by
    funext r
    by_cases hp : p r = true
    · rw [Function.comp_apply, if_pos hp, hf]
    · rw [Function.comp_apply, if_neg hp]
  rw [hsame]

/-- An update of one key leaves the rows of the others. -/
theorem rowAt_updateWhere_ne {p : ρ → Bool} (hf : ∀ r, key (f r) = key r)
    (hp : ∀ r, p r = true → key r = k₀) (hk : k ≠ k₀) :
    rowAt key (LocalRag.Core.updateWhere p f t) k = rowAt key t k := by
  rw [rowAt_updateWhere hf]
  cases hrow : rowAt key t k with
  | none => rfl
  | some r =>
    rw [Option.map_some, if_neg]
    intro hpr
    exact hk ((rowAt_key hrow).symm.trans (hp r hpr))

/-- An inserted row is the one of its key, where there was none. -/
theorem rowAt_append (hnew : rowAt key t (key r) = none) :
    rowAt key (t ++ [r]) k = if k = key r then some r else rowAt key t k := by
  unfold rowAt at hnew ⊢
  rw [List.find?_append]
  by_cases hk : k = key r
  · subst hk
    rw [hnew, if_pos rfl]
    simp
  · have hne : ¬ key r = k := fun h => hk h.symm
    rw [if_neg hk, List.find?_cons_of_neg (by simpa using hne)]
    simp

theorem rowAt_eq_none : rowAt key t k = none ↔ ∀ r ∈ t, key r ≠ k := by
  unfold rowAt
  rw [List.find?_eq_none]
  simp

/-- A row found by a condition that fixes the key is the row of that key. -/
theorem Keyed.rowAt_of_any (h : Keyed key t) {p : ρ → Bool} (hp : ∀ r, p r = true → key r = k₀)
    (hany : t.any p = true) : ∃ r, rowAt key t k₀ = some r ∧ p r = true := by
  obtain ⟨r, hr, hpr⟩ := List.any_eq_true.mp hany
  exact ⟨r, h.rowAt_eq_some.mpr ⟨hr, hp r hpr⟩, hpr⟩

end RowAt

end LocalRag.Core
