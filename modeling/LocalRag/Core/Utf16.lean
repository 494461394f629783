import Mathlib.Data.List.Infix

/-!
# UTF-16 — how JavaScript counts a text

A JavaScript string is a sequence of 16-bit units: a character outside the basic
plane is two of them, so lengths and offsets there run ahead of a count of
characters, by one for every such character. `utf16` is the encoding as a list of
units and the theorems are the two facts a translation between the counts needs:

- `length_utf16`: the length is the number of characters plus the number of astral
  ones.
- `utf16_infix`: the encoding can be cut only between characters. Where the
  units of a nonempty text stand in the units of another, the text itself
  stands there.
-/

namespace LocalRag.Core

/-- Outside the basic multilingual plane. -/
def isAstral (c : Char) : Bool := 0x10000 ≤ c.toNat

/-- The units of one character: itself, or a surrogate pair. -/
def units (c : Char) : List Nat :=
  if isAstral c then
    [0xd800 + (c.toNat - 0x10000) / 0x400, 0xdc00 + (c.toNat - 0x10000) % 0x400]
  else [c.toNat]

/-- A text as JavaScript holds it. -/
def utf16 (s : List Char) : List Nat := s.flatMap units

@[simp] theorem utf16_nil : utf16 [] = [] := rfl

@[simp] theorem utf16_cons (c : Char) (s : List Char) : utf16 (c :: s) = units c ++ utf16 s := rfl

@[simp] theorem utf16_append (s t : List Char) : utf16 (s ++ t) = utf16 s ++ utf16 t :=
  List.flatMap_append

theorem length_units (c : Char) : (units c).length = if isAstral c then 2 else 1 := by
  unfold units
  split <;> rfl

/-- The length JavaScript reports: one more than the number of characters for every
astral one. -/
theorem length_utf16 (s : List Char) : (utf16 s).length = s.length + s.countP isAstral := by
  induction s with
  | nil => rfl
  | cons c s ih =>
    rw [utf16_cons, List.length_append, ih, length_units, List.countP_cons, List.length_cons]
    split <;> omega

theorem length_le_utf16 (s : List Char) : s.length ≤ (utf16 s).length := by
  rw [length_utf16]
  omega

/-! ## No cut inside a character -/

/-- The second half of a surrogate pair. -/
def isLow (u : Nat) : Prop := 0xdc00 ≤ u ∧ u < 0xe000

/-- A character's first unit is never a second half: characters are not
surrogates. -/
theorem units_head (c : Char) : ∃ u us, units c = u :: us ∧ ¬ isLow u := by
  have hvalid : c.toNat < 0xd800 ∨ 0xdfff < c.toNat ∧ c.toNat < 0x110000 := c.valid
  unfold units isLow
  by_cases hc : isAstral c = true
  · rw [if_pos hc]
    refine ⟨_, _, rfl, ?_⟩
    omega
  · rw [if_neg hc]
    refine ⟨_, _, rfl, ?_⟩
    omega

/-- The units of two characters, one at the front of the other's text: the same
character. -/
theorem units_inj {c d : Char} {x y : List Nat} (h : units c ++ x = units d ++ y) :
    c = d ∧ x = y := by
  have hc : c.toNat < 0xd800 ∨ 0xdfff < c.toNat ∧ c.toNat < 0x110000 := c.valid
  have hd : d.toNat < 0xd800 ∨ 0xdfff < d.toNat ∧ d.toNat < 0x110000 := d.valid
  unfold units isAstral at h
  have key : c.toNat = d.toNat ∧ x = y := by
    by_cases h1 : 0x10000 ≤ c.toNat
    · rw [if_pos (decide_eq_true h1)] at h
      by_cases h2 : 0x10000 ≤ d.toNat
      · rw [if_pos (decide_eq_true h2)] at h
        simp only [List.cons_append, List.nil_append, List.cons.injEq] at h
        obtain ⟨hhigh, hlow, hxy⟩ := h
        exact ⟨by omega, hxy⟩
      · rw [if_neg (by simpa using h2)] at h
        have hhead := (List.cons.inj h).1
        omega
    · rw [if_neg (by simpa using h1)] at h
      by_cases h2 : 0x10000 ≤ d.toNat
      · rw [if_pos (decide_eq_true h2)] at h
        have hhead := (List.cons.inj h).1
        omega
      · rw [if_neg (by simpa using h2)] at h
        exact List.cons.inj h
  exact ⟨Char.toNat_inj.mp key.1, key.2⟩

variable {s : List Char}

variable {t : List Char}

/-- A prefix of the units that is a text is a prefix of the characters. -/
theorem utf16_prefix {y : List Nat} (h : utf16 s = utf16 t ++ y) :
    ∃ post, s = t ++ post ∧ y = utf16 post := by
  induction t generalizing s with
  | nil => exact ⟨s, rfl, h.symm⟩
  | cons c t ih =>
    cases s with
    | nil =>
      obtain ⟨u, us, hu, -⟩ := units_head c
      rw [utf16_nil, utf16_cons, hu] at h
      exact absurd h (by simp)
    | cons d s =>
      rw [utf16_cons, utf16_cons, List.append_assoc] at h
      obtain ⟨rfl, htail⟩ := units_inj h
      obtain ⟨post, rfl, hy⟩ := ih htail
      exact ⟨post, rfl, hy⟩

/-- A cut of the units before something that is not a second half is a cut of the
characters. -/
theorem utf16_cut {x y : List Nat} (h : utf16 s = x ++ y) (hy : ∀ u us, y = u :: us → ¬ isLow u) :
    ∃ pre post, s = pre ++ post ∧ x = utf16 pre ∧ y = utf16 post := by
  induction s generalizing x with
  | nil =>
    obtain ⟨rfl, rfl⟩ := List.append_eq_nil_iff.mp h.symm
    exact ⟨[], [], rfl, rfl, rfl⟩
  | cons c s ih =>
    cases x with
    | nil => exact ⟨[], c :: s, rfl, rfl, h.symm⟩
    | cons u x =>
      rw [utf16_cons] at h
      by_cases hc : isAstral c = true
      · -- two units: the cut is not between them, since the second is a low one
        have hunits : units c = [0xd800 + (c.toNat - 0x10000) / 0x400,
            0xdc00 + (c.toNat - 0x10000) % 0x400] := if_pos hc
        rw [hunits] at h
        cases x with
        | nil =>
          rw [List.cons_append, List.cons_append, List.nil_append, List.cons_append,
            List.nil_append, List.cons.injEq] at h
          refine absurd ?_ (hy _ _ h.2.symm)
          unfold isLow
          omega
        | cons v x =>
          simp only [List.cons_append, List.nil_append, List.cons.injEq] at h
          obtain ⟨hu, hv, hrest⟩ := h
          obtain ⟨pre, post, rfl, rfl, hpost⟩ := ih hrest
          refine ⟨c :: pre, post, rfl, ?_, hpost⟩
          rw [utf16_cons, hunits, ← hu, ← hv]
          rfl
      · have hunits : units c = [c.toNat] := if_neg hc
        rw [hunits] at h
        simp only [List.cons_append, List.nil_append, List.cons.injEq] at h
        obtain ⟨hu, hrest⟩ := h
        obtain ⟨pre, post, rfl, rfl, hpost⟩ := ih hrest
        refine ⟨c :: pre, post, rfl, ?_, hpost⟩
        rw [utf16_cons, hunits, ← hu]
        rfl

theorem utf16_eq_nil : utf16 s = [] ↔ s = [] := by
  cases s with
  | nil => simp
  | cons c s =>
    obtain ⟨u, us, hu, -⟩ := units_head c
    simp [hu]

theorem utf16_injective (h : utf16 s = utf16 t) : s = t := by
  obtain ⟨post, rfl, hnil⟩ := utf16_prefix (y := []) (h.trans (List.append_nil _).symm)
  rw [utf16_eq_nil.mp hnil.symm, List.append_nil]

/-- The units of a text, as what may follow a cut. -/
theorem utf16_head {z : List Nat} (ht : t ≠ []) : ∀ u us, utf16 t ++ z = u :: us → ¬ isLow u := by
  intro u us h
  obtain ⟨c, t, rfl⟩ := List.exists_cons_of_ne_nil ht
  obtain ⟨v, vs, hv, hlow⟩ := units_head c
  rw [utf16_cons, hv] at h
  simp only [List.cons_append, List.cons.injEq] at h
  exact h.1 ▸ hlow

/-- Where the units of a nonempty text stand, the text stands. -/
theorem utf16_infix {x z : List Nat} (ht : t ≠ []) (h : utf16 s = x ++ utf16 t ++ z) :
    ∃ pre post, s = pre ++ t ++ post ∧ x = utf16 pre ∧ z = utf16 post := by
  rw [List.append_assoc] at h
  obtain ⟨pre, rest, rfl, hx, hrest⟩ := utf16_cut h (utf16_head ht)
  obtain ⟨post, rfl, hz⟩ := utf16_prefix hrest.symm
  exact ⟨pre, post, (List.append_assoc ..).symm, hx, hz⟩

/-- One text ends with another exactly if its units do. -/
theorem utf16_isSuffix : utf16 t <:+ utf16 s ↔ t <:+ s := by
  constructor
  · rintro ⟨x, hx⟩
    rcases eq_or_ne t [] with rfl | ht
    · exact List.nil_suffix
    · obtain ⟨pre, post, rfl, -, hpost⟩ := utf16_infix (z := []) ht (by rw [hx, List.append_nil])
      have : post = [] := utf16_injective hpost.symm
      subst this
      exact ⟨pre, (List.append_nil _).symm⟩
  · rintro ⟨pre, rfl⟩
    exact ⟨utf16 pre, (utf16_append pre t).symm⟩

/-- One text starts with another exactly if its units do. -/
theorem utf16_isPrefix : utf16 t <+: utf16 s ↔ t <+: s := by
  constructor
  · rintro ⟨y, hy⟩
    obtain ⟨post, rfl, -⟩ := utf16_prefix hy.symm
    exact ⟨post, rfl⟩
  · rintro ⟨post, rfl⟩
    exact ⟨utf16 post, (utf16_append t post).symm⟩

end LocalRag.Core
