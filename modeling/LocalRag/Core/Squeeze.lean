import Mathlib.Data.List.DropRight

/-!
# Squeezed text — collapsing white space and trimming, as one scan

`trim (collapse s)` is how both sides of the citation format normalise white
space: every run becomes one blank, the ends are cut off. Written as two passes it is hard to
say what happens at a seam, so the library is built on a scan with three
states (`Gap`): before the first word, inside a word, after one. A blank is held
back until the next word starts, which is what trims the end.

The scan runs over any type of entries, with `blank` saying what is written for the
space that was held back; characters are one instance, characters that remember
where they came from another. Theorems:

- `squeezeFrom_append`: the scan of two pieces is the two scans, the second from
  where the first stopped.
- `squeeze_eq_trim_collapse`: on characters the scan is the two passes.
- `mem_squeeze`: the characters that are not white space survive, and only those.
-/

namespace LocalRag.Core

variable {α β : Type*}

/-- Where the scan stands; after a word, with the last space seen since. -/
inductive Gap (α : Type*)
  | before
  | inside
  | after (space : α)

/-- The state after one more entry. -/
def Gap.next (space : α → Bool) (g : Gap α) (a : α) : Gap α :=
  if space a then
    match g with
    | .before => .before
    | _ => .after a
  else .inside

/-- What one more entry writes: nothing for a space, and the space held back first
when a word starts. -/
def Gap.emit (space : α → Bool) (blank : α → α) (g : Gap α) (a : α) : List α :=
  if space a then []
  else
    match g with
    | .after b => [blank b, a]
    | _ => [a]

/-- The scan from a given state. -/
def squeezeFrom (space : α → Bool) (blank : α → α) : Gap α → List α → List α
  | _, [] => []
  | g, a :: as => g.emit space blank a ++ squeezeFrom space blank (g.next space a) as

/-- The state the scan stops in. -/
def gapAfter (space : α → Bool) : Gap α → List α → Gap α
  | g, [] => g
  | g, a :: as => gapAfter space (g.next space a) as

section Scan

variable {space : α → Bool} {blank : α → α}

@[simp] theorem squeezeFrom_nil (g : Gap α) : squeezeFrom space blank g [] = [] := rfl

theorem squeezeFrom_cons (g : Gap α) (a : α) (as : List α) :
    squeezeFrom space blank g (a :: as)
      = g.emit space blank a ++ squeezeFrom space blank (g.next space a) as := rfl

variable {a : α}

theorem Gap.emit_space (ha : space a = true) (g : Gap α) :
    g.emit space blank a = [] := if_pos ha

variable {g : Gap α}

theorem Gap.emit_word (ha : space a = false) (hg : ∀ b, g ≠ .after b) :
    g.emit space blank a = [a] := by
  unfold Gap.emit
  rw [if_neg (by simp [ha])]
  cases g with
  | before => rfl
  | inside => rfl
  | after b => exact absurd rfl (hg b)

theorem Gap.emit_after (ha : space a = false) (b : α) :
    (Gap.after b).emit space blank a = [blank b, a] := if_neg (by simp [ha])

theorem Gap.next_word (ha : space a = false) (g : Gap α) :
    g.next space a = .inside := if_neg (by simp [ha])

/-- A space writes nothing. -/
theorem squeezeFrom_space (ha : space a = true) (g : Gap α) (as : List α) :
    squeezeFrom space blank g (a :: as) = squeezeFrom space blank (g.next space a) as := by
  rw [squeezeFrom_cons, Gap.emit_space ha, List.nil_append]

/-- Inside a word, or before the first, a character is written as it is. -/
theorem squeezeFrom_word (ha : space a = false) (hg : ∀ b, g ≠ .after b) (as : List α) :
    squeezeFrom space blank g (a :: as) = a :: squeezeFrom space blank .inside as := by
  rw [squeezeFrom_cons, Gap.emit_word ha hg, Gap.next_word ha]
  rfl

/-- After a word the next one starts with the blank held back. -/
theorem squeezeFrom_after (ha : space a = false) (b : α) (as : List α) :
    squeezeFrom space blank (.after b) (a :: as)
      = blank b :: a :: squeezeFrom space blank .inside as := by
  rw [squeezeFrom_cons, Gap.emit_after ha, Gap.next_word ha]
  rfl

theorem squeezeFrom_append (g : Gap α) (as bs : List α) :
    squeezeFrom space blank g (as ++ bs)
      = squeezeFrom space blank g as ++ squeezeFrom space blank (gapAfter space g as) bs := by
  induction as generalizing g with
  | nil => rfl
  | cons a as ih =>
    rw [List.cons_append, squeezeFrom_cons, squeezeFrom_cons, ih, List.append_assoc]
    rfl

/-- What the state adds to a scan from the start: at most one blank in front, and nothing to a
text of spaces. -/
theorem squeezeFrom_lead (g : Gap α) (as : List α) :
    ∃ lead, (lead = [] ∨ ∃ b, lead = [blank b]) ∧
      squeezeFrom space blank g as = lead ++ squeezeFrom space blank .before as ∧
      (squeezeFrom space blank .before as = [] → lead = []) := by
  induction as generalizing g with
  | nil => exact ⟨[], Or.inl rfl, rfl, fun _ => rfl⟩
  | cons a as ih =>
    by_cases ha : space a = true
    · have hbefore : (Gap.before).next space a = .before := by
        unfold Gap.next
        rw [if_pos ha]
      rw [squeezeFrom_space ha, squeezeFrom_space ha, hbefore]
      exact ih _
    · have ha' : space a = false := by simpa using ha
      rw [squeezeFrom_word ha' (g := .before) (by simp)]
      cases g with
      | before => exact ⟨[], Or.inl rfl, squeezeFrom_word ha' (by simp) as, fun _ => rfl⟩
      | inside => exact ⟨[], Or.inl rfl, squeezeFrom_word ha' (by simp) as, fun _ => rfl⟩
      | after b =>
        refine ⟨[blank b], Or.inr ⟨b, rfl⟩, squeezeFrom_after ha' b as, fun h => ?_⟩
        exact absurd h (by simp)

variable {as : List α}

/-- A scan from the start begins with a word. -/
theorem squeezeFrom_before_head (h : (squeezeFrom space blank .before as).head? = some a) :
    space a = false := by
  induction as with
  | nil => exact absurd h (by simp)
  | cons b as ih =>
    by_cases hb : space b = true
    · have hbefore : (Gap.before).next space b = .before := by
        unfold Gap.next
        rw [if_pos hb]
      rw [squeezeFrom_space hb, hbefore] at h
      exact ih h
    · have hb' : space b = false := by simpa using hb
      rw [squeezeFrom_word hb' (by simp)] at h
      obtain rfl := Option.some.inj h
      exact hb'

theorem gapAfter_append (g : Gap α) (as bs : List α) :
    gapAfter space g (as ++ bs) = gapAfter space (gapAfter space g as) bs := by
  induction as generalizing g with
  | nil => rfl
  | cons a as ih => exact ih _

/-- Once a word has started the scan never stands before the first one again. -/
theorem gapAfter_ne_before (hg : g ≠ .before) (as : List α) : gapAfter space g as ≠ .before := by
  induction as generalizing g with
  | nil => exact hg
  | cons a as ih =>
    apply ih
    unfold Gap.next
    split
    · cases g with
      | before => exact absurd rfl hg
      | inside => simp
      | after b => simp
    · simp

/-- A text that leaves something starts with the blank held back. -/
theorem squeezeFrom_after_eq (b : α) (h : squeezeFrom space blank .before as ≠ []) :
    ∃ b', squeezeFrom space blank (.after b) as = blank b' :: squeezeFrom space blank .before as := by
  induction as generalizing b with
  | nil => exact absurd rfl h
  | cons a as ih =>
    by_cases ha : space a = true
    · have hbefore : (Gap.before).next space a = .before := by
        unfold Gap.next
        rw [if_pos ha]
      have hafter : (Gap.after b).next space a = .after a := by
        unfold Gap.next
        rw [if_pos ha]
      rw [squeezeFrom_space ha, hbefore] at h
      rw [squeezeFrom_space ha, squeezeFrom_space ha, hbefore, hafter]
      exact ih a h
    · have ha' : space a = false := by simpa using ha
      rw [squeezeFrom_after ha', squeezeFrom_word ha' (g := .before) (by simp)]
      exact ⟨b, rfl⟩

/-- Before the first word still: nothing but spaces. -/
theorem gapAfter_eq_before : gapAfter space .before as = .before ↔ ∀ a ∈ as, space a = true := by
  induction as with
  | nil => exact iff_of_true rfl (by simp)
  | cons a as ih =>
    show gapAfter space ((Gap.before).next space a) as = .before ↔ _
    unfold Gap.next
    by_cases ha : space a = true
    · rw [if_pos ha]
      simpa [ha] using ih
    · rw [if_neg ha]
      refine iff_of_false (gapAfter_ne_before (by simp) as) ?_
      simp [ha]

/-- Two notions of space that agree on the text scan it alike. -/
theorem squeezeFrom_congr {space' : α → Bool} (g : Gap α) (h : ∀ a ∈ as, space a = space' a) :
    squeezeFrom space blank g as = squeezeFrom space' blank g as := by
  induction as generalizing g with
  | nil => rfl
  | cons a as ih =>
    have ha : space a = space' a := h a (by simp)
    have has := ih (g.next space a) (fun b hb => h b (by simp [hb]))
    rw [squeezeFrom_cons, squeezeFrom_cons, has]
    simp only [Gap.emit, Gap.next, ha]

/-- What a text written from spaces alone: nothing. -/
theorem squeezeFrom_eq_nil : squeezeFrom space blank g as = [] ↔ ∀ a ∈ as, space a = true := by
  induction as generalizing g with
  | nil => simp
  | cons a as ih =>
    by_cases ha : space a = true
    · rw [squeezeFrom_space ha, ih]
      simp [ha]
    · have hne : g.emit space blank a ≠ [] := by
        unfold Gap.emit
        rw [if_neg ha]
        cases g <;> simp
      rw [squeezeFrom_cons, List.append_eq_nil_iff]
      simp [hne, ha]

/-- An entry that no blank is equal to is written exactly if it was there and is
no space. -/
theorem mem_squeezeFrom (ha : ∀ b, a ≠ blank b) :
    a ∈ squeezeFrom space blank g as ↔ a ∈ as ∧ space a = false := by
  induction as generalizing g with
  | nil => simp
  | cons b as ih =>
    have hemit : a ∈ g.emit space blank b ↔ a = b ∧ space a = false := by
      unfold Gap.emit
      by_cases hb : space b = true
      · rw [if_pos hb]
        constructor
        · intro h
          exact absurd h (by simp)
        · rintro ⟨rfl, h⟩
          rw [hb] at h
          exact absurd h (by simp)
      · rw [if_neg hb]
        cases g with
        | before =>
          show a ∈ [b] ↔ _
          rw [List.mem_singleton]
          exact ⟨fun h => ⟨h, by simpa [h] using hb⟩, fun h => h.1⟩
        | inside =>
          show a ∈ [b] ↔ _
          rw [List.mem_singleton]
          exact ⟨fun h => ⟨h, by simpa [h] using hb⟩, fun h => h.1⟩
        | after s =>
          show a ∈ [blank s, b] ↔ _
          rw [List.mem_cons, List.mem_singleton, or_iff_right (ha s)]
          exact ⟨fun h => ⟨h, by simpa [h] using hb⟩, fun h => h.1⟩
    rw [squeezeFrom_cons, List.mem_append, ih, hemit, List.mem_cons]
    tauto

end Scan

/-! ## Forgetting where entries came from -/

/-- The space a state holds back. -/
def Gap.held : Gap α → List α
  | .after a => [a]
  | _ => []

/-- What is written comes from the entries in their order, each used once: seen through
a function for which a blank is the space it was written for, the scan is a
sublist. -/
theorem squeezeFrom_sublist {space : α → Bool} {blank : α → α} (f : α → β)
    (hblank : ∀ a, f (blank a) = f a) (g : Gap α) (as : List α) :
    ((squeezeFrom space blank g as).map f).Sublist ((g.held ++ as).map f) := by
  induction as generalizing g with
  | nil => exact List.nil_sublist _
  | cons a as ih =>
    by_cases ha : space a = true
    · rw [squeezeFrom_space ha]
      refine (ih _).trans (List.Sublist.map f ?_)
      unfold Gap.next
      rw [if_pos ha]
      cases g with
      | before => exact List.sublist_cons_self a as
      | inside => exact List.Sublist.refl _
      | after b => exact List.sublist_cons_self b (a :: as)
    · have ha' : space a = false := by simpa using ha
      have htail : ((squeezeFrom space blank .inside as).map f).Sublist (as.map f) := ih .inside
      cases g with
      | before =>
        rw [squeezeFrom_word ha' (by simp)]
        exact htail.cons_cons (f a)
      | inside =>
        rw [squeezeFrom_word ha' (by simp)]
        exact htail.cons_cons (f a)
      | after b =>
        rw [squeezeFrom_after ha', List.map_cons, hblank]
        exact (htail.cons_cons (f a)).cons_cons (f b)

/-! ## Characters: the two passes -/

variable (space : Char → Bool)

/-- `re.sub(r"\s+", " ", s)`: every maximal run becomes one blank. `inRun` says that
the character before was white space too. -/
def collapse : Bool → List Char → List Char
  | _, [] => []
  | inRun, c :: cs =>
    if space c then
      if inRun then collapse true cs else ' ' :: collapse true cs
    else c :: collapse false cs

/-- `strip`: white space cut off at both ends. -/
def trim (s : List Char) : List Char := (s.dropWhile space).rdropWhile space

/-- The scan of a text, from its start. -/
def squeeze (s : List Char) : List Char := squeezeFrom space (fun _ => ' ') .before s

variable {space}

/-- Cutting the end, one character from the front. -/
theorem rdropWhile_cons (p : α → Bool) (a : α) (as : List α) :
    (a :: as).rdropWhile p
      = if as.rdropWhile p = [] ∧ p a = true then [] else a :: as.rdropWhile p := by
  induction as using List.reverseRecOn with
  | nil => by_cases ha : p a = true <;> simp [List.rdropWhile, ha]
  | append_singleton as b ih =>
    rw [← List.cons_append]
    by_cases hb : p b = true
    · rw [List.rdropWhile_concat_pos _ _ _ hb, List.rdropWhile_concat_pos _ _ _ hb, ih]
    · rw [List.rdropWhile_concat_neg _ _ _ hb, List.rdropWhile_concat_neg _ _ _ hb,
        if_neg (by simp)]
      rfl

/-- Inside a word, or after one, the scan is the collapsed text with its end cut
off: the blank held back is the one at the end of the collapsed prefix. -/
theorem rdropWhile_collapse (hblank : space ' ' = true) (s : List Char) :
    (collapse space false s).rdropWhile space = squeezeFrom space (fun _ => ' ') .inside s ∧
      ∀ b, (' ' :: collapse space true s).rdropWhile space
        = squeezeFrom space (fun _ => ' ') (.after b) s := by
  induction s with
  | nil =>
    refine ⟨rfl, fun b => ?_⟩
    show [' '].rdropWhile space = []
    simp [List.rdropWhile, hblank]
  | cons c s ih =>
    by_cases hc : space c = true
    · constructor
      · rw [squeezeFrom_space hc]
        simp only [collapse, Gap.next, hc, if_true]
        exact ih.2 c
      · intro b
        rw [squeezeFrom_space hc]
        simp only [collapse, Gap.next, hc, if_true]
        exact ih.2 c
    · have hc' : space c = false := by simpa using hc
      have hkeep : (c :: collapse space false s).rdropWhile space
          = c :: squeezeFrom space (fun _ => ' ') .inside s := by
        rw [rdropWhile_cons, if_neg (by simp [hc']), ih.1]
      constructor
      · rw [squeezeFrom_word hc' (by simp), collapse, if_neg hc, hkeep]
      · intro b
        rw [squeezeFrom_after hc', collapse, if_neg hc, rdropWhile_cons,
          if_neg (by simp [hkeep]), hkeep]

theorem squeeze_eq_trim_collapse (hblank : space ' ' = true) (s : List Char) :
    trim space (collapse space false s) = squeeze space s := by
  induction s with
  | nil => rfl
  | cons c s ih =>
    by_cases hc : space c = true
    · -- a leading run: its one blank is dropped, and so is every space of it in the scan
      have hrun : ∀ t, (collapse space true t).dropWhile space
          = (collapse space false t).dropWhile space := by
        intro t
        cases t with
        | nil => rfl
        | cons d t => by_cases hd : space d = true <;> simp [collapse, hd, hblank]
      unfold squeeze at ih ⊢
      rw [squeezeFrom_space hc, Gap.next, if_pos hc, ← ih]
      unfold trim
      rw [collapse, if_pos hc, if_neg (by simp), List.dropWhile_cons_of_pos hblank, hrun]
    · have hc' : space c = false := by simpa using hc
      unfold squeeze trim
      rw [squeezeFrom_word hc' (by simp), collapse, if_neg hc,
        List.dropWhile_cons_of_neg hc, rdropWhile_cons, if_neg (by simp [hc']),
        (rdropWhile_collapse hblank s).1]

/-- What is no blank survives exactly if it is no white space. -/
theorem mem_squeeze {s : List Char} {c : Char} (hc : c ≠ ' ') :
    c ∈ squeeze space s ↔ c ∈ s ∧ space c = false :=
  mem_squeezeFrom fun _ => hc

end LocalRag.Core
