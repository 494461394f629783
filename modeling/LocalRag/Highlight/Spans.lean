import LocalRag.Core.Squeeze

/-!
# Spans — the ranges of source characters a quotation covers

Every character of the normalised text remembers the cluster it came from: the text
item and the range of units in it (`MappedCharacter`), with item `-1` for the
separator put between two items. A quotation is a window of such characters and
its highlight is one range per item. `spansOf` is the loop at the end of
`resolveTextQuote` that collects them.

What the highlight is for is said by `Covers`: one range for each item that has a
character in the window, the smallest that contains the clusters of those
characters, and no other. Theorems:

- `spansOf_covers`: the loop's ranges are the ones of the window it ran over.
- `covers_iff_sameEnds`: in a text whose clusters stand in order, the ranges of
  one window are right for another exactly if the two begin in one cluster and end in
  one cluster.
-/

namespace LocalRag.Highlight

/-- Where a normalised character came from: its item and the cluster's range in
the item's string. -/
structure MappedCharacter where
  itemIndex : Int
  characterIndex : Nat
  characterEnd : Nat
  deriving DecidableEq

structure TextItemSpan where
  itemIndex : Int
  start : Nat
  end_ : Nat
  deriving DecidableEq

/-- From an item, not a separator. -/
def attributed (m : MappedCharacter) : Bool := 0 ≤ m.itemIndex

/-! ## The loop -/

/-- `spans.set(..)`: the entry of the item widened in its place, or a new one at
the end. -/
def setSpan (m : MappedCharacter) : List TextItemSpan → List TextItemSpan
  | [] => [⟨m.itemIndex, m.characterIndex, m.characterEnd⟩]
  | s :: spans =>
    if s.itemIndex = m.itemIndex then
      ⟨s.itemIndex, min s.start m.characterIndex, max s.end_ m.characterEnd⟩ :: spans
    else s :: setSpan m spans

/-- One turn of the loop: separators are passed over. -/
def addSpan (spans : List TextItemSpan) (m : MappedCharacter) : List TextItemSpan :=
  if m.itemIndex < 0 then spans else setSpan m spans

/-- The entries after all of `selected`. -/
def spansOf (selected : List MappedCharacter) : List TextItemSpan :=
  selected.foldl addSpan []

/-! ## What the ranges are for -/

/-- `[start, end)` is the smallest range of item `i` that contains the clusters of
the window's characters from it. -/
structure IsSmallestRange (window : List MappedCharacter) (i : Int) (start end_ : Nat) : Prop where
  contains : ∀ m ∈ window, m.itemIndex = i → start ≤ m.characterIndex ∧ m.characterEnd ≤ end_
  least : ∀ s e, (∀ m ∈ window, m.itemIndex = i → s ≤ m.characterIndex ∧ m.characterEnd ≤ e) →
    s ≤ start ∧ end_ ≤ e

/-- One range for every item with a character in the window, and only for those. -/
structure Covers (window : List MappedCharacter) (spans : List TextItemSpan) : Prop where
  distinct : (spans.map (·.itemIndex)).Nodup
  smallest : ∀ s ∈ spans, 0 ≤ s.itemIndex ∧
    IsSmallestRange window s.itemIndex s.start s.end_
  complete : ∀ m ∈ window, attributed m = true → ∃ s ∈ spans, s.itemIndex = m.itemIndex

variable {start end_ : Nat}

/-- A smallest range is of some character: without one it could be smaller. -/
theorem IsSmallestRange.exists_mem {window : List MappedCharacter} {i : Int}
    (h : IsSmallestRange window i start end_) : ∃ m ∈ window, m.itemIndex = i := by
  by_contra hnone
  have := (h.least (start + 1) 0 fun m hm hi => absurd ⟨m, hm, hi⟩ hnone).1
  omega

/-- Only the characters from items matter. -/
theorem IsSmallestRange.congr {w w' : List MappedCharacter} {i : Int}
    (hmem : ∀ m, m.itemIndex = i → (m ∈ w ↔ m ∈ w')) (h : IsSmallestRange w i start end_) :
    IsSmallestRange w' i start end_ where
  contains m hm hi := h.contains m ((hmem m hi).mpr hm) hi
  least s e hse := h.least s e fun m hm hi => hse m ((hmem m hi).mp hm) hi

theorem Covers.congr {w w' : List MappedCharacter} {spans : List TextItemSpan}
    (hmem : ∀ m, attributed m = true → (m ∈ w ↔ m ∈ w')) (h : Covers w spans) :
    Covers w' spans where
  distinct := h.distinct
  smallest s hs := by
    obtain ⟨hpos, hrange⟩ := h.smallest s hs
    exact ⟨hpos, hrange.congr fun m hi => hmem m (by simp [attributed, hi, hpos])⟩
  complete m hm ha := h.complete m ((hmem m ha).mpr hm) ha

/-! ## The loop collects them -/

theorem map_itemIndex_setSpan (m : MappedCharacter) (spans : List TextItemSpan) :
    (setSpan m spans).map (·.itemIndex) =
      if m.itemIndex ∈ spans.map (·.itemIndex) then spans.map (·.itemIndex)
      else spans.map (·.itemIndex) ++ [m.itemIndex] := by
  induction spans with
  | nil => rfl
  | cons s spans ih =>
    unfold setSpan
    by_cases hs : s.itemIndex = m.itemIndex
    · simp [hs]
    · have hs' : m.itemIndex ≠ s.itemIndex := fun h => hs h.symm
      rw [if_neg hs, List.map_cons, ih]
      simp only [List.map_cons, List.mem_cons, hs', false_or]
      split <;> rfl

variable {m : MappedCharacter}

/-- The entries afterwards: the other items' as they were, and the item's own, widened
if there was one. -/
theorem mem_setSpan {spans : List TextItemSpan} (hd : (spans.map (·.itemIndex)).Nodup)
    {t : TextItemSpan} (ht : t ∈ setSpan m spans) :
    (t ∈ spans ∧ t.itemIndex ≠ m.itemIndex) ∨
      (∃ s ∈ spans, s.itemIndex = m.itemIndex ∧
        t = ⟨m.itemIndex, min s.start m.characterIndex, max s.end_ m.characterEnd⟩) ∨
      ((∀ s ∈ spans, s.itemIndex ≠ m.itemIndex) ∧
        t = ⟨m.itemIndex, m.characterIndex, m.characterEnd⟩) := by
  induction spans with
  | nil => exact Or.inr (Or.inr ⟨by simp, by simpa [setSpan] using ht⟩)
  | cons s spans ih =>
    rw [List.map_cons, List.nodup_cons] at hd
    unfold setSpan at ht
    by_cases hs : s.itemIndex = m.itemIndex
    · rw [if_pos hs, List.mem_cons] at ht
      rcases ht with rfl | ht
      · exact Or.inr (Or.inl ⟨s, by simp, hs, by rw [hs]⟩)
      · refine Or.inl ⟨by simp [ht], ?_⟩
        intro heq
        exact hd.1 (List.mem_map.mpr ⟨t, ht, heq.trans hs.symm⟩)
    · rw [if_neg hs, List.mem_cons] at ht
      rcases ht with rfl | ht
      · exact Or.inl ⟨by simp, hs⟩
      · rcases ih hd.2 ht with ⟨hmem, hne⟩ | ⟨s', hs', hi, rfl⟩ | ⟨hnone, rfl⟩
        · exact Or.inl ⟨by simp [hmem], hne⟩
        · exact Or.inr (Or.inl ⟨s', by simp [hs'], hi, rfl⟩)
        · refine Or.inr (Or.inr ⟨?_, rfl⟩)
          intro s' hs'
          rcases List.mem_cons.mp hs' with rfl | hs'
          · exact hs
          · exact hnone s' hs'

/-- One more character of the window. -/
theorem Covers.addSpan {window : List MappedCharacter} {spans : List TextItemSpan}
    (h : Covers window spans) (m : MappedCharacter) :
    Covers (window ++ [m]) (addSpan spans m) := by
  unfold Highlight.addSpan
  by_cases hm : m.itemIndex < 0
  · -- a separator: no item's characters changed
    rw [if_pos hm]
    refine h.congr fun m' ha => ?_
    have hne : m' ≠ m := by
      rintro rfl
      simp only [attributed, decide_eq_true_eq] at ha
      omega
    simp [hne]
  · rw [if_neg hm]
    constructor
    · rw [map_itemIndex_setSpan]
      split
      next => exact h.distinct
      next hnot => exact List.nodup_append.mpr ⟨h.distinct, by simp, by
        intro i hi j hj
        rw [List.mem_singleton.mp hj]
        rintro rfl
        exact hnot hi⟩
    · intro t ht
      rcases mem_setSpan h.distinct ht with ⟨hmem, hne⟩ | ⟨s, hs, hi, rfl⟩ | ⟨hnone, rfl⟩
      · obtain ⟨hpos, hrange⟩ := h.smallest t hmem
        refine ⟨hpos, hrange.congr fun m' hm' => ?_⟩
        have : m' ≠ m := by
          rintro rfl
          exact hne hm'.symm
        simp [this]
      · obtain ⟨-, hrange⟩ := h.smallest s hs
        refine ⟨Int.not_lt.mp hm, ?_, ?_⟩
        · intro m' hm' hi'
          rcases List.mem_append.mp hm' with hw | hw
          · have hcontains := hrange.contains m' hw (hi'.trans hi.symm)
            show min _ _ ≤ _ ∧ _ ≤ max _ _
            omega
          · rw [List.mem_singleton.mp hw]
            show min _ _ ≤ _ ∧ _ ≤ max _ _
            omega
        · intro a b hab
          have hold := hrange.least a b fun m' hw hi' => hab m' (by simp [hw]) (hi'.trans hi)
          have hnew := hab m (by simp) rfl
          show a ≤ min _ _ ∧ max _ _ ≤ b
          omega
      · refine ⟨Int.not_lt.mp hm, ?_, ?_⟩
        · intro m' hm' hi'
          rcases List.mem_append.mp hm' with hw | hw
          · -- the item had no entry, so no character of it came before
            have ha : attributed m' = true := by
              simp only [attributed, decide_eq_true_eq]
              have : m'.itemIndex = m.itemIndex := hi'
              omega
            obtain ⟨s, hs, hsi⟩ := h.complete m' hw ha
            exact absurd (hsi.trans hi') (hnone s hs)
          · rw [List.mem_singleton.mp hw]
            exact ⟨Nat.le_refl _, Nat.le_refl _⟩
        · intro a b hab
          exact hab m (by simp) rfl
    · intro m' hm' ha
      have hkeys := map_itemIndex_setSpan m spans
      have hin : m'.itemIndex ∈ (setSpan m spans).map (·.itemIndex) := by
        rw [hkeys]
        rcases List.mem_append.mp hm' with hw | hw
        · obtain ⟨s, hs, hsi⟩ := h.complete m' hw ha
          have hmem : m'.itemIndex ∈ spans.map (·.itemIndex) := List.mem_map.mpr ⟨s, hs, hsi⟩
          split
          next => exact hmem
          next => exact List.mem_append.mpr (Or.inl hmem)
        · rw [List.mem_singleton.mp hw]
          split
          next hmem => exact hmem
          next => simp
      obtain ⟨s, hs, hsi⟩ := List.mem_map.mp hin
      exact ⟨s, hs, hsi⟩

theorem foldl_addSpan_covers {window : List MappedCharacter} {spans : List TextItemSpan}
    (h : Covers window spans) (selected : List MappedCharacter) :
    Covers (window ++ selected) (selected.foldl addSpan spans) := by
  induction selected generalizing window spans with
  | nil =>
    rw [List.append_nil]
    exact h
  | cons m selected ih =>
    have hnext := ih (h.addSpan m)
    rw [List.append_assoc] at hnext
    exact hnext

theorem spansOf_covers (window : List MappedCharacter) : Covers window (spansOf window) :=
  @foldl_addSpan_covers [] [] ⟨List.nodup_nil, by simp, by simp⟩ window

/-! ## Clusters in order -/

/-- In the same cluster, or in an earlier one. -/
def Precedes (m m' : MappedCharacter) : Prop :=
  m = m' ∨ m.itemIndex < m'.itemIndex ∨
    (m.itemIndex = m'.itemIndex ∧ m.characterEnd ≤ m'.characterIndex)

/-- A text whose clusters are not empty and stand in order. -/
structure InOrder (marks : List MappedCharacter) : Prop where
  sorted : marks.Pairwise Precedes
  proper : ∀ m ∈ marks, m.characterIndex < m.characterEnd

theorem Precedes.refl (m : MappedCharacter) : Precedes m m := Or.inl rfl

variable {m' : MappedCharacter}

theorem Precedes.antisymm (hm : m.characterIndex < m.characterEnd)
    (hm' : m'.characterIndex < m'.characterEnd) (h : Precedes m m') (h' : Precedes m' m) :
    m = m' := by
  rcases h with h | h | ⟨hi, h⟩
  · exact h
  · rcases h' with h' | h' | ⟨hi', h'⟩
    · exact h'.symm
    · omega
    · omega
  · rcases h' with h' | h' | ⟨hi', h'⟩
    · exact h'.symm
    · omega
    · omega

/-- Of two clusters of the text one precedes the other. -/
theorem InOrder.total {marks : List MappedCharacter} (h : InOrder marks) (hm : m ∈ marks)
    (hm' : m' ∈ marks) : Precedes m m' ∨ Precedes m' m := by
  have hright : marks.Pairwise fun a b => Precedes a b ∨ Precedes b a := h.sorted.imp Or.inl
  have hleft : marks.Pairwise (flip fun a b => Precedes a b ∨ Precedes b a) :=
    h.sorted.imp Or.inr
  exact List.Pairwise.forall_of_forall_of_flip (R := fun a b => Precedes a b ∨ Precedes b a)
    (fun a _ => Or.inl (Precedes.refl a)) hright hleft hm hm'

variable {first last : MappedCharacter}

/-- A window: its first cluster precedes every other, its last follows. -/
theorem window_bounds {w : List MappedCharacter} (h : w.Pairwise Precedes)
    (hfirst : w.head? = some first) (hlast : w.getLast? = some last) (hm : m ∈ w) :
    Precedes first m ∧ Precedes m last := by
  constructor
  · cases w with
    | nil => exact absurd hfirst (by simp)
    | cons a w =>
      obtain rfl : a = first := by simpa using hfirst
      rcases List.mem_cons.mp hm with rfl | hm
      · exact Precedes.refl _
      · exact (List.pairwise_cons.mp h).1 m hm
  · rw [List.getLast?_eq_some_iff] at hlast
    obtain ⟨init, rfl⟩ := hlast
    rcases List.mem_append.mp hm with hm | hm
    · exact (List.pairwise_append.mp h).2.2 m hm last (by simp)
    · rw [List.mem_singleton.mp hm]
      exact Precedes.refl _

/-- The members of a window, from its ends and the text alone. -/
theorem mem_window {marks x w y : List MappedCharacter} (h : InOrder marks)
    (hsplit : marks = x ++ w ++ y) (hfirst : w.head? = some first)
    (hlast : w.getLast? = some last) (m : MappedCharacter) :
    m ∈ w ↔ m ∈ marks ∧ Precedes first m ∧ Precedes m last := by
  have hsorted := h.sorted
  rw [hsplit, List.append_assoc] at hsorted
  obtain ⟨-, hwy, hxw⟩ := List.pairwise_append.mp hsorted
  obtain ⟨hw, -, hwy⟩ := List.pairwise_append.mp hwy
  have hfirstMem : first ∈ w := List.mem_of_head? hfirst
  have hlastMem : last ∈ w := List.mem_of_getLast? hlast
  have hsub : ∀ m ∈ w, m ∈ marks := fun m hm => by simp [hsplit, hm]
  constructor
  · intro hm
    exact ⟨hsub m hm, window_bounds hw hfirst hlast hm⟩
  · rintro ⟨hm, hge, hle⟩
    have hproper := h.proper m hm
    rw [hsplit, List.append_assoc, List.mem_append, List.mem_append] at hm
    rcases hm with hm | hm | hm
    · -- before the window: then it is in the window's first cluster
      have heq := Precedes.antisymm hproper (h.proper first (hsub first hfirstMem))
        (hxw m hm first (by simp [hfirstMem])) hge
      rwa [heq]
    · exact hm
    · have heq := Precedes.antisymm (h.proper last (hsub last hlastMem)) hproper
        (hwy last hlastMem m hm) hle
      rwa [← heq]

/-- The two windows begin in one cluster and end in one cluster. -/
def SameEnds (w w' : List MappedCharacter) : Prop :=
  (w.filter attributed).head? = (w'.filter attributed).head? ∧
    (w.filter attributed).getLast? = (w'.filter attributed).getLast?

instance decidableSameEnds (w w' : List MappedCharacter) : Decidable (SameEnds w w') :=
  inferInstanceAs (Decidable (_ ∧ _))

/-- The window begins with this cluster. -/
def BeginsWith (w : List MappedCharacter) (first : MappedCharacter) : Prop :=
  first ∈ w ∧ ∀ m ∈ w, Precedes first m

/-- The window ends with this cluster. -/
def EndsWith (w : List MappedCharacter) (last : MappedCharacter) : Prop :=
  last ∈ w ∧ ∀ m ∈ w, Precedes m last

theorem Precedes.itemIndex_le (h : Precedes m m') : m.itemIndex ≤ m'.itemIndex := by
  rcases h with rfl | h | ⟨h, -⟩ <;> omega

section Recovered

variable {marks w w' : List MappedCharacter} {spans : List TextItemSpan}

/-- An item with a character in one window has one in the other. -/
theorem Covers.exists_mem (hc : Covers w spans) (hc' : Covers w' spans) (hm : m ∈ w)
    (ha : attributed m = true) : ∃ m' ∈ w', m'.itemIndex = m.itemIndex := by
  obtain ⟨s, hs, hsi⟩ := hc.complete m hm ha
  obtain ⟨m', hm', hi⟩ := (hc'.smallest s hs).2.exists_mem
  exact ⟨m', hm', hi.trans hsi⟩

/-- The range of the first item starts where the first cluster does. -/
theorem IsSmallestRange.start_eq (hproper : ∀ m ∈ w, m.characterIndex < m.characterEnd)
    (hb : BeginsWith w first) (h : IsSmallestRange w first.itemIndex start end_) :
    start = first.characterIndex := by
  have hle := (h.contains first hb.1 rfl).1
  have hge := (h.least first.characterIndex end_ fun m hm hi => by
    refine ⟨?_, (h.contains m hm hi).2⟩
    have := hproper first hb.1
    rcases hb.2 m hm with rfl | hlt | ⟨-, hle⟩ <;> omega).1
  omega

/-- The range of the last item ends where the last cluster does. -/
theorem IsSmallestRange.end_eq (hproper : ∀ m ∈ w, m.characterIndex < m.characterEnd)
    (hb : EndsWith w last) (h : IsSmallestRange w last.itemIndex start end_) :
    end_ = last.characterEnd := by
  have hge := (h.contains last hb.1 rfl).2
  have hle := (h.least start last.characterEnd fun m hm hi => by
    refine ⟨(h.contains m hm hi).1, ?_⟩
    have := hproper last hb.1
    rcases hb.2 m hm with rfl | hlt | ⟨-, hle⟩ <;> omega).2
  omega

/-- Two windows with the same ranges begin with the same cluster. -/
theorem Covers.begins_eq (h : InOrder marks) (hsub : ∀ m ∈ w, m ∈ marks ∧ attributed m = true)
    (hsub' : ∀ m ∈ w', m ∈ marks ∧ attributed m = true) (hc : Covers w spans)
    (hc' : Covers w' spans) {first' : MappedCharacter} (hb : BeginsWith w first)
    (hb' : BeginsWith w' first') : first = first' := by
  have hitem : first.itemIndex = first'.itemIndex := by
    obtain ⟨m', hm', hi'⟩ := hc.exists_mem hc' hb.1 (hsub first hb.1).2
    obtain ⟨m, hm, hi⟩ := hc'.exists_mem hc hb'.1 (hsub' first' hb'.1).2
    have hle := (hb.2 m hm).itemIndex_le
    have hge := (hb'.2 m' hm').itemIndex_le
    omega
  obtain ⟨s, hs, hsi⟩ := hc.complete first hb.1 (hsub first hb.1).2
  have hstart := (hsi ▸ (hc.smallest s hs).2).start_eq (fun m hm => h.proper m (hsub m hm).1) hb
  have hstart' := (hsi.trans hitem ▸ (hc'.smallest s hs).2).start_eq
    (fun m hm => h.proper m (hsub' m hm).1) hb'
  have hp := h.proper first (hsub first hb.1).1
  have hp' := h.proper first' (hsub' first' hb'.1).1
  rcases h.total (hsub first hb.1).1 (hsub' first' hb'.1).1 with hle | hle
  · rcases hle with heq | hlt | ⟨-, hle⟩
    · exact heq
    · omega
    · omega
  · rcases hle with heq | hlt | ⟨-, hle⟩
    · exact heq.symm
    · omega
    · omega

/-- Two windows with the same ranges end with the same cluster. -/
theorem Covers.ends_eq (h : InOrder marks) (hsub : ∀ m ∈ w, m ∈ marks ∧ attributed m = true)
    (hsub' : ∀ m ∈ w', m ∈ marks ∧ attributed m = true) (hc : Covers w spans)
    (hc' : Covers w' spans) {last' : MappedCharacter} (hb : EndsWith w last)
    (hb' : EndsWith w' last') : last = last' := by
  have hitem : last.itemIndex = last'.itemIndex := by
    obtain ⟨m', hm', hi'⟩ := hc.exists_mem hc' hb.1 (hsub last hb.1).2
    obtain ⟨m, hm, hi⟩ := hc'.exists_mem hc hb'.1 (hsub' last' hb'.1).2
    have hle := (hb.2 m hm).itemIndex_le
    have hge := (hb'.2 m' hm').itemIndex_le
    omega
  obtain ⟨s, hs, hsi⟩ := hc.complete last hb.1 (hsub last hb.1).2
  have hend := (hsi ▸ (hc.smallest s hs).2).end_eq (fun m hm => h.proper m (hsub m hm).1) hb
  have hend' := (hsi.trans hitem ▸ (hc'.smallest s hs).2).end_eq
    (fun m hm => h.proper m (hsub' m hm).1) hb'
  have hp := h.proper last (hsub last hb.1).1
  have hp' := h.proper last' (hsub' last' hb'.1).1
  rcases h.total (hsub last hb.1).1 (hsub' last' hb'.1).1 with hle | hle
  · rcases hle with heq | hlt | ⟨-, hle⟩
    · exact heq
    · omega
    · omega
  · rcases hle with heq | hlt | ⟨-, hle⟩
    · exact heq.symm
    · omega
    · omega

end Recovered

/-- A window that is not empty begins with its head and ends with its last. -/
theorem window_ends {w : List MappedCharacter} (h : w.Pairwise Precedes) (hne : w ≠ []) :
    ∃ first last, w.head? = some first ∧ w.getLast? = some last ∧
      BeginsWith w first ∧ EndsWith w last := by
  have hfirst := List.head?_eq_some_head hne
  have hlast := List.getLast?_eq_some_getLast hne
  refine ⟨_, _, hfirst, hlast, ⟨List.head_mem hne, ?_⟩, ⟨List.getLast_mem hne, ?_⟩⟩
  · intro m hm
    exact (window_bounds h hfirst hlast hm).1
  · intro m hm
    exact (window_bounds h hfirst hlast hm).2

/-- The ranges of the window `w'` are right for the window `w` of the same text exactly
if the two have the same ends. -/
theorem covers_iff_sameEnds {marks x w y x' w' y' : List MappedCharacter}
    (h : InOrder (marks.filter attributed)) (hsplit : marks = x ++ w ++ y)
    (hsplit' : marks = x' ++ w' ++ y') :
    Covers w (spansOf w') ↔ SameEnds w w' := by
  -- both sides see the attributed characters only
  have hmem : ∀ v : List MappedCharacter, ∀ m, attributed m = true →
      (m ∈ v ↔ m ∈ v.filter attributed) := by
    intro v m ha
    simp [ha]
  have hf : marks.filter attributed
      = x.filter attributed ++ w.filter attributed ++ y.filter attributed := by
    rw [hsplit, List.filter_append, List.filter_append]
  have hf' : marks.filter attributed
      = x'.filter attributed ++ w'.filter attributed ++ y'.filter attributed := by
    rw [hsplit', List.filter_append, List.filter_append]
  have hsub : ∀ m ∈ w.filter attributed, m ∈ marks.filter attributed ∧ attributed m = true := by
    intro m hm
    exact ⟨by rw [hf]; simp only [List.mem_append, hm, or_true, true_or],
      (List.mem_filter.mp hm).2⟩
  have hsub' : ∀ m ∈ w'.filter attributed, m ∈ marks.filter attributed ∧ attributed m = true := by
    intro m hm
    exact ⟨by rw [hf']; simp only [List.mem_append, hm, or_true, true_or],
      (List.mem_filter.mp hm).2⟩
  have hw : (w.filter attributed).Pairwise Precedes :=
    h.sorted.sublist (hf ▸ (List.sublist_append_right _ _).trans (List.sublist_append_left _ _))
  have hw' : (w'.filter attributed).Pairwise Precedes :=
    h.sorted.sublist (hf' ▸ (List.sublist_append_right _ _).trans (List.sublist_append_left _ _))
  have hc' : Covers (w'.filter attributed) (spansOf w') := (spansOf_covers w').congr (hmem w')
  constructor
  · intro hc
    have hc := hc.congr (hmem w)
    by_cases hne : w.filter attributed = []
    · -- no range at all, so the other window has no character either
      have hne' : w'.filter attributed = [] := by
        by_contra hne'
        obtain ⟨first', -, -, -, hb', -⟩ := window_ends hw' hne'
        obtain ⟨m, hm, -⟩ := hc'.exists_mem hc hb'.1 (hsub' first' hb'.1).2
        rw [hne] at hm
        exact absurd hm (by simp)
      unfold SameEnds
      rw [hne, hne']
      exact ⟨rfl, rfl⟩
    · obtain ⟨first, last, hfirst, hlast, hb, he⟩ := window_ends hw hne
      have hne' : w'.filter attributed ≠ [] := by
        intro hne'
        obtain ⟨m, hm, -⟩ := hc.exists_mem hc' hb.1 (hsub first hb.1).2
        rw [hne'] at hm
        exact absurd hm (by simp)
      obtain ⟨first', last', hfirst', hlast', hb', he'⟩ := window_ends hw' hne'
      unfold SameEnds
      rw [hfirst, hlast, hfirst', hlast', Covers.begins_eq h hsub hsub' hc hc' hb hb',
        Covers.ends_eq h hsub hsub' hc hc' he he']
      exact ⟨rfl, rfl⟩
  · rintro ⟨hfirsts, hlasts⟩
    refine (hc'.congr ?_).congr fun m ha => (hmem w m ha).symm
    intro m ha
    by_cases hne : w.filter attributed = []
    · rw [hne] at hfirsts
      rw [hne, List.head?_eq_none_iff.mp hfirsts.symm]
    · obtain ⟨first, last, hfirst, hlast, -, -⟩ := window_ends hw hne
      rw [mem_window h hf hfirst hlast,
        mem_window h hf' (hfirsts ▸ hfirst) (hlasts ▸ hlast)]

end LocalRag.Highlight
