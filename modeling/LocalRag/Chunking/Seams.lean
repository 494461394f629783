import LocalRag.Chunking.Located
import Mathlib.Data.List.Chain

/-!
# Which pages are cut well — the seams of a page without soft hyphens

On a page without soft hyphens every unit is visible, so a chunk stands in the page
exactly if any two of its neighbours have white space between them (`Spaced`). Neighbours
without it come from one long sentence, and the first of them is full: it has the most
tokens a part can have. A full part fills its chunk alone, so what stands in front of
the next part is either nothing or the overlap, and whether it is the overlap is a matter
of numbers: there is one, and it leaves room for the part.

So the chunks of the page stand where they should exactly if the page is `WellCut`:
behind each piece there is white space, or the overlap and the next piece do not fit
into one chunk.

- `chain_of_along`: if no round of `_pack` joins two neighbours without white space, no
  chunk has any.
- `along_or_broken`: a round that joins two such neighbours ruins a chunk that is kept; the
  test for a repeated last chunk does not drop it, since it has a blank line and the chunk before
  has none.
- `chunks_located_iff`: the result, with what holds of pages with soft hyphens.
-/

namespace LocalRag.Chunking

open LocalRag.Core Highlight

variable {ρ : Type} {w : WordClass} {nfkc : List Char → List Char} {page : List Char}

/-! ## Gaps -/

variable {gap : List Char}

/-- Inside a word spaces lead to the state after it. -/
theorem gapAfter_blank (hgap : Blank gap) (hne : gap ≠ []) :
    ∃ b, gapAfter isSpace .inside gap = .after b := by
  induction gap using List.reverseRecOn with
  | nil => exact absurd rfl hne
  | append_singleton init c _ =>
    have hc : isSpace c = true := hgap c (by simp)
    rw [gapAfter_append]
    show ∃ b, Gap.next isSpace (gapAfter isSpace .inside init) c = .after b
    unfold Gap.next
    rw [if_pos hc]
    cases hg : gapAfter isSpace .inside init with
    | before => exact absurd hg (gapAfter_ne_before (by simp) init)
    | inside => exact ⟨c, rfl⟩
    | after b => exact ⟨c, rfl⟩

/-- After a character that is no space the scan is inside a word. -/
theorem gapAfter_word {a : List Char} {c : Char} (ha : a.getLast? = some c)
    (hc : isSpace c = false) : gapAfter isSpace .before a = .inside := by
  obtain ⟨init, rfl⟩ := List.getLast?_eq_some_iff.mp ha
  rw [gapAfter_append]
  exact Gap.next_word hc _

theorem bare_eq {s : List Char} (h : softHyphen ∉ s) : bare id s = s := by
  unfold bare
  rw [id, List.filter_eq_self]
  intro c hc
  rw [decide_eq_true_eq]
  rintro rfl
  exact h hc

variable {t : List Char}

/-- Without soft hyphens, white space between two trimmed texts becomes one blank, and no white
space none. -/
theorem plain_gap {a : List Char} (hyphen : softHyphen ∉ a ++ gap ++ t) (ha : Trimmed a)
    (hgap : Blank gap) (ht : Trimmed t) (front : List Char) (hfront : softHyphen ∉ front) :
    plain (front ++ a ++ gap ++ t)
      = plain (front ++ a) ++ (if gap = [] then [] else [' ']) ++ plain t := by
  simp only [List.mem_append, not_or] at hyphen
  obtain ⟨⟨hya, hyg⟩, hyt⟩ := hyphen
  have hlast : ∃ c, (front ++ a).getLast? = some c ∧ isSpace c = false := by
    cases hlast : a.getLast? with
    | none => exact absurd (List.getLast?_eq_none_iff.mp hlast) ha.1
    | some c =>
      refine ⟨c, ?_, ha.2.2 c hlast⟩
      rw [List.getLast?_append, hlast]
      rfl
  obtain ⟨c, hc, hcs⟩ := hlast
  have hall : softHyphen ∉ front ++ a := by
    simp [hfront, hya]
  rw [plain_eq, plain_eq (front ++ a), plain_eq t, bare_eq (by simp [hfront, hya, hyg, hyt]),
    bare_eq hall, bare_eq hyt, List.append_assoc (front ++ a)]
  unfold squeeze
  rw [squeezeFrom_append, gapAfter_word hc hcs, List.append_assoc]
  congr 1
  cases t with
  | nil => exact absurd rfl ht.1
  | cons d t =>
    have hd : isSpace d = false := ht.2.1 d rfl
    by_cases hg : gap = []
    · subst hg
      rw [if_pos rfl, List.nil_append, List.nil_append, squeezeFrom_word hd (by simp),
        squeezeFrom_word hd (by simp)]
    · obtain ⟨b, hb⟩ := gapAfter_blank hgap hg
      rw [if_neg hg, squeezeFrom_append, squeezeFrom_eq_nil.mpr hgap, hb, List.nil_append,
        squeezeFrom_after hd, squeezeFrom_word hd (by simp)]
      rfl

/-- A trimmed text without soft hyphens leaves something. -/
theorem plain_ne_nil (ht : Trimmed t) (hyphen : softHyphen ∉ t) : plain t ≠ [] := by
  intro h
  rw [plain_eq, bare_eq hyphen] at h
  have hblank := squeezeFrom_eq_nil.mp h
  have hhead := ht.2.1 (t.head ht.1) (List.head?_eq_some_head ht.1)
  rw [hblank _ (List.head_mem ht.1)] at hhead
  exact absurd hhead (by simp)

/-! ## Spaced neighbours -/

/-- There is one blank between the two units in the normalized page. -/
def Spaced (u v : Unit ρ) : Prop := v.start = u.stop.map (· + 1)

variable {us : List (Unit ρ)}

/-- Where every unit is visible, the seams are right exactly if all neighbours are spaced. -/
theorem seams_iff_chain {u : Unit ρ} (h : ∀ v ∈ us, visible nfkc v = true) :
    Seams nfkc true u.stop us ↔ (u :: us).IsChain Spaced := by
  induction us generalizing u with
  | nil => exact iff_of_true trivial (List.isChain_singleton u)
  | cons v us ih =>
    have hv := h v (by simp)
    unfold Seams
    rw [List.isChain_cons_cons, hv, Bool.or_true, ih fun x hx => h x (by simp [hx])]
    simp [Spaced]

theorem seamless_iff_chain (h : ∀ u ∈ us, visible nfkc u = true) :
    Seamless nfkc us ↔ us.IsChain Spaced := by
  cases us with
  | nil => exact iff_of_true trivial List.isChain_nil
  | cons u us =>
    show Seams nfkc (visible nfkc u) u.stop us ↔ _
    rw [h u (by simp)]
    exact seams_iff_chain fun v hv => h v (by simp [hv])

/-! ## What the overlap keeps -/

/-- The loop ends with units at the end of the chunk, or with the last one cut. -/
theorem overlapLoop_cases (overlapTokens : Nat) (us : List (Unit ρ)) (selected : List (Unit ρ))
    (total : Nat) :
    overlapLoop w nfkc overlapTokens us selected total <:+ us.reverse ++ selected ∨
      (selected = [] ∧ ∃ u, us.head? = some u ∧ overlapTokens < countTokens w u.text ∧
        overlapLoop w nfkc overlapTokens us selected total
          = [suffixUnit w nfkc overlapTokens u]) := by
  induction us generalizing selected total with
  | nil => exact Or.inl List.suffix_rfl
  | cons u us ih =>
    unfold overlapLoop
    split
    · exact Or.inl (List.suffix_append _ _)
    next hgo =>
      split
      next hlong =>
        refine Or.inr ⟨?_, u, rfl, hlong, rfl⟩
        by_contra hne
        exact hgo ⟨hne, by omega⟩
      next =>
        rcases ih (u :: selected) (total + countTokens w u.text) with hsuffix | ⟨hnil, -⟩
        · refine Or.inl ?_
          rwa [List.reverse_cons, List.append_assoc]
        · exact absurd hnil (by simp)

theorem overlap_cases (overlapTokens : Nat) (us : List (Unit ρ)) :
    overlap w nfkc overlapTokens us <:+ us ∨
      ∃ u, us.getLast? = some u ∧ 1 ≤ overlapTokens ∧ overlapTokens < countTokens w u.text ∧
        overlap w nfkc overlapTokens us = [suffixUnit w nfkc overlapTokens u] := by
  unfold overlap
  split
  next => exact Or.inl List.nil_suffix
  next ho =>
    have hcases := @overlapLoop_cases ρ w nfkc overlapTokens us.reverse [] 0
    rw [List.reverse_reverse, List.append_nil, List.head?_reverse] at hcases
    rcases hcases with h | ⟨-, u, hu, hlong, heq⟩
    · exact Or.inl h
    · exact Or.inr ⟨u, hu, Nat.pos_of_ne_zero ho, hlong, heq⟩

/-- What stands in front of the next unit: the current units, or what is carried over. -/
def inFront (w : WordClass) (nfkc : List Char → List Char) (chunker : DocumentChunker)
    (s : Packing ρ) (unit : Unit ρ) : List (Unit ρ) :=
  if s.current ≠ [] ∧ chunker.targetTokens < s.currentTokens + countTokens w unit.text then
    carried w nfkc chunker s.current unit
  else s.current

theorem packStep_current (chunker : DocumentChunker) (s : Packing ρ) (u : Unit ρ) :
    (packStep w nfkc chunker s u).current = inFront w nfkc chunker s u ++ [u] := by
  unfold packStep inFront
  split
  · rfl
  · rfl

theorem packStep_chunks (chunker : DocumentChunker) (s : Packing ρ) (u : Unit ρ) :
    ∀ c ∈ (packStep w nfkc chunker s u).chunks, c ∈ s.chunks ∨ c = render s.current := by
  intro c hc
  unfold packStep at hc
  split at hc
  next =>
    rcases List.mem_append.mp hc with hc | hc
    · exact Or.inl hc
    · exact Or.inr (List.mem_singleton.mp hc)
  next => exact Or.inl hc

theorem inFront_cases (chunker : DocumentChunker) (s : Packing ρ) (u : Unit ρ) :
    inFront w nfkc chunker s u <:+ s.current ∨
      ∃ v, s.current.getLast? = some v ∧ 1 ≤ chunker.overlapTokens ∧
        chunker.overlapTokens < countTokens w v.text ∧
        inFront w nfkc chunker s u = [suffixUnit w nfkc chunker.overlapTokens v] := by
  unfold inFront
  split
  · unfold carried
    split
    · exact Or.inl List.nil_suffix
    · exact overlap_cases chunker.overlapTokens s.current
  · exact Or.inl List.suffix_rfl

/-- What stands in front ends where the current units end. -/
theorem inFront_last {chunker : DocumentChunker} {s : Packing ρ} {u x : Unit ρ}
    (hx : (inFront w nfkc chunker s u).getLast? = some x) :
    ∃ v, s.current.getLast? = some v ∧ x.stop = v.stop := by
  rcases @inFront_cases ρ w nfkc chunker s u with ⟨front, hfront⟩ | ⟨v, hv, -, -, heq⟩
  · refine ⟨x, ?_, rfl⟩
    rw [← hfront, List.getLast?_append, hx]
    rfl
  · rw [heq] at hx
    obtain rfl := Option.some.inj hx
    exact ⟨v, hv, rfl⟩

/-! ## Without a bad join -/

/-- The round joins no two units without white space between them. -/
def JoinsSpaced (w : WordClass) (nfkc : List Char → List Char) (chunker : DocumentChunker)
    (s : Packing ρ) (u : Unit ρ) : Prop :=
  inFront w nfkc chunker s u ≠ [] → ∀ v, s.current.getLast? = some v → Spaced v u

/-- No bad seam so far. -/
structure PackingChain (s : Packing ρ) : Prop where
  chunks : ∀ c ∈ s.chunks, c.units.IsChain Spaced
  current : s.current.IsChain Spaced

theorem packStep_chain (chunker : DocumentChunker) {s : Packing ρ} (h : PackingChain s)
    {u : Unit ρ} (hok : JoinsSpaced w nfkc chunker s u) :
    PackingChain (packStep w nfkc chunker s u) := by
  refine ⟨?_, ?_⟩
  · intro c hc
    rcases packStep_chunks chunker s u c hc with hc | rfl
    · exact h.chunks c hc
    · exact h.current
  · rw [packStep_current]
    have hfront : (inFront w nfkc chunker s u).IsChain Spaced := by
      rcases @inFront_cases ρ w nfkc chunker s u with hsuffix | ⟨v, -, -, -, heq⟩
      · exact h.current.suffix hsuffix
      · rw [heq]
        exact List.isChain_singleton _
    refine hfront.append (List.isChain_singleton u) ?_
    intro x hx y hy
    obtain rfl := Option.some.inj hy
    obtain ⟨v, hv, hstop⟩ := inFront_last hx
    have hne : inFront w nfkc chunker s u ≠ [] := by
      intro hnil
      rw [hnil] at hx
      exact absurd hx (by simp)
    have hspaced := hok hne v hv
    unfold Spaced at hspaced ⊢
    rw [hstop]
    exact hspaced

theorem chain_of_along (chunker : DocumentChunker)
    (h : Along (packStep w nfkc chunker) (JoinsSpaced w nfkc chunker) (Packing.start ρ) us) :
    ∀ c ∈ pack w nfkc chunker us, c.units.IsChain Spaced := by
  have hstart : PackingChain (Packing.start ρ) := ⟨by simp [Packing.start], List.isChain_nil⟩
  have hrun := run_inv PackingChain (fun s u hok hs => packStep_chain chunker hs hok) h hstart
  intro c hc
  unfold pack Packing.finish at hc
  split at hc
  next =>
    rcases List.mem_append.mp hc with hc | hc
    · exact hrun.chunks c hc
    · rw [List.mem_singleton.mp hc]
      exact hrun.current
  next => exact hrun.chunks c hc

/-! ## Full parts -/

theorem countTokens_pos (ht : Trimmed t) : 1 ≤ countTokens w t := by
  by_contra h
  have hnil : tokensFrom w none 0 t = [] := List.length_eq_zero_iff.mp (by
    have : (tokensFrom w none 0 t).length = countTokens w t := rfl
    omega)
  have hblank := tokensFrom_eq_nil hnil
  have hhead := ht.2.1 (t.head ht.1) (List.head?_eq_some_head ht.1)
  rw [hblank _ (List.head_mem ht.1)] at hhead
  exact absurd hhead (by simp)

/-- The texts in hand, their tokens, and a full part standing alone. -/
structure PackingTokens (w : WordClass) (chunker : DocumentChunker) (s : Packing ρ) : Prop where
  texts : ∀ u ∈ s.current, Trimmed u.text
  tokens : s.current ≠ [] → 1 ≤ s.currentTokens
  last : ∀ u, s.current.getLast? = some u → countTokens w u.text ≤ s.currentTokens
  full : ∀ u, s.current.getLast? = some u → countTokens w u.text = chunker.maxTokens →
    s.current = [u]

variable {chunker : DocumentChunker} {s : Packing ρ}

theorem inFront_texts (h : PackingTokens w chunker s) (u : Unit ρ) :
    ∀ x ∈ inFront w nfkc chunker s u, Trimmed x.text := by
  intro x hx
  rcases @inFront_cases ρ w nfkc chunker s u with hsuffix | ⟨v, hv, ho, hlong, heq⟩
  · exact h.texts x (hsuffix.subset hx)
  · rw [heq] at hx
    obtain rfl := List.mem_singleton.mp hx
    obtain ⟨a, -, ht, -⟩ := suffixText_spec ho hlong (h.texts v (List.mem_of_getLast? hv))
    exact ht

theorem joined_tokens_pos (hne : us ≠ []) (ht : ∀ u ∈ us, Trimmed u.text) :
    1 ≤ countTokens w (joined (us.map (·.text))) := by
  refine countTokens_pos (trimmed_joined (by simpa using hne) fun t hmem => ?_)
  obtain ⟨u, hu, rfl⟩ := List.mem_map.mp hmem
  exact ht u hu

/-- In front of a full part there is room for nothing. -/
theorem inFront_full (h : PackingTokens w chunker s) {u : Unit ρ}
    (hfull : countTokens w u.text = chunker.maxTokens) : inFront w nfkc chunker s u = [] := by
  by_contra hne
  have htexts := @inFront_texts ρ w nfkc chunker s h u
  have htarget := chunker.target_le
  unfold inFront at hne htexts
  split at hne
  next hflush =>
    rw [if_pos hflush] at htexts
    unfold carried at hne htexts
    split at hne
    next => exact hne rfl
    next hroom =>
      rw [if_neg hroom] at htexts
      have hpos := joined_tokens_pos (w := w) hne htexts
      omega
  next hroom =>
    have hpos := h.tokens hne
    have hle : ¬ chunker.targetTokens < s.currentTokens + countTokens w u.text :=
      fun hlt => hroom ⟨hne, hlt⟩
    omega

theorem packStep_tokens (h : PackingTokens w chunker s) {u : Unit ρ} (hu : Trimmed u.text) :
    PackingTokens w chunker (packStep w nfkc chunker s u) := by
  have hpos := countTokens_pos (w := w) hu
  have hge : countTokens w u.text ≤ (packStep w nfkc chunker s u).currentTokens := by
    unfold packStep
    split
    · exact Nat.le_add_left _ _
    · exact Nat.le_add_left _ _
  have hlast : ∀ v, (packStep w nfkc chunker s u).current.getLast? = some v → v = u := by
    intro v hv
    rw [packStep_current, List.getLast?_append] at hv
    exact (Option.some.inj hv).symm
  refine ⟨?_, fun _ => by omega, ?_, ?_⟩
  · rw [packStep_current]
    intro x hx
    rcases List.mem_append.mp hx with hx | hx
    · exact inFront_texts h u x hx
    · rw [List.mem_singleton.mp hx]
      exact hu
  · intro v hv
    rw [hlast v hv]
    exact hge
  · intro v hv hfull
    obtain rfl := hlast v hv
    rw [packStep_current, inFront_full h hfull]
    rfl

/-- Behind a full part there is the overlap in front of the next unit, where there is one and it
leaves room. -/
theorem inFront_after_full (h : PackingTokens w chunker s) {u v : Unit ρ}
    (hu : s.current.getLast? = some u) (hfull : countTokens w u.text = chunker.maxTokens)
    (hv : Trimmed v.text) :
    inFront w nfkc chunker s v = [] ↔ chunker.overlapTokens = 0 ∨
      chunker.maxTokens < chunker.overlapTokens + countTokens w v.text := by
  have hcurrent := h.full u hu hfull
  have htokens := h.last u hu
  have hpos := countTokens_pos (w := w) hv
  have htarget := chunker.target_le
  have hoverlap := chunker.overlap_lt
  have hflush : s.current ≠ [] ∧ chunker.targetTokens < s.currentTokens + countTokens w v.text :=
    ⟨by simp [hcurrent], by omega⟩
  unfold inFront
  rw [if_pos hflush, hcurrent]
  by_cases ho : chunker.overlapTokens = 0
  · refine iff_of_true ?_ (Or.inl ho)
    unfold carried overlap
    rw [if_pos ho]
    split
    · rfl
    · rfl
  · have hlong : chunker.overlapTokens < countTokens w u.text := by omega
    have hsel : overlap w nfkc chunker.overlapTokens [u]
        = [suffixUnit w nfkc chunker.overlapTokens u] := by
      unfold overlap
      rw [if_neg ho, List.reverse_singleton]
      unfold overlapLoop
      rw [if_neg (by simp), if_pos hlong]
    obtain ⟨a, -, -, hcount⟩ := suffixText_spec (w := w) (Nat.pos_of_ne_zero ho) hlong
      (h.texts u (List.mem_of_getLast? hu))
    have hjoined : countTokens w (joined (([suffixUnit w nfkc chunker.overlapTokens u]).map (·.text)))
        = chunker.overlapTokens := by
      show countTokens w (['\n', '\n'].intercalate [suffixText w chunker.overlapTokens u.text]) = _
      rw [List.intercalate_singleton, hcount]
    unfold carried
    rw [hsel, hjoined]
    by_cases hroom : chunker.maxTokens < chunker.overlapTokens + countTokens w v.text
    · rw [if_pos hroom]
      exact iff_of_true rfl (Or.inr hroom)
    · rw [if_neg hroom]
      exact iff_of_false (by simp) (by simp [ho, hroom])

/-! ## Well cut -/

/-- Behind a piece, with `rest` of the page ahead: there is white space, or the overlap and the
next piece do not fit into one chunk; and so on behind the next. -/
def WellCutBehind (w : WordClass) (chunker : DocumentChunker) :
    List Char → List (List Char) → Prop
  | _, [] => True
  | rest, p :: ps =>
    (StartsBlank rest ∨ chunker.overlapTokens = 0 ∨
      chunker.maxTokens < chunker.overlapTokens + countTokens w p) ∧
      WellCutBehind w chunker ((rest.dropWhile isSpace).drop p.length) ps

/-- Behind every piece of the text there is white space, or the overlap and the next piece do not
fit into one chunk. -/
def WellCut (w : WordClass) (chunker : DocumentChunker) : List (List Char) → List Char → Prop
  | [], _ => True
  | p :: ps, text => WellCutBehind w chunker ((text.dropWhile isSpace).drop p.length) ps

instance decidableStartsBlank : ∀ s : List Char, Decidable (StartsBlank s)
  | [] => isFalse fun h => by
    obtain ⟨c, rest, heq, -⟩ := h
    exact absurd heq (by simp)
  | c :: s => decidable_of_iff (isSpace c = true) ⟨fun h => ⟨c, s, rfl, h⟩, fun h => by
    obtain ⟨d, rest, heq, hd⟩ := h
    rwa [(List.cons.inj heq).1]⟩

instance decidableWellCutBehind (w : WordClass) (chunker : DocumentChunker) :
    ∀ (rest : List Char) (ps : List (List Char)), Decidable (WellCutBehind w chunker rest ps)
  | _, [] => isTrue trivial
  | rest, p :: ps =>
    have := decidableWellCutBehind w chunker ((rest.dropWhile isSpace).drop p.length) ps
    inferInstanceAs (Decidable ((StartsBlank rest ∨ chunker.overlapTokens = 0 ∨
      chunker.maxTokens < chunker.overlapTokens + countTokens w p) ∧
        WellCutBehind w chunker ((rest.dropWhile isSpace).drop p.length) ps))

instance decidableWellCut (w : WordClass) (chunker : DocumentChunker) :
    ∀ (ps : List (List Char)) (text : List Char), Decidable (WellCut w chunker ps text)
  | [], _ => isTrue trivial
  | p :: ps, text => decidableWellCutBehind w chunker ((text.dropWhile isSpace).drop p.length) ps

theorem dropWhile_gap (hgap : Blank gap) (ht : Trimmed t) (rest : List Char) :
    (gap ++ t ++ rest).dropWhile isSpace = t ++ rest ∧
      (gap ++ t ++ rest).takeWhile isSpace = gap := by
  cases t with
  | nil => exact absurd rfl ht.1
  | cons c t =>
    have hc : isSpace c = false := ht.2.1 c rfl
    rw [List.append_assoc, List.dropWhile_append_of_pos hgap, List.takeWhile_append_of_pos hgap]
    simp [hc]

theorem startsBlank_iff (hgap : Blank gap) (ht : Trimmed t) (rest : List Char) :
    StartsBlank (gap ++ t ++ rest) ↔ gap ≠ [] := by
  constructor
  · rintro ⟨c, rest', heq, hc⟩ rfl
    cases t with
    | nil => exact ht.1 rfl
    | cons d t =>
      obtain ⟨rfl, -⟩ := List.cons.inj heq
      rw [ht.2.1 d rfl] at hc
      exact absurd hc (by simp)
  · intro hne
    cases gap with
    | nil => exact absurd rfl hne
    | cons c gap => exact ⟨c, gap ++ t ++ rest, rfl, (blank_cons.mp hgap).1⟩

variable {v : Unit ρ}

/-- Without soft hyphens, neighbours are spaced exactly if there is white space between them. -/
theorem spaced_iff {u : Unit ρ} {front : List Char}
    (hyphen : softHyphen ∉ front ++ u.text ++ gap ++ v.text) (hu : Trimmed u.text)
    (hgap : Blank gap) (hv : Trimmed v.text)
    (hstop : u.stop = some ((plain (front ++ u.text)).length : Int))
    (hstart : v.start = some
      ((plain (front ++ u.text ++ gap ++ v.text)).length - (plain v.text).length : Int)) :
    Spaced u v ↔ gap ≠ [] := by
  have hplain : plain (front ++ u.text ++ gap ++ v.text)
      = plain (front ++ u.text) ++ (if gap = [] then [] else [' ']) ++ plain v.text := by
    simp only [List.mem_append, not_or] at hyphen
    exact plain_gap (by simp [hyphen]) hu hgap hv front hyphen.1.1.1
  unfold Spaced
  rw [hstop, hstart, hplain, length_lead]
  by_cases hg : gap = []
  · simp [hg]
  · simp [hg]

/-- The loop of `_pack` stands behind a unit, with the rest of the page ahead. -/
structure Behind (w : WordClass) (chunker : DocumentChunker) (page : List Char) (s : Packing ρ)
    (u : Unit ρ) (front rest : List Char) : Prop where
  tokens : PackingTokens w chunker s
  last : s.current.getLast? = some u
  page : page = front ++ u.text ++ rest
  stop : u.stop = some ((plain (front ++ u.text)).length : Int)
  line : ¬ blankLine <:+: u.text

variable {u : Unit ρ} {front rest : List Char}

theorem Behind.trimmed (h : Behind w chunker page s u front rest) : Trimmed u.text :=
  h.tokens.texts u (List.mem_of_getLast? h.last)

variable {vs : List (Unit ρ)}

/-- The next unit, laid and cut: the white space in front of it, and what is behind. -/
theorem Behind.next (h : Behind w chunker page s u front rest) {after tail : List Char}
    (hlaid : Laid (front ++ u.text) (v :: vs) after) (hpage : page = after ++ tail) :
    ∃ gap rest', rest = gap ++ v.text ++ rest' ∧ Blank gap ∧ Trimmed v.text ∧
      v.start = some
        ((plain (front ++ u.text ++ gap ++ v.text)).length - (plain v.text).length : Int) ∧
      v.stop = some ((plain (front ++ u.text ++ gap ++ v.text)).length : Int) ∧
      Laid (front ++ u.text ++ gap ++ v.text) vs after := by
  obtain ⟨gap, hgap, ht, hstop, hstart, hlaid⟩ := hlaid
  obtain ⟨more, hmore⟩ := hlaid.isPrefix
  refine ⟨gap, more ++ tail, ?_, hgap, ht, hstart, hstop, hlaid⟩
  have heq : front ++ u.text ++ rest = front ++ u.text ++ (gap ++ v.text ++ (more ++ tail)) := by
    rw [← h.page, hpage, ← hmore]
    simp
  exact List.append_cancel_left heq

/-- The cut of what is ahead, behind the next unit. -/
theorem behind_cuts {apart : List Char → Prop} {p : List Char} {ps : List (List Char)}
    (hcuts : Cuts apart (p :: ps) rest) {rest' : List Char} (hrest : rest = gap ++ p ++ rest')
    (hgap : Blank gap) (hp : Trimmed p) :
    Cuts apart ps rest' ∧ (apart p → ps ≠ [] → StartsBlank rest') := by
  obtain ⟨gap', rest'', heq, hgap', -, hapart, hcuts'⟩ := hcuts
  have hsame : rest'' = rest' := by
    have hdrop := (dropWhile_gap hgap' hp rest'').1
    rw [← heq, hrest, (dropWhile_gap hgap hp rest').1] at hdrop
    exact (List.append_cancel_left hdrop).symm
  rw [← hsame]
  exact ⟨hcuts', hapart⟩

/-- The round that takes the next unit. -/
theorem joinsSpaced_iff (h : Behind w chunker page s u front rest) {v : Unit ρ}
    {gap rest' : List Char} (hrest : rest = gap ++ v.text ++ rest') (hgap : Blank gap)
    (hv : Trimmed v.text)
    (hstart : v.start = some
      ((plain (front ++ u.text ++ gap ++ v.text)).length - (plain v.text).length : Int))
    (hyphen : softHyphen ∉ page) (hfull : countTokens w u.text ≠ chunker.maxTokens →
      StartsBlank rest) :
    JoinsSpaced w nfkc chunker s v ↔ StartsBlank rest ∨ chunker.overlapTokens = 0 ∨
      chunker.maxTokens < chunker.overlapTokens + countTokens w v.text := by
  have hpart : softHyphen ∉ front ++ u.text ++ gap ++ v.text := by
    intro hmem
    refine hyphen ?_
    rw [h.page, hrest]
    simp only [List.mem_append] at hmem ⊢
    tauto
  have hspaced : Spaced u v ↔ StartsBlank rest := by
    rw [spaced_iff hpart h.trimmed hgap hv h.stop hstart, hrest, startsBlank_iff hgap hv]
  have hjoins : JoinsSpaced w nfkc chunker s v ↔
      (inFront w nfkc chunker s v ≠ [] → StartsBlank rest) := by
    unfold JoinsSpaced
    rw [h.last, ← hspaced]
    constructor
    · exact fun hj hne => hj hne u rfl
    · intro hj hne x hx
      obtain rfl := Option.some.inj hx
      exact hj hne
  rw [hjoins]
  by_cases hblank : StartsBlank rest
  · exact iff_of_true (fun _ => hblank) (Or.inl hblank)
  · have hu : countTokens w u.text = chunker.maxTokens := by
      by_contra hne
      exact hblank (hfull hne)
    rw [← @inFront_after_full ρ w nfkc chunker s h.tokens u v h.last hu hv]
    constructor
    · intro hj
      refine Or.inr ?_
      by_contra hne
      exact hblank (hj hne)
    · rintro (hb | hnil) hne
      · exact hb
      · exact absurd hnil hne

/-- Behind the next unit. -/
theorem Behind.step (h : Behind w chunker page s u front rest) {v : Unit ρ}
    {gap rest' : List Char} (hrest : rest = gap ++ v.text ++ rest') (hv : Trimmed v.text)
    (hstop : v.stop = some ((plain (front ++ u.text ++ gap ++ v.text)).length : Int))
    (hline : ¬ blankLine <:+: v.text) :
    Behind w chunker page (packStep w nfkc chunker s v) v (front ++ u.text ++ gap) rest' where
  tokens := packStep_tokens h.tokens hv
  last := by
    rw [packStep_current, List.getLast?_append]
    rfl
  page := by
    rw [h.page, hrest]
    simp
  stop := hstop
  line := hline

/-- Where the page is well cut ahead, no round joins what has no white space between. -/
theorem along_of_wellCut (hyphen : softHyphen ∉ page) {after tail : List Char}
    (h : Behind w chunker page s u front rest) (hlaid : Laid (front ++ u.text) vs after)
    (hpage : page = after ++ tail)
    (hcuts : Cuts (fun p => countTokens w p ≠ chunker.maxTokens) (vs.map (·.text)) rest)
    (hfull : countTokens w u.text ≠ chunker.maxTokens → vs ≠ [] → StartsBlank rest)
    (hline : ∀ v ∈ vs, ¬ blankLine <:+: v.text)
    (hwell : WellCutBehind w chunker rest (vs.map (·.text))) :
    Along (packStep w nfkc chunker) (JoinsSpaced w nfkc chunker) s vs := by
  induction vs generalizing s u front rest with
  | nil => trivial
  | cons v vs ih =>
    obtain ⟨gap, rest', hrest, hgap, hv, hstart, hstop, hlaid'⟩ := h.next hlaid hpage
    have hjoins := @joinsSpaced_iff ρ w nfkc page chunker s u front rest h v gap rest' hrest hgap hv
      hstart hyphen fun hne => hfull hne (by simp)
    obtain ⟨hhere, hbehind⟩ := hwell
    have hstep := @Behind.step ρ w nfkc page chunker s u front rest h v gap rest' hrest hv hstop
      (hline v (by simp))
    obtain ⟨hcutrest, hfull'⟩ := behind_cuts hcuts hrest hgap hv
    refine ⟨hjoins.mpr hhere, ih hstep hlaid' hcutrest (fun hne hmore => ?_)
      (fun x hx => hline x (by simp [hx])) ?_⟩
    · exact hfull' hne (by simpa using hmore)
    · rw [hrest, (dropWhile_gap hgap hv rest').1, List.drop_left] at hbehind
      exact hbehind

/-! ## After a bad join -/

/-- A chunk with two neighbours that have no white space between them was kept, or is being
filled behind a chunk without a blank line. -/
def Broken (s : Packing ρ) : Prop :=
  (∃ c ∈ s.chunks, ¬ c.units.IsChain Spaced) ∨
    (¬ s.current.IsChain Spaced ∧ ∃ c, s.chunks.getLast? = some c ∧ ¬ blankLine <:+: c.text)

theorem packStep_broken (h : Broken s) (v : Unit ρ) : Broken (packStep w nfkc chunker s v) := by
  unfold packStep
  rcases h with ⟨c, hc, hbad⟩ | ⟨hbad, c, hc, hline⟩
  · refine Or.inl ⟨c, ?_, hbad⟩
    split
    · exact List.mem_append_left _ hc
    · exact hc
  · split
    next => exact Or.inl ⟨render s.current, by simp, hbad⟩
    next => exact Or.inr ⟨fun hchain => hbad hchain.left_of_append, c, hc, hline⟩

theorem run_packStep_broken (vs : List (Unit ρ)) (h : Broken s) :
    Broken (run (packStep w nfkc chunker) s vs) :=
  run_inv_of_step Broken (fun _ v hs => packStep_broken hs v) vs h

theorem run_packStep_tokens (vs : List (Unit ρ)) (ht : ∀ v ∈ vs, Trimmed v.text)
    (h : PackingTokens w chunker s) :
    PackingTokens w chunker (run (packStep w nfkc chunker) s vs) := by
  induction vs generalizing s with
  | nil => exact h
  | cons v vs ih =>
    exact ih (fun x hx => ht x (by simp [hx])) (packStep_tokens h (ht v (by simp)))

/-- Two units or more are joined by a blank line. -/
theorem blankLine_joined {t' : List Char} (ts : List (List Char)) :
    blankLine <:+: joined (t :: t' :: ts) := by
  refine ⟨t, joined (t' :: ts), ?_⟩
  unfold joined
  rw [List.intercalate_cons_cons]
  rfl

/-- The ruined chunk is among the chunks: the last one is no repetition. -/
theorem finish_broken (h : Broken s) (ht : PackingTokens w chunker s) :
    ∃ c ∈ s.finish, ¬ c.units.IsChain Spaced := by
  unfold Packing.finish
  rcases h with ⟨c, hc, hbad⟩ | ⟨hbad, c, hc, hline⟩
  · refine ⟨c, ?_, hbad⟩
    split
    · exact List.mem_append_left _ hc
    · exact hc
  · have hne : s.current ≠ [] := by
      intro hnil
      rw [hnil] at hbad
      exact hbad List.isChain_nil
    have hrendered : (render s.current).text = joined (s.current.map (·.text)) := by
      refine stripped_eq (trimmed_joined (by simpa using hne) fun t hmem => ?_)
      obtain ⟨u, hu, rfl⟩ := List.mem_map.mp hmem
      exact ht.texts u hu
    have htwo : blankLine <:+: (render s.current).text := by
      rw [hrendered]
      cases hcur : s.current with
      | nil => exact absurd hcur hne
      | cons x xs =>
        cases hxs : xs with
        | nil =>
          rw [hcur, hxs] at hbad
          exact absurd (List.isChain_singleton x) hbad
        | cons y ys => exact blankLine_joined _
    have hother : s.chunks.getLast?.map (·.text) ≠ some (render s.current).text := by
      rw [hc]
      intro heq
      rw [← Option.some.inj heq] at htwo
      exact hline htwo
    rw [if_pos ⟨hne, hother⟩]
    exact ⟨render s.current, by simp, hbad⟩

/-- The round that makes a bad join. -/
theorem packStep_breaks (h : Behind w chunker page s u front rest)
    (hfull : countTokens w u.text = chunker.maxTokens) (hv : Trimmed v.text)
    (hbad : ¬ JoinsSpaced w nfkc chunker s v) : Broken (packStep w nfkc chunker s v) := by
  have hcurrent := h.tokens.full u h.last hfull
  have hne : inFront w nfkc chunker s v ≠ [] := by
    intro hnil
    exact hbad fun hne => absurd hnil hne
  have hspaced : ¬ Spaced u v := by
    intro hs
    refine hbad fun _ x hx => ?_
    rw [h.last] at hx
    obtain rfl := Option.some.inj hx
    exact hs
  refine Or.inr ⟨?_, ?_⟩
  · rw [packStep_current]
    intro hchain
    -- what stands in front ends where the full part ended
    have hlast := List.getLast?_eq_some_getLast hne
    obtain ⟨x, hx, hstop⟩ := inFront_last hlast
    rw [h.last] at hx
    obtain rfl := Option.some.inj hx
    have hjoin := hchain.rel_getLast_head_of_append hne (by simp)
    rw [List.head_singleton] at hjoin
    unfold Spaced at hjoin hspaced
    rw [hstop] at hjoin
    exact hspaced hjoin
  · have htokens := h.tokens.last u h.last
    have htarget := chunker.target_le
    have hpos := countTokens_pos (w := w) hv
    have hflush : s.current ≠ [] ∧ chunker.targetTokens < s.currentTokens + countTokens w v.text :=
      ⟨by simp [hcurrent], by omega⟩
    refine ⟨render s.current, ?_, ?_⟩
    · unfold packStep
      rw [if_pos hflush, List.getLast?_append]
      rfl
    · rw [hcurrent]
      show ¬ blankLine <:+: stripped (['\n', '\n'].intercalate [u.text])
      rw [List.intercalate_singleton, stripped_eq h.trimmed]
      exact h.line

/-- Where the page is not well cut ahead, some round ruins a chunk. -/
theorem broken_of_not_wellCut (hyphen : softHyphen ∉ page) {after tail : List Char}
    (h : Behind w chunker page s u front rest) (hlaid : Laid (front ++ u.text) vs after)
    (hpage : page = after ++ tail)
    (hcuts : Cuts (fun p => countTokens w p ≠ chunker.maxTokens) (vs.map (·.text)) rest)
    (hfull : countTokens w u.text ≠ chunker.maxTokens → vs ≠ [] → StartsBlank rest)
    (hline : ∀ v ∈ vs, ¬ blankLine <:+: v.text)
    (hwell : ¬ WellCutBehind w chunker rest (vs.map (·.text))) :
    Broken (run (packStep w nfkc chunker) s vs) := by
  induction vs generalizing s u front rest with
  | nil => exact absurd trivial hwell
  | cons v vs ih =>
    obtain ⟨gap, rest', hrest, hgap, hv, hstart, hstop, hlaid'⟩ := h.next hlaid hpage
    have hjoins := @joinsSpaced_iff ρ w nfkc page chunker s u front rest h v gap rest' hrest hgap hv
      hstart hyphen fun hne => hfull hne (by simp)
    by_cases hhere : StartsBlank rest ∨ chunker.overlapTokens = 0 ∨
        chunker.maxTokens < chunker.overlapTokens + countTokens w v.text
    · have hstep := @Behind.step ρ w nfkc page chunker s u front rest h v gap rest' hrest hv hstop
        (hline v (by simp))
      obtain ⟨hcutrest, hfull'⟩ := behind_cuts hcuts hrest hgap hv
      refine ih hstep hlaid' hcutrest (fun hne hmore => hfull' hne (by simpa using hmore))
        (fun x hx => hline x (by simp [hx])) ?_
      intro hbehind
      refine hwell ⟨hhere, ?_⟩
      rw [hrest, (dropWhile_gap hgap hv rest').1, List.drop_left]
      exact hbehind
    · have hu : countTokens w u.text = chunker.maxTokens := by
        by_contra hne
        exact hhere (Or.inl (hfull hne (by simp)))
      exact run_packStep_broken vs (packStep_breaks h hu hv (mt hjoins.mp hhere))

/-! ## The result -/

theorem packingTokens_start : PackingTokens w chunker (Packing.start ρ) where
  texts := by simp [Packing.start]
  tokens := by simp [Packing.start]
  last := by simp [Packing.start]
  full := by simp [Packing.start]

/-- On a page without soft hyphens, no chunk has neighbours without white space between them
exactly if the page is well cut. -/
theorem chunks_chain_iff (hyphen : softHyphen ∉ page) {us : List (Unit ρ)} {after tail : List Char}
    (hlaid : Laid [] us after) (hpage : page = after ++ tail)
    (htexts : us.map (·.text) = pieces w chunker.maxTokens page) :
    (∀ c ∈ pack w nfkc chunker us, c.units.IsChain Spaced) ↔
      WellCut w chunker (pieces w chunker.maxTokens page) page := by
  have hmax : 1 ≤ chunker.maxTokens := by
    have := chunker.overlap_lt
    have := chunker.target_le
    omega
  have hcuts := cuts_pieces (w := w) hmax page
  have hlines := pieces_blankLine (w := w) hmax page
  rw [← htexts] at hcuts hlines ⊢
  cases us with
  | nil =>
    have hnone : pack w nfkc chunker ([] : List (Unit ρ)) = [] := by
      simp [pack, Packing.finish, Packing.start]
    rw [hnone]
    exact iff_of_true (by simp) trivial
  | cons u us =>
    obtain ⟨gap, hgap, ht, hstop, hstart, hrest⟩ := hlaid
    obtain ⟨more, hmore⟩ := hrest.isPrefix
    have hpage' : page = gap ++ u.text ++ (more ++ tail) := by
      rw [hpage, ← hmore]
      simp
    obtain ⟨hcutrest, hfull⟩ := behind_cuts hcuts hpage' hgap ht
    have hbehind : Behind w chunker page (packStep w nfkc chunker (Packing.start ρ) u) u gap
        (more ++ tail) := by
      refine ⟨packStep_tokens packingTokens_start ht, ?_, hpage', hstop, hlines _ (by simp)⟩
      rw [packStep_current, List.getLast?_append]
      rfl
    have hline : ∀ v ∈ us, ¬ blankLine <:+: v.text :=
      fun v hv => hlines v.text (List.mem_map.mpr ⟨v, by simp [hv], rfl⟩)
    have hfull' : countTokens w u.text ≠ chunker.maxTokens → us ≠ [] →
        StartsBlank (more ++ tail) := fun hne hus => hfull hne (by simpa using hus)
    have hwell : WellCut w chunker ((u :: us).map (·.text)) page ↔
        WellCutBehind w chunker (more ++ tail) (us.map (·.text)) := by
      show WellCutBehind w chunker ((page.dropWhile isSpace).drop u.text.length) _ ↔ _
      rw [hpage', (dropWhile_gap hgap ht (more ++ tail)).1, List.drop_left]
    rw [hwell]
    constructor
    · intro hchain
      by_contra hbad
      have hbroken : Broken
          (run (packStep w nfkc chunker) (packStep w nfkc chunker (Packing.start ρ) u) us) :=
        broken_of_not_wellCut hyphen hbehind hrest hpage hcutrest hfull' hline hbad
      have htokens : PackingTokens w chunker
          (run (packStep w nfkc chunker) (packStep w nfkc chunker (Packing.start ρ) u) us) :=
        run_packStep_tokens us (fun v hv => (hrest.texts v hv).2) hbehind.tokens
      obtain ⟨c, hc, hnot⟩ := finish_broken hbroken htokens
      exact hnot (hchain c hc)
    · intro hgood
      refine chain_of_along chunker ⟨fun hne => ?_, ?_⟩
      · exact absurd (by simp [inFront, Packing.start]) hne
      · exact along_of_wellCut hyphen hbehind hrest hpage hcutrest hfull' hline hgood

/-- **Where the chunks stand.** `_units` never raises on a page of text. Every chunk stands in
the page at the offset of its first unit exactly if the seams of all chunks are blanks of the page;
on a page without soft hyphens, exactly if there is white space behind every piece the page
is cut into, or the overlap and the next piece do not fit into one chunk. -/
theorem chunks_located_iff (page : ParsedPage ρ) (hpage : DirectPage page)
    (hn : Settled nfkc page.text) (chunker : DocumentChunker) :
    ∃ us, units w nfkc chunker page = .ok us ∧
      ((∀ c ∈ pack w nfkc chunker us, Located nfkc page.text c) ↔
        ∀ c ∈ pack w nfkc chunker us, Seamless nfkc c.units) ∧
      (softHyphen ∉ page.text →
        ((∀ c ∈ pack w nfkc chunker us, Located nfkc page.text c) ↔
          WellCut w chunker (pieces w chunker.maxTokens page.text) page.text)) := by
  obtain ⟨us, after, tail, hus, hlaid, htail, htexts⟩ := @units_laid ρ w nfkc page hpage hn chunker
  have hpacked := packed_laid (w := w) hn chunker hlaid htail
  have hlocated : ∀ c ∈ pack w nfkc chunker us,
      (Located nfkc page.text c ↔ Seamless nfkc c.units) := by
    intro c hc
    obtain ⟨hne, hrender, hstretch⟩ := hpacked c hc
    exact located_iff hn hne hrender hstretch
  refine ⟨us, hus, forall₂_congr hlocated, fun hyphen => ?_⟩
  rw [← @chunks_chain_iff ρ w nfkc page.text chunker hyphen us after tail hlaid htail htexts]
  refine forall₂_congr fun c hc => ?_
  rw [hlocated c hc]
  refine seamless_iff_chain fun u hu => ?_
  -- every unit is visible
  obtain ⟨-, -, before, after', rest, hlaid', hrest⟩ := hpacked c hc
  obtain ⟨hwithin, ht⟩ := hlaid'.texts u hu
  have hwithin' : u.text <:+: page.text := hwithin.trans ⟨[], rest, by rw [hrest]; rfl⟩
  exact (visible_iff hn hwithin').mpr (plain_ne_nil ht fun hmem => hyphen (hwithin'.subset hmem))

/-! ## A page cut badly -/

/-- Chunks of at most two tokens, one of them repeated. -/
def pairChunker : DocumentChunker where
  targetTokens := 2
  maxTokens := 2
  overlapTokens := 1
  overlap_lt := by decide
  target_le := by decide
  parserVersion := "parser"
  chunkingVersion := "chunking"
  embeddingVersion := "embedding"
  schemaVersion := "schema"

/-- A page of text, with rectangles of no kind. -/
def textPage (text : List Char) : ParsedPage Nat where
  pageNumber := 1
  text := text
  parseMethod := .direct
  blocks := []
  fragments := []

/-- A run over ASCII text, with a constant digest. -/
def asciiContext : ChunkContext Nat where
  word := asciiWord
  nfkc := id
  sha256 _ := List.replicate 64 '0'
  chunkUuid _ ordinal _ _ _ := ordinal
  regionError _ := none
  documentId := 1
  filename := "page.pdf"
  sourceSha256 := List.replicate 64 '0'

/-- "a b.": the full stop is cut off the third token, and the overlap "b" is joined to it with a
blank line. -/
theorem chunks_misplaced :
    (∃ us, units asciiWord id pairChunker (textPage "a b.".toList) = .ok us ∧
      ∃ c ∈ pack asciiWord id pairChunker us, ¬ Located id "a b.".toList c) ∧
    (chunk asciiContext pairChunker [textPage "a b.".toList]).map (fun _ => ())
      = .error "digital chunk offset does not match authoritative page text" := by
  refine ⟨⟨[⟨"a b".toList, none, [], some 0, some 3⟩, ⟨".".toList, none, [], some 3, some 4⟩], rfl,
    render [⟨"b".toList, none, [], some 2, some 3⟩, ⟨".".toList, none, [], some 3, some 4⟩], ?_, ?_⟩,
    rfl⟩
  · have hpack : pack asciiWord id pairChunker
        [⟨"a b".toList, none, ([] : List Nat), some 0, some 3⟩, ⟨".".toList, none, [], some 3, some 4⟩]
        = [render [⟨"a b".toList, none, [], some 0, some 3⟩],
          render [⟨"b".toList, none, [], some 2, some 3⟩, ⟨".".toList, none, [], some 3, some 4⟩]] := rfl
    rw [hpack]
    exact List.mem_cons_of_mem _ (List.mem_singleton.mpr rfl)
  · intro hlocated
    obtain ⟨k, hk, hocc⟩ := hlocated
    have hk' : (2 : Int) = (k : Int) := Option.some.inj hk
    obtain rfl : k = 2 := by omega
    exact absurd hocc (by decide)

/-- The result on that page: it has no soft hyphen, and it is not well cut. -/
theorem chunks_located_iff_pair :
    ∃ us, units asciiWord id pairChunker (textPage "a b.".toList) = .ok us ∧
      ¬ ∀ c ∈ pack asciiWord id pairChunker us, Located id "a b.".toList c := by
  obtain ⟨us, hus, -, hclosed⟩ := @chunks_located_iff Nat asciiWord id (textPage "a b.".toList)
    ⟨rfl, rfl⟩ ⟨fun _ _ => rfl⟩ pairChunker
  refine ⟨us, hus, fun hall => ?_⟩
  have hwell := (hclosed (by decide)).mp hall
  exact absurd hwell (by decide)

/-- A unit for each part, with the part as its text. -/
theorem partUnits_texts {hasBlocks : Bool} {sectionName : Option (List Char)}
    {regions : List ρ} {cursor : Nat} {parts : List (List Char)} {r : List (Unit ρ) × Nat}
    (h : partUnits nfkc page hasBlocks sectionName regions cursor parts = .ok r) :
    r.1.map (·.text) = parts := by
  induction parts generalizing cursor r with
  | nil =>
    obtain rfl := Except.ok.inj h
    rfl
  | cons part parts ih =>
    unfold partUnits at h
    split at h
    · obtain ⟨rest, hrest, rfl⟩ := map_eq_ok.mp h
      rw [List.map_cons, ih hrest]
    · split at h
      · cases h
      · obtain ⟨rest, hrest, rfl⟩ := map_eq_ok.mp h
        rw [List.map_cons, ih hrest]

end LocalRag.Chunking
