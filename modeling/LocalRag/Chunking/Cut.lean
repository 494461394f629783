import LocalRag.Chunking.Tokens
import LocalRag.Highlight.Anchor
import LocalRag.Ingest.Process

/-!
# Cutting a page — paragraphs, sentences and parts of sentences

Mirrors the two `re.split` calls of `DocumentChunker._units` and `_split_oversized`
(`app/services/chunking.py`). Each expression matches white space, in at most one way
at a position: the run is taken whole, and of a paragraph break as much of it as ends
with a line feed.

`Cuts` is what every one of the three cuts does: the pieces stand in the text in their
order, trimmed, and everything between them is white space. Paragraphs and
sentences are cut at white space, so there is some between any two of them; the
parts of a long sentence are cut at its 900th token, where there may be none.

- `cuts_sentences`: a page is cut into its sentences, with white space between any two.
- `cuts_pieces`: it is cut into the parts of its sentences, with white space behind every part
  that is not full.
-/

namespace LocalRag.Chunking

open LocalRag.Core Highlight

/-! ## `re.split` -/

/-- `re.split` for an expression that matches at a position in at most one way. `matchAt` sees
the character before the position and what follows; `skip` counts the characters of
the last match still ahead, `piece` is what has been read since. -/
def splitFrom (matchAt : Option Char → List Char → Option Nat) :
    Option Char → Nat → List Char → List Char → List (List Char)
  | _, _, piece, [] => [piece]
  | _, skip + 1, piece, c :: cs => splitFrom matchAt (some c) skip piece cs
  | prev, 0, piece, c :: cs =>
    match matchAt prev (c :: cs) with
    | some n => piece :: splitFrom matchAt (some c) (n - 1) [] cs
    | none => splitFrom matchAt (some c) 0 (piece ++ [c]) cs

def reSplit (matchAt : Option Char → List Char → Option Nat) (text : List Char) :
    List (List Char) :=
  splitFrom matchAt none 0 [] text

/-- `\n\s*\n`. -/
def paragraphBreak (_ : Option Char) : List Char → Option Nat
  | [] => none
  | c :: rest =>
    if c = '\n' ∧ '\n' ∈ rest.takeWhile isSpace then
      some (1 + ((rest.takeWhile isSpace).rdropWhile (· ≠ '\n')).length)
    else none

/-- The marks that end a sentence. -/
def sentenceMarks : List Char :=
  ['.', '!', '?', Char.ofNat 0x3002, Char.ofNat 0xff01, Char.ofNat 0xff1f]

/-- `SENTENCE_BOUNDARY`. -/
def sentenceBoundary (prev : Option Char) (s : List Char) : Option Nat :=
  if prev.any (· ∈ sentenceMarks) ∧ s.takeWhile isSpace ≠ [] then
    some (s.takeWhile isSpace).length
  else none

/-- `str.strip()`. -/
def stripped (s : List Char) : List Char := trim isSpace s

/-- The pieces that are not blank, stripped. -/
def trimmedPieces (pieces : List (List Char)) : List (List Char) :=
  (pieces.map stripped).filter (· ≠ [])

/-- The stripped paragraphs of a page. -/
def paragraphs (text : List Char) : List (List Char) :=
  trimmedPieces (reSplit paragraphBreak (stripped text))

/-- The stripped sentences of a stripped paragraph. -/
def sentences (paragraph : List Char) : List (List Char) :=
  trimmedPieces (reSplit sentenceBoundary paragraph)

/-! ## `_split_oversized` -/

/-- `text[group[0].start() : group[-1].end()].strip()`. -/
def groupText (text : List Char) (group : List (Nat × Nat)) : List Char :=
  stripped (slice text (group.head?.map (·.1) |>.getD 0) (group.getLast?.map (·.2) |>.getD 0))

/-- `_split_oversized`. -/
def splitOversized (w : WordClass) (maxTokens : Nat) (text : List Char) : List (List Char) :=
  if (tokens w text).length ≤ maxTokens then [text]
  else (Ingest.batches maxTokens (tokens w text)).map (groupText text)

/-! ## Stripping -/

theorem blank_takeWhile (s : List Char) : Blank (s.takeWhile isSpace) :=
  fun _ hc => List.mem_takeWhile_imp hc

/-- A text is white space, its stripped form and white space. -/
theorem stripped_spec (s : List Char) :
    ∃ front back, s = front ++ stripped s ++ back ∧ Blank front ∧ Blank back ∧
      (stripped s ≠ [] → Trimmed (stripped s)) := by
  have hs : s = s.takeWhile isSpace ++ stripped s ++ (s.dropWhile isSpace).rtakeWhile isSpace := by
    unfold stripped trim
    rw [List.append_assoc, List.rdropWhile_append_rtakeWhile, List.takeWhile_append_dropWhile]
  refine ⟨s.takeWhile isSpace, (s.dropWhile isSpace).rtakeWhile isSpace, hs,
    blank_takeWhile s, fun _ hc => List.mem_rtakeWhile_imp hc, fun hne => ⟨hne, ?_, ?_⟩⟩
  · intro c hc
    -- the first character is the first that is no space
    obtain ⟨back, hback⟩ : stripped s <+: s.dropWhile isSpace := List.rdropWhile_prefix isSpace _
    have hhead : (s.dropWhile isSpace).head? = some c := by
      rw [← hback, List.head?_append, hc]
      rfl
    have hnot := List.head?_dropWhile_not isSpace s
    rw [hhead] at hnot
    simpa using hnot
  · intro c hc
    have hlast := List.rdropWhile_last_not isSpace _ hne
    have hc' : (stripped s).getLast hne = c := by
      rw [List.getLast?_eq_some_getLast hne] at hc
      exact Option.some.inj hc
    have hlast' : ¬ isSpace ((stripped s).getLast hne) = true := hlast
    rw [hc'] at hlast'
    simpa using hlast'

/-- Nothing to strip. -/
theorem stripped_eq {s : List Char} (h : Trimmed s) : stripped s = s := by
  have hdrop : s.dropWhile isSpace = s := by
    cases s with
    | nil => rfl
    | cons c s => exact List.dropWhile_cons_of_neg (by simp [h.2.1 c rfl])
  unfold stripped trim
  rw [hdrop, List.rdropWhile_eq_self_iff]
  intro hne
  have hlast := h.2.2 (s.getLast hne) (List.getLast?_eq_some_getLast hne)
  simp [hlast]

/-! ## Pieces of a text -/

/-- There is white space at the start. -/
def StartsBlank (s : List Char) : Prop := ∃ c rest, s = c :: rest ∧ isSpace c = true

/-- The text is these trimmed pieces in order and white space around them; between a piece of
which `apart` holds and the next there is some. -/
def Cuts (apart : List Char → Prop) : List (List Char) → List Char → Prop
  | [], s => Blank s
  | p :: ps, s => ∃ gap rest, s = gap ++ p ++ rest ∧ Blank gap ∧ Trimmed p ∧
      (apart p → ps ≠ [] → StartsBlank rest) ∧ Cuts apart ps rest

/-- White space between any two pieces. -/
abbrev CutsApart : List (List Char) → List Char → Prop := Cuts fun _ => True

variable {apart : List Char → Prop}

theorem cuts_blank {gap s : List Char} (hgap : Blank gap) {ps : List (List Char)}
    (h : Cuts apart ps s) : Cuts apart ps (gap ++ s) := by
  cases ps with
  | nil => exact blank_append.mpr ⟨hgap, h⟩
  | cons p ps =>
    obtain ⟨gap', rest, rfl, hgap', hp, hstart, hrest⟩ := h
    exact ⟨gap ++ gap', rest, by simp, blank_append.mpr ⟨hgap, hgap'⟩, hp, hstart, hrest⟩

/-- Two cut texts put together. -/
theorem cuts_append {ps qs : List (List Char)} {s t : List Char} (hs : Cuts apart ps s)
    (ht : Cuts apart qs t)
    (hstart : ∀ p ∈ ps, apart p → qs ≠ [] → StartsBlank t) :
    Cuts apart (ps ++ qs) (s ++ t) := by
  induction ps generalizing s with
  | nil => exact cuts_blank hs ht
  | cons p ps ih =>
    obtain ⟨gap, rest, rfl, hgap, hp, hrest, hcuts⟩ := hs
    refine ⟨gap, rest ++ t, by simp, hgap, hp, ?_, ih hcuts ?_⟩
    · intro ha hne
      cases ps with
      | nil =>
        -- the last piece of the first text: what is left of it is white space
        cases rest with
        | nil => exact hstart p (by simp) ha hne
        | cons c rest => exact ⟨c, rest ++ t, rfl, (blank_cons.mp hcuts).1⟩
      | cons q ps =>
        obtain ⟨c, rest', rfl, hc⟩ := hrest ha (by simp)
        exact ⟨c, rest' ++ t, rfl, hc⟩
    · intro q hq ha hqs
      exact hstart q (by simp [hq]) ha hqs

/-- Pieces cut again. -/
theorem cuts_flatMap {ps : List (List Char)} {s : List Char} (h : CutsApart ps s)
    (f : List Char → List (List Char)) (hf : ∀ p ∈ ps, Cuts apart (f p) p) :
    Cuts apart (ps.flatMap f) s := by
  induction ps generalizing s with
  | nil => exact h
  | cons p ps ih =>
    obtain ⟨gap, rest, rfl, hgap, -, hstart, hrest⟩ := h
    rw [List.flatMap_cons, List.append_assoc]
    refine cuts_blank hgap (cuts_append (hf p (by simp)) ?_ ?_)
    · exact ih hrest fun q hq => hf q (by simp [hq])
    · intro _ _ _ hps
      refine hstart trivial ?_
      rintro rfl
      exact hps rfl

theorem Cuts.trimmed {ps : List (List Char)} {s : List Char} (h : Cuts apart ps s) :
    ∀ p ∈ ps, Trimmed p := by
  induction ps generalizing s with
  | nil => simp
  | cons p ps ih =>
    obtain ⟨gap, rest, rfl, hgap, hp, -, hrest⟩ := h
    intro q hq
    rcases List.mem_cons.mp hq with rfl | hq
    · exact hp
    · exact ih hrest q hq

theorem Cuts.isInfix {ps : List (List Char)} {s : List Char} (h : Cuts apart ps s) :
    ∀ p ∈ ps, p <:+: s := by
  induction ps generalizing s with
  | nil => simp
  | cons p ps ih =>
    obtain ⟨gap, rest, rfl, hgap, hp, -, hrest⟩ := h
    intro q hq
    rcases List.mem_cons.mp hq with rfl | hq
    · exact ⟨gap, rest, rfl⟩
    · exact (ih hrest q hq).trans (List.suffix_append _ _).isInfix

/-- One text, stripped, if anything is left of it. -/
theorem cuts_trimmedPieces_one (s : List Char) : Cuts apart (trimmedPieces [s]) s := by
  obtain ⟨front, back, hs, hfront, hback, htrimmed⟩ := stripped_spec s
  unfold trimmedPieces
  by_cases hne : stripped s = []
  · rw [hne] at hs
    simp only [List.map_cons, List.map_nil, hne]
    rw [hs]
    exact blank_append.mpr ⟨by simpa using hfront, hback⟩
  · simp only [List.map_cons, List.map_nil, List.filter_cons, List.filter_nil]
    rw [if_pos (by simpa using hne)]
    exact ⟨front, back, hs, hfront, htrimmed hne, fun _ h => absurd rfl h, hback⟩

/-- A match is a white space run, of at least one character. -/
def MatchesBlank (matchAt : Option Char → List Char → Option Nat) : Prop :=
  ∀ prev s n, matchAt prev s = some n → 1 ≤ n ∧ Blank (s.take n)

theorem cuts_splitFrom {matchAt : Option Char → List Char → Option Nat}
    (hmatch : MatchesBlank matchAt) (prev : Option Char) (skip : Nat) (piece s : List Char)
    (hskip : Blank (s.take skip)) (hpiece : skip = 0 ∨ piece = []) :
    Cuts apart (trimmedPieces (splitFrom matchAt prev skip piece s)) (piece ++ s) := by
  induction s generalizing prev skip piece with
  | nil =>
    rw [splitFrom, List.append_nil]
    exact cuts_trimmedPieces_one piece
  | cons c cs ih =>
    cases skip with
    | succ skip =>
      have hnil : piece = [] := by simpa using hpiece
      obtain ⟨hc, hcs⟩ := blank_cons.mp (by simpa using hskip)
      rw [hnil, splitFrom]
      exact cuts_blank (blank_cons.mpr ⟨hc, blank_nil⟩) (ih (some c) skip [] hcs (Or.inr rfl))
    | zero =>
      rw [splitFrom]
      split
      next n hn =>
        obtain ⟨hn1, hblank⟩ := hmatch prev (c :: cs) n hn
        obtain ⟨k, rfl⟩ := Nat.exists_eq_add_of_le' hn1
        obtain ⟨hc, hcs⟩ := blank_cons.mp (by simpa using hblank)
        have hrest := ih (some c) k [] hcs (Or.inr rfl)
        have hpieces : trimmedPieces (piece :: splitFrom matchAt (some c) (k + 1 - 1) [] cs)
            = trimmedPieces [piece] ++ trimmedPieces (splitFrom matchAt (some c) k [] cs) := by
          simp [trimmedPieces, List.filter_cons]
          split <;> rfl
        rw [hpieces]
        exact cuts_append (cuts_trimmedPieces_one piece)
          (cuts_blank (blank_cons.mpr ⟨hc, blank_nil⟩) hrest) fun _ _ _ _ => ⟨c, cs, rfl, hc⟩
      next =>
        have hcons : piece ++ c :: cs = piece ++ [c] ++ cs := by simp
        rw [hcons]
        exact ih (some c) 0 (piece ++ [c]) (by simp [blank_nil]) (Or.inl rfl)

theorem cuts_reSplit {matchAt : Option Char → List Char → Option Nat}
    (hmatch : MatchesBlank matchAt) (text : List Char) :
    Cuts apart (trimmedPieces (reSplit matchAt text)) text :=
  cuts_splitFrom hmatch none 0 [] text (by simp [blank_nil]) (Or.inl rfl)

theorem paragraphBreak_blank : MatchesBlank paragraphBreak := by
  intro prev s n h
  unfold paragraphBreak at h
  split at h
  next => exact absurd h (by simp)
  next c rest =>
    split at h
    next hbreak =>
      obtain rfl := Option.some.inj h
      refine ⟨Nat.le_add_right 1 _, ?_⟩
      have hpre : (rest.takeWhile isSpace).rdropWhile (· ≠ '\n') <+: rest :=
        (List.rdropWhile_prefix _ _).trans (List.takeWhile_prefix isSpace)
      have htake := List.prefix_iff_eq_take.mp hpre
      rw [Nat.add_comm, List.take_succ_cons, ← htake]
      refine blank_cons.mpr ⟨by rw [hbreak.1]; decide, fun d hd => ?_⟩
      exact blank_takeWhile rest d ((List.rdropWhile_prefix _ _).subset hd)
    next => exact absurd h (by simp)

theorem sentenceBoundary_blank : MatchesBlank sentenceBoundary := by
  intro prev s n h
  unfold sentenceBoundary at h
  split at h
  next hrun =>
    obtain rfl := Option.some.inj h
    refine ⟨List.length_pos_of_ne_nil hrun.2, ?_⟩
    rw [← List.prefix_iff_eq_take.mp (List.takeWhile_prefix isSpace)]
    exact blank_takeWhile s
  next => exact absurd h (by simp)

theorem cuts_paragraphs (text : List Char) : CutsApart (paragraphs text) text := by
  obtain ⟨front, back, htext, hfront, hback, -⟩ := stripped_spec text
  have hcuts : CutsApart (paragraphs text) (stripped text ++ back) := by
    have hone : CutsApart (paragraphs text) (stripped text) :=
      cuts_reSplit paragraphBreak_blank (stripped text)
    have hnone : CutsApart [] back := hback
    have happ := cuts_append hone hnone fun _ _ _ h => absurd rfl h
    rwa [List.append_nil] at happ
  have hall := cuts_blank hfront hcuts
  rwa [← List.append_assoc, ← htext] at hall

/-- A page is cut into its sentences, with white space between any two. -/
theorem cuts_sentences (text : List Char) :
    CutsApart ((paragraphs text).flatMap sentences) text :=
  cuts_flatMap (cuts_paragraphs text) sentences fun p _ => cuts_reSplit sentenceBoundary_blank p

/-! ## The parts of a sentence -/

theorem batches_nil {α : Type} {size : Nat} (hsize : 1 ≤ size) :
    Ingest.batches size ([] : List α) = [] := by
  have hdiv : (([] : List α).length + (size - 1)) / size = 0 := by
    rw [List.length_nil, Nat.zero_add]
    exact Nat.div_eq_of_lt (by omega)
  unfold Ingest.batches
  rw [hdiv]
  rfl

/-- `range(0, n, size)`, one round at a time. -/
theorem batches_eq {α : Type} {size : Nat} (hsize : 1 ≤ size) {values : List α}
    (hne : values ≠ []) :
    Ingest.batches size values = values.take size :: Ingest.batches size (values.drop size) := by
  have hlen := List.length_pos_of_ne_nil hne
  have hdiv : (values.length + (size - 1)) / size
      = ((values.drop size).length + (size - 1)) / size + 1 := by
    rw [List.length_drop]
    by_cases hle : values.length ≤ size
    · have h0 : (values.length - size + (size - 1)) / size = 0 := Nat.div_eq_of_lt (by omega)
      rw [h0]
      exact Nat.div_eq_of_lt_le (by omega) (by omega)
    · have hsub : values.length + (size - 1) = values.length - size + (size - 1) + size := by omega
      rw [hsub, Nat.add_div_right _ hsize]
  unfold Ingest.batches
  rw [hdiv, List.range_succ_eq_map, List.map_cons, List.map_map]
  congr 1
  · simp
  · apply List.map_congr_left
    intro i _
    show ((values.drop ((i + 1) * size)).take size) = _
    rw [List.drop_drop, Nat.add_mul, Nat.one_mul, Nat.add_comm]

/-- A slice between two positions of the text. -/
theorem slice_middle (x y z : List Char) :
    slice (x ++ y ++ z) x.length (x.length + y.length) = y := by
  unfold slice
  rw [← List.length_append, List.take_left, List.drop_left]

/-- The texts of the groups of tokens of `s`, which stands behind `front`. -/
def groupTexts (w : WordClass) (maxTokens : Nat) (front s : List Char) : List (List Char) :=
  (Ingest.batches maxTokens (tokensFrom w none front.length s)).map (groupText (front ++ s))

/-- There is no group, or the first one is a body with at most `maxTokens` tokens, as many if more
follow, and the others are those of what stands behind it. -/
theorem groupTexts_cases {w : WordClass} {maxTokens : Nat} (hmax : 1 ≤ maxTokens)
    (front s : List Char) :
    (Blank s ∧ groupTexts w maxTokens front s = []) ∨
      ∃ gap body rest, s = gap ++ body ++ rest ∧ Blank gap ∧ Trimmed body ∧
        CutsTokens w body rest ∧ countTokens w body ≤ maxTokens ∧
        (groupTexts w maxTokens (front ++ gap ++ body) rest ≠ [] →
          countTokens w body = maxTokens) ∧
        groupTexts w maxTokens front s =
          body :: groupTexts w maxTokens (front ++ gap ++ body) rest := by
  cases hms : tokensFrom w none front.length s with
  | nil =>
    refine Or.inl ⟨tokensFrom_eq_nil hms, ?_⟩
    unfold groupTexts
    rw [hms, batches_nil hmax]
    rfl
  | cons m ms =>
    obtain ⟨k, rfl⟩ := Nat.exists_eq_add_of_le' hmax
    have hsplit : tokensFrom w none front.length s = m :: ms.take k ++ ms.drop k := by
      rw [hms, List.cons_append, List.take_append_drop]
    obtain ⟨gap, body, rest, rfl, hgap, hbody, hfirst, hlast, hcount, hcut, hrest⟩ :=
      tokensFrom_split hsplit
    have hlen : (front ++ gap ++ body).length = front.length + gap.length + body.length := by
      rw [List.length_append, List.length_append]
    have htext : front ++ (gap ++ body ++ rest) = front ++ gap ++ body ++ rest := by simp
    -- the group is the body, and the other groups are those of what is left
    have hgroup : groupText (front ++ gap ++ body ++ rest) (m :: ms.take k) = body := by
      unfold groupText
      rw [List.getLast?_eq_some_getLast (List.cons_ne_nil _ _), List.head?_cons]
      simp only [Option.map_some, Option.getD_some]
      rw [hfirst, hlast, ← List.length_append, slice_middle, stripped_eq hbody]
    have hbodyCount : countTokens w body = 1 + min k ms.length := by
      have htokens := congrArg List.length hcount
      rw [length_tokensFrom, List.length_cons, List.length_take] at htokens
      rw [countTokens_eq, Nat.add_comm 1]
      exact htokens
    refine Or.inr ⟨gap, body, rest, rfl, hgap, hbody, hcut, by omega, fun hmore => ?_, ?_⟩
    · -- there is a next group, so this one is full
      have hdrop : ms.drop k ≠ [] := by
        intro h
        unfold groupTexts at hmore
        rw [hlen, hrest, h, batches_nil hmax] at hmore
        exact hmore rfl
      have hk : k < ms.length := by
        by_contra hle
        exact hdrop (List.drop_of_length_le (by omega))
      omega
    · unfold groupTexts
      rw [hms, batches_eq hmax (List.cons_ne_nil m ms), List.take_succ_cons, List.drop_succ_cons,
        htext, List.map_cons, hgroup, hlen, hrest]

/-- The groups of tokens of the text behind `front` cut it; only behind a full group the next
may follow with no white space between. -/
theorem cuts_groupTexts {w : WordClass} {maxTokens : Nat} (hmax : 1 ≤ maxTokens)
    (front s : List Char) :
    Cuts (fun p => countTokens w p ≠ maxTokens) (groupTexts w maxTokens front s) s := by
  obtain ⟨n, hn⟩ : ∃ n, n = s.length := ⟨_, rfl⟩
  induction n using Nat.strong_induction_on generalizing front s with
  | _ n ih =>
    rcases groupTexts_cases (w := w) hmax front s with
      ⟨hblank, heq⟩ | ⟨gap, body, rest, rfl, hgap, hbody, -, -, hfull, heq⟩
    · rw [heq]
      exact hblank
    · rw [heq]
      have hpos := List.length_pos_of_ne_nil hbody.1
      have hih := ih rest.length (by rw [hn]; simp only [List.length_append]; omega)
        (front ++ gap ++ body) rest rfl
      exact ⟨gap, rest, rfl, hgap, hbody, fun hnotfull hmore => absurd (hfull hmore) hnotfull, hih⟩

/-- A trimmed text is cut into its parts. -/
theorem cuts_splitOversized {w : WordClass} {maxTokens : Nat} (hmax : 1 ≤ maxTokens)
    {text : List Char} (h : Trimmed text) :
    Cuts (fun p => countTokens w p ≠ maxTokens) (splitOversized w maxTokens text) text := by
  unfold splitOversized
  split
  · exact ⟨[], [], by simp, blank_nil, h, fun _ hne => absurd rfl hne, blank_nil⟩
  · exact cuts_groupTexts hmax [] text

/-- The pieces a page is cut into. -/
def pieces (w : WordClass) (maxTokens : Nat) (text : List Char) : List (List Char) :=
  ((paragraphs text).flatMap sentences).flatMap (splitOversized w maxTokens)

/-- Between two pieces there is white space, unless the first has all the tokens a piece can
have. -/
theorem cuts_pieces {w : WordClass} {maxTokens : Nat} (hmax : 1 ≤ maxTokens) (text : List Char) :
    Cuts (fun p => countTokens w p ≠ maxTokens) (pieces w maxTokens text) text :=
  cuts_flatMap (cuts_sentences text) _ fun p hp =>
    cuts_splitOversized hmax ((cuts_sentences text).trimmed p hp)

/-! ## No blank line in a piece -/

/-- The text of a blank line. -/
def blankLine : List Char := ['\n', '\n']

theorem paragraphBreak_line {prev : Option Char} {cs : List Char}
    (h : paragraphBreak prev ('\n' :: cs) = none) : cs.head? ≠ some '\n' := by
  intro hcs
  cases cs with
  | nil => exact absurd hcs (by simp)
  | cons d cs =>
    obtain rfl := Option.some.inj hcs
    have hspace : isSpace '\n' = true := by decide
    simp [paragraphBreak, hspace] at h

/-- What is read between two paragraph breaks has no blank line: the first of its line feeds would
have been a break. -/
theorem splitFrom_blankLine (prev : Option Char) (skip : Nat) (piece s : List Char)
    (hpiece : ¬ blankLine <:+: piece) (hskip : skip = 0 ∨ piece = [])
    (hnext : piece.getLast? = some '\n' → s.head? ≠ some '\n') :
    ∀ p ∈ splitFrom paragraphBreak prev skip piece s, ¬ blankLine <:+: p := by
  have hnil : ¬ blankLine <:+: ([] : List Char) := by decide
  induction s generalizing prev skip piece with
  | nil =>
    intro p hp
    rw [splitFrom, List.mem_singleton] at hp
    rwa [hp]
  | cons c cs ih =>
    cases skip with
    | succ skip =>
      obtain rfl : piece = [] := by simpa using hskip
      rw [splitFrom]
      exact ih (some c) skip [] hnil (Or.inr rfl) (by simp)
    | zero =>
      rw [splitFrom]
      split
      next n hn =>
        intro p hp
        rcases List.mem_cons.mp hp with rfl | hp
        · exact hpiece
        · exact ih (some c) (n - 1) [] hnil (Or.inr rfl) (by simp) p hp
      next hnone =>
        refine ih (some c) 0 (piece ++ [c]) ?_ (Or.inl rfl) ?_
        · intro hline
          rcases List.infix_concat_iff.mp hline with hend | hin
          · -- the line feed before this one is the last character of the piece
            obtain ⟨front, hfront⟩ := hend
            have hfront' : front ++ ['\n'] ++ ['\n'] = piece ++ [c] := by
              rw [← hfront, List.append_assoc]
              rfl
            obtain ⟨hinit, hc⟩ := List.append_inj' hfront' rfl
            refine hnext ?_ ?_
            · rw [← hinit]
              simp
            · rw [← List.cons.inj hc |>.1]
              rfl
          · exact hpiece hin
        · intro hlast
          rw [List.getLast?_append, List.getLast?_singleton, Option.some_or] at hlast
          obtain rfl := Option.some.inj hlast
          exact paragraphBreak_line hnone

theorem pieces_blankLine {w : WordClass} {maxTokens : Nat} (hmax : 1 ≤ maxTokens)
    (text : List Char) : ∀ p ∈ pieces w maxTokens text, ¬ blankLine <:+: p := by
  intro p hp hline
  obtain ⟨sentence, hsentence, hpart⟩ := List.mem_flatMap.mp hp
  obtain ⟨paragraph, hparagraph, hin⟩ := List.mem_flatMap.mp hsentence
  obtain ⟨hstripped, -⟩ := List.mem_filter.mp hparagraph
  obtain ⟨raw, hraw, rfl⟩ := List.mem_map.mp hstripped
  have htrimmed := (cuts_sentences text).trimmed sentence hsentence
  have hwithin : p <:+: sentence := (cuts_splitOversized hmax htrimmed).isInfix p hpart
  have hwithin' : sentence <:+: stripped raw := by
    have hcuts : CutsApart (sentences (stripped raw)) (stripped raw) :=
      cuts_reSplit sentenceBoundary_blank _
    exact hcuts.isInfix sentence hin
  have hwithin'' : stripped raw <:+: raw := by
    obtain ⟨front, back, heq, -⟩ := stripped_spec raw
    exact ⟨front, back, heq.symm⟩
  exact splitFrom_blankLine none 0 [] (stripped text) (by decide) (Or.inl rfl) (by simp) raw hraw
    (hline.trans (hwithin.trans (hwithin'.trans hwithin'')))

end LocalRag.Chunking
