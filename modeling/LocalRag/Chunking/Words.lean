import LocalRag.Chunking.Chunker

/-!
# The words of a text — what cutting, joining and stripping keep

The texts of the tokens, in order. A cut that splits no word cuts this list in two
(`words_cut`), white space has none, so stripping keeps it, joining with blank lines
appends (`words_joined`), and the parts of a long sentence have the words of the
sentence (`words_splitOversized`). Their number is `count_tokens`.

The chunker's counts and what it may lose are then facts about lists of words
(`Chunking.Parts`).
-/

namespace LocalRag.Chunking

open LocalRag.Core Highlight

variable {w : WordClass}

/-- The texts of the tokens. -/
def words (w : WordClass) (s : List Char) : List (List Char) :=
  (tokens w s).map fun m => slice s m.1 m.2

theorem length_words (s : List Char) : (words w s).length = countTokens w s := by
  unfold words countTokens
  rw [List.length_map]

/-! ## Moving a scan -/

/-- A scan that begins later finds the same tokens later. -/
theorem tokensFrom_shift (k : Nat) (start : Option Nat) (pos : Nat) (s : List Char) :
    tokensFrom w (start.map (· + k)) (pos + k) s =
      (tokensFrom w start pos s).map fun m => (m.1 + k, m.2 + k) := by
  have hclose : ∀ (start : Option Nat) (pos : Nat), closeRun (start.map (· + k)) (pos + k) =
      (closeRun start pos).map fun m => (m.1 + k, m.2 + k) := by
    intro start pos
    cases start with
    | none => rfl
    | some start => rfl
  induction s generalizing start pos with
  | nil => rw [tokensFrom_nil, tokensFrom_nil, hclose]
  | cons c cs ih =>
    by_cases hc : w.isWord c = true
    · have hstart : some ((start.map (· + k)).getD (pos + k)) =
          (some (start.getD pos)).map (· + k) := by
        cases start with
        | none => rfl
        | some start => rfl
      rw [tokensFrom_word hc, tokensFrom_word hc, hstart, ← ih, Nat.add_right_comm]
    · have hc' : w.isWord c = false := by simpa using hc
      have hmark : mark c (pos + k) = (mark c pos).map fun m => (m.1 + k, m.2 + k) := by
        unfold mark
        split
        · rfl
        · simp [Nat.add_right_comm]
      have hih := ih none (pos + 1)
      rw [Option.map_none, Nat.add_right_comm] at hih
      rw [tokensFrom_other hc', tokensFrom_other hc', List.map_append, List.map_append, hclose,
        hmark, hih]

/-- The tokens end within the text. -/
theorem tokensFrom_le (start : Option Nat) (pos : Nat) (s : List Char) :
    ∀ m ∈ tokensFrom w start pos s, m.2 ≤ pos + s.length := by
  induction s generalizing start pos with
  | nil =>
    intro m hm
    rw [tokensFrom_nil] at hm
    cases start with
    | none => cases hm
    | some start =>
      rw [List.mem_singleton.mp hm]
      exact Nat.le_add_right _ _
  | cons c cs ih =>
    intro m hm
    rw [List.length_cons]
    by_cases hc : w.isWord c = true
    · rw [tokensFrom_word hc] at hm
      have := ih _ _ m hm
      omega
    · rw [tokensFrom_other (by simpa using hc)] at hm
      rcases List.mem_append.mp hm with hm | hm
      · rcases List.mem_append.mp hm with hm | hm
        · cases start with
          | none => cases hm
          | some start =>
            rw [List.mem_singleton.mp hm]
            exact Nat.le_add_right _ _
        · unfold mark at hm
          split at hm
          · cases hm
          · rw [List.mem_singleton.mp hm]
            show pos + 1 ≤ _
            omega
      · have := ih _ _ m hm
        omega

theorem slice_append_right (front s : List Char) (i j : Nat) :
    slice (front ++ s) (i + front.length) (j + front.length) = slice s i j := by
  unfold slice
  rw [Nat.add_comm j, List.take_length_add_append, Nat.add_comm i, List.drop_length_add_append]

theorem slice_append_left {s rest : List Char} {j : Nat} (h : j ≤ s.length) (i : Nat) :
    slice (s ++ rest) i j = slice s i j := by
  unfold slice
  rw [List.take_append_of_le_length h]

/-- The words of `s`, scanned behind `front`. -/
theorem words_behind (front s : List Char) :
    ((tokensFrom w none front.length s).map fun m => slice (front ++ s) m.1 m.2) = words w s := by
  have hshift := @tokensFrom_shift w front.length none 0 s
  rw [Nat.zero_add, Option.map_none] at hshift
  rw [hshift, List.map_map]
  refine List.map_congr_left fun m _ => ?_
  exact slice_append_right front s m.1 m.2

/-! ## Cutting, stripping, joining -/

theorem words_cut {x y : List Char} (h : CutsTokens w x y) :
    words w (x ++ y) = words w x ++ words w y := by
  have hleft : ((tokensFrom w none 0 x).map fun m => slice (x ++ y) m.1 m.2) = words w x := by
    refine List.map_congr_left fun m hm => slice_append_left ?_ m.1
    have hle := tokensFrom_le none 0 x m hm
    omega
  unfold words tokens
  rw [h.tokensFrom, List.map_append, Nat.zero_add, words_behind, hleft]
  rfl

variable {gap : List Char}

theorem wordEnds_blank (h : Blank gap) : WordEnds w gap := by
  intro c hc
  exact isWord_space (h c (List.mem_of_head? hc))

theorem words_blank (h : Blank gap) : words w gap = [] := by
  have hnil := @tokensFrom_blank w gap h 0 []
  rw [List.append_nil, tokensFrom_nil] at hnil
  unfold words tokens
  rw [hnil]
  rfl

theorem words_blank_append (h : Blank gap) (s : List Char) : words w (gap ++ s) = words w s := by
  have hscan := @tokensFrom_blank w gap h 0 s
  rw [Nat.zero_add] at hscan
  unfold words tokens
  rw [hscan, words_behind]
  rfl

theorem words_append_blank (h : Blank gap) (s : List Char) : words w (s ++ gap) = words w s := by
  rw [words_cut (Or.inl (wordEnds_blank h)), words_blank h, List.append_nil]

theorem words_stripped (s : List Char) : words w (stripped s) = words w s := by
  obtain ⟨front, back, hs, hfront, hback, -⟩ := stripped_spec s
  calc words w (stripped s) = words w (front ++ stripped s) := (words_blank_append hfront _).symm
    _ = words w (front ++ stripped s ++ back) := (words_append_blank hback _).symm
    _ = words w s := by rw [← hs]

theorem words_joined (ts : List (List Char)) : words w (joined ts) = ts.flatMap (words w) := by
  have hgap : Blank ['\n', '\n'] := by
    intro c hc
    simp only [List.mem_cons, List.not_mem_nil, or_false, or_self] at hc
    subst hc
    decide
  induction ts with
  | nil => exact words_blank blank_nil
  | cons t ts ih =>
    cases ts with
    | nil =>
      show words w (['\n', '\n'].intercalate [t]) = _
      rw [List.intercalate_singleton]
      simp
    | cons t' ts =>
      have hjoined : joined (t :: t' :: ts) = t ++ (['\n', '\n'] ++ joined (t' :: ts)) := by
        simp [joined, List.intercalate]
      have hends : WordEnds w (['\n', '\n'] ++ joined (t' :: ts)) := by
        refine wordEnds_cons ?_ _
        exact isWord_space (by decide)
      rw [hjoined, words_cut (Or.inl hends), words_blank_append hgap, ih,
        ← List.flatMap_cons]

/-! ## Pieces -/

/-- Pieces with white space between them. -/
theorem words_cutsApart {ps : List (List Char)} {s : List Char} (h : CutsApart ps s) :
    words w s = ps.flatMap (words w) := by
  induction ps generalizing s with
  | nil => exact words_blank h
  | cons p ps ih =>
    obtain ⟨gap, rest, rfl, hgap, -, hstart, hrest⟩ := h
    have hends : WordEnds w rest := by
      cases ps with
      | nil => exact wordEnds_blank hrest
      | cons q qs =>
        obtain ⟨c, tail, rfl, hc⟩ := hstart trivial (List.cons_ne_nil q qs)
        exact wordEnds_cons (isWord_space hc) tail
    rw [List.append_assoc, words_blank_append hgap, words_cut (Or.inl hends), ih hrest,
      List.flatMap_cons]

/-- The groups of tokens have their words, each group at most `maxTokens`. -/
theorem words_groupTexts {maxTokens : Nat} (hmax : 1 ≤ maxTokens) (front s : List Char) :
    (groupTexts w maxTokens front s).flatMap (words w) = words w s ∧
      ∀ p ∈ groupTexts w maxTokens front s, countTokens w p ≤ maxTokens := by
  obtain ⟨n, hn⟩ : ∃ n, n = s.length := ⟨_, rfl⟩
  induction n using Nat.strong_induction_on generalizing front s with
  | _ n ih =>
    rcases @groupTexts_cases w maxTokens hmax front s with
      ⟨hblank, heq⟩ | ⟨gap, body, rest, rfl, hgap, hbody, hcut, hcount, -, heq⟩
    · rw [heq]
      exact ⟨(words_blank hblank).symm, by simp⟩
    · have hpos := List.length_pos_of_ne_nil hbody.1
      obtain ⟨hwords, hcounts⟩ := ih rest.length
        (by rw [hn]; simp only [List.length_append]; omega) (front ++ gap ++ body) rest rfl
      rw [heq]
      refine ⟨?_, fun p hp => ?_⟩
      · rw [List.flatMap_cons, hwords, List.append_assoc, words_blank_append hgap,
          words_cut hcut]
      · rcases List.mem_cons.mp hp with rfl | hp
        · exact hcount
        · exact hcounts p hp

/-- The parts of a sentence have its words, each at most `maxTokens`. -/
theorem words_splitOversized {maxTokens : Nat} (hmax : 1 ≤ maxTokens) (text : List Char) :
    (splitOversized w maxTokens text).flatMap (words w) = words w text ∧
      ∀ p ∈ splitOversized w maxTokens text, countTokens w p ≤ maxTokens := by
  unfold splitOversized
  split
  next hle =>
    refine ⟨by simp, fun p hp => ?_⟩
    rw [List.mem_singleton.mp hp]
    exact hle
  next => exact words_groupTexts hmax [] text

/-- The sentences of a paragraph have its words. -/
theorem words_sentences (paragraph : List Char) :
    (sentences paragraph).flatMap (words w) = words w paragraph :=
  (words_cutsApart (cuts_reSplit sentenceBoundary_blank paragraph)).symm

theorem trimmedPieces_cons (raw : List Char) (raws : List (List Char)) :
    trimmedPieces (raw :: raws)
      = if stripped raw = [] then trimmedPieces raws else stripped raw :: trimmedPieces raws := by
  unfold trimmedPieces
  rw [List.map_cons, List.filter_cons]
  by_cases h : stripped raw = []
  · simp [h]
  · simp [h]

/-- Stripping, and leaving out what is blank, loses no word. -/
theorem words_trimmedPieces (pieces : List (List Char)) :
    (trimmedPieces pieces).flatMap (words w) = pieces.flatMap (words w) := by
  induction pieces with
  | nil => rfl
  | cons piece pieces ih =>
    rw [trimmedPieces_cons, List.flatMap_cons]
    by_cases hempty : stripped piece = []
    · have hnone : words w piece = [] := by
        rw [← words_stripped, hempty]
        exact words_blank blank_nil
      rw [if_pos hempty, ih, hnone, List.nil_append]
    · rw [if_neg hempty, List.flatMap_cons, ih, words_stripped]

/-! ## The end of a text -/

/-- What `_overlap` keeps of a long text: it begins at a token, and has the last
`overlapTokens` of them. -/
theorem suffixText_split {overlapTokens : Nat} {text : List Char} (ho : 1 ≤ overlapTokens)
    (hlong : overlapTokens < countTokens w text) :
    ∃ front rest, text = front ++ rest ∧ CutsTokens w front rest ∧ rest ≠ [] ∧
      (∀ c, rest.head? = some c → isSpace c = false) ∧
      suffixText w overlapTokens text = stripped rest ∧ countTokens w rest = overlapTokens := by
  have hn : (tokens w text).length = countTokens w text := rfl
  obtain ⟨k, hk⟩ : ∃ k, k = (tokens w text).length - overlapTokens := ⟨_, rfl⟩
  -- the tokens in front, of which there is one at least, and those of the suffix
  cases hfront : (tokens w text).take k with
  | nil =>
    have hlen := congrArg List.length hfront
    rw [List.length_take, List.length_nil] at hlen
    omega
  | cons m ms =>
    cases hback : (tokens w text).drop k with
    | nil =>
      have hlen := congrArg List.length hback
      rw [List.length_drop, List.length_nil] at hlen
      omega
    | cons m' ms' =>
      have hsplit : tokensFrom w none 0 text = m :: ms ++ (m' :: ms') := by
        rw [← hfront, ← hback, List.take_append_drop]
        rfl
      obtain ⟨gap, body, rest, rfl, -, -, -, -, -, hcut, hrest⟩ := tokensFrom_split hsplit
      obtain ⟨gap', token, rest', rfl, hgap', hne, htoken, hm', -, -, -⟩ := tokensFrom_first hrest
      have hstart : m'.1 = (gap ++ body ++ gap').length := by
        rw [hm']
        simp only [List.length_append]
        omega
      have htext : gap ++ body ++ (gap' ++ token ++ rest') =
          (gap ++ body ++ gap') ++ (token ++ rest') := by simp
      refine ⟨gap ++ body ++ gap', token ++ rest', htext, ?_, by simp [hne], ?_, ?_, ?_⟩
      · -- the cut is behind the body, or behind white space
        rcases List.eq_nil_or_concat gap' with rfl | ⟨front, c, rfl⟩
        · rw [List.append_nil]
          rw [List.nil_append] at hcut
          exact hcut.append_left gap
        · have hc : isSpace c = true := hgap' c (by simp)
          exact Or.inr ⟨gap ++ body ++ front, c, by simp, isWord_space hc⟩
      · intro c hc
        rw [List.head?_append, List.head?_eq_some_head hne, Option.some_or] at hc
        exact htoken c (List.mem_of_head? (by rw [List.head?_eq_some_head hne, hc]))
      · unfold suffixText
        rw [← hk, hback]
        simp only [List.head?_cons, Option.map_some, Option.getD_some]
        rw [hstart, htext, List.drop_left]
      · rw [List.append_assoc, tokensFrom_blank hgap'] at hrest
        have hlen := congrArg List.length hrest
        have hdrop := congrArg List.length hback
        rw [length_tokensFrom] at hlen
        rw [List.length_drop] at hdrop
        rw [countTokens_eq]
        show countFrom w (none : Option Nat).isSome (token ++ rest') = overlapTokens
        rw [hlen]
        omega

/-- It has the last words of the text. -/
theorem words_suffixText {overlapTokens : Nat} {text : List Char} (ho : 1 ≤ overlapTokens)
    (hlong : overlapTokens < countTokens w text) :
    words w (suffixText w overlapTokens text) <:+ words w text ∧
      countTokens w (suffixText w overlapTokens text) = overlapTokens := by
  obtain ⟨front, rest, rfl, hcut, -, -, hsuffix, hcount⟩ := suffixText_split ho hlong
  rw [← length_words, hsuffix, words_stripped, length_words, words_cut hcut]
  exact ⟨List.suffix_append _ _, hcount⟩

end LocalRag.Chunking
