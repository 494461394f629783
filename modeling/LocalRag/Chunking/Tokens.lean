import LocalRag.Core.Text

/-!
# Lexical tokens — what the chunker and the prompt budget count

Mirrors `TOKEN_PATTERN` and `count_tokens` (`app/services/chunking.py`). A match of
`\w+|[^\w\s]` is a maximal run of word characters, or one character that is neither
a word character nor white space. The scan carries the start of the run it is in;
`tokensFrom` is what `finditer` yields, as spans.

What `\w` matches is a table of Unicode and a parameter here (`WordClass`); all that is
used of it is that white space is not in it.

- `tokensFrom_append`: where the second piece does not go on with a word the
  matches are those of the two pieces, so a blank line separates counts
  (`countTokens_append`).
- `tokensFrom_split`: the matches cut in two cut the text in two, each piece begins and ends
  with a token, and what is cut away between them is white space.
-/

namespace LocalRag.Chunking

open LocalRag.Core

/-- What `\w` matches. -/
structure WordClass where
  isWord : Char → Bool
  not_space : ∀ c, isWord c = true → isSpace c = false

/-- The word characters of ASCII: digits, letters and the underscore. -/
def asciiWords : List Nat :=
  List.range' 0x30 10 ++ List.range' 0x41 26 ++ [0x5f] ++ List.range' 0x61 26

/-- `\w` on ASCII text. -/
def asciiWord : WordClass where
  isWord c := c.toNat ∈ asciiWords
  not_space := by
    intro c hc
    have htable : ∀ n ∈ asciiWords, isSpace (Char.ofNat n) = false := by decide
    have hspace := htable c.toNat (of_decide_eq_true hc)
    rwa [Char.ofNat_toNat] at hspace

variable (w : WordClass)

/-- The run that ends here, if there is one. -/
def closeRun : Option Nat → Nat → List (Nat × Nat)
  | none, _ => []
  | some start, pos => [(start, pos)]

/-- The match of `[^\w\s]` at a character that is no word character. -/
def mark (c : Char) (pos : Nat) : List (Nat × Nat) :=
  if isSpace c then [] else [(pos, pos + 1)]

/-- `TOKEN_PATTERN.finditer`, from position `pos`, inside a run that started at
`start`. -/
def tokensFrom : Option Nat → Nat → List Char → List (Nat × Nat)
  | start, pos, [] => closeRun start pos
  | start, pos, c :: cs =>
    if w.isWord c then tokensFrom (some (start.getD pos)) (pos + 1) cs
    else closeRun start pos ++ mark c pos ++ tokensFrom none (pos + 1) cs

/-- The spans of the tokens of a text. -/
def tokens (text : List Char) : List (Nat × Nat) := tokensFrom w none 0 text

/-- `count_tokens`. -/
def countTokens (text : List Char) : Nat := (tokens w text).length

variable {w}

theorem tokensFrom_nil (start : Option Nat) (pos : Nat) :
    tokensFrom w start pos [] = closeRun start pos := rfl

variable {c : Char}

theorem tokensFrom_word (hc : w.isWord c = true) (start : Option Nat) (pos : Nat) (cs : List Char) :
    tokensFrom w start pos (c :: cs) = tokensFrom w (some (start.getD pos)) (pos + 1) cs :=
  if_pos hc

theorem tokensFrom_other (hc : w.isWord c = false) (start : Option Nat) (pos : Nat)
    (cs : List Char) :
    tokensFrom w start pos (c :: cs)
      = closeRun start pos ++ mark c pos ++ tokensFrom w none (pos + 1) cs :=
  if_neg (by simp [hc])

theorem isWord_space (hc : isSpace c = true) : w.isWord c = false := by
  by_contra hw
  rw [w.not_space c (by simpa using hw)] at hc
  exact absurd hc (by simp)

theorem mark_space (hc : isSpace c = true) (pos : Nat) : mark c pos = [] := if_pos hc

theorem mark_other (hc : isSpace c = false) (pos : Nat) :
    mark c pos = [(pos, pos + 1)] := if_neg (by simp [hc])

/-! ## Counting -/

/-- The number of matches, from inside a run or outside; positions do not matter. -/
def countFrom (w : WordClass) : Bool → List Char → Nat
  | inRun, [] => if inRun then 1 else 0
  | inRun, c :: cs =>
    if w.isWord c then countFrom w true cs
    else (if inRun then 1 else 0) + (if isSpace c then 0 else 1) + countFrom w false cs

theorem countFrom_cons (inRun : Bool) (c : Char) (cs : List Char) :
    countFrom w inRun (c :: cs) =
      if w.isWord c then countFrom w true cs
      else (if inRun then 1 else 0) + (if isSpace c then 0 else 1) + countFrom w false cs := rfl

theorem length_tokensFrom (start : Option Nat) (pos : Nat) (s : List Char) :
    (tokensFrom w start pos s).length = countFrom w start.isSome s := by
  induction s generalizing start pos with
  | nil => cases start <;> rfl
  | cons c cs ih =>
    have hrun : (closeRun start pos).length = if start.isSome then 1 else 0 := by
      cases start <;> rfl
    have hmark : (mark c pos).length = if isSpace c then 0 else 1 := by
      unfold mark
      split <;> rfl
    by_cases hc : w.isWord c = true
    · rw [tokensFrom_word hc, ih]
      simp [countFrom, hc]
    · have hc' : w.isWord c = false := by simpa using hc
      rw [tokensFrom_other hc', List.length_append, List.length_append, ih, hrun, hmark]
      simp [countFrom, hc']

theorem countTokens_eq (s : List Char) : countTokens w s = countFrom w false s :=
  length_tokensFrom none 0 s

/-- A run costs at most one token. -/
theorem countFrom_true_le (s : List Char) : countFrom w true s ≤ 1 + countFrom w false s := by
  cases s with
  | nil => simp [countFrom]
  | cons c cs =>
    unfold countFrom
    split
    · omega
    · simp only [if_true, Bool.false_eq_true, if_false]
      omega

/-- Putting two texts together makes no more tokens; it may make one of two. -/
theorem countTokens_append_le (x y : List Char) :
    countTokens w (x ++ y) ≤ countTokens w x + countTokens w y := by
  have h : ∀ inRun, countFrom w inRun (x ++ y) ≤ countFrom w inRun x + countFrom w false y := by
    induction x with
    | nil =>
      intro inRun
      cases inRun with
      | true => exact countFrom_true_le y
      | false => exact Nat.le_add_left _ _
    | cons c cs ih =>
      intro inRun
      have hword := ih true
      have hother := ih false
      rw [List.cons_append, countFrom_cons, countFrom_cons]
      split
      · exact hword
      · omega
  rw [countTokens_eq, countTokens_eq, countTokens_eq]
  exact h false

/-- A token has a character. -/
theorem countTokens_le_length (s : List Char) : countTokens w s ≤ s.length := by
  have h : ∀ inRun, countFrom w inRun s ≤ (if inRun then 1 else 0) + s.length := by
    induction s with
    | nil =>
      intro inRun
      exact Nat.le_refl _
    | cons c cs ih =>
      intro inRun
      have hword := ih true
      have hother := ih false
      rw [countFrom_cons, List.length_cons]
      simp only [if_true, Bool.false_eq_true, if_false] at hword hother
      have hmark : (if isSpace c = true then 0 else 1) ≤ 1 := by
        split
        · exact Nat.zero_le 1
        · exact Nat.le_refl 1
      split
      · omega
      · omega
  rw [countTokens_eq]
  simpa using h false

variable {s : List Char}

/-- A single run of word characters is at most one token. -/
theorem countTokens_run (hs : ∀ c ∈ s, w.isWord c = true) : countTokens w s ≤ 1 := by
  have h : ∀ inRun, countFrom w inRun s ≤ 1 := by
    induction s with
    | nil =>
      intro inRun
      cases inRun <;> simp [countFrom]
    | cons c cs ih =>
      intro inRun
      simp only [countFrom, hs c (by simp), if_true]
      exact ih (fun d hd => hs d (by simp [hd])) true
  rw [countTokens_eq]
  exact h false

/-! ## Cutting a text between tokens -/

/-- A run to the end of the text is one match. -/
theorem tokensFrom_words (hs : ∀ c ∈ s, w.isWord c = true) (start pos : Nat) :
    tokensFrom w (some start) pos s = [(start, pos + s.length)] := by
  induction s generalizing pos with
  | nil => rfl
  | cons c cs ih =>
    have hlen : pos + 1 + cs.length = pos + (c :: cs).length := by
      rw [List.length_cons]
      omega
    rw [tokensFrom_word (hs c (by simp)), Option.getD_some, ih (fun d hd => hs d (by simp [hd])),
      hlen]

/-- The text does not go on with a word character. -/
def WordEnds (w : WordClass) (s : List Char) : Prop := ∀ c, s.head? = some c → w.isWord c = false

theorem wordEnds_nil : WordEnds w [] := by simp [WordEnds]

theorem wordEnds_cons (hc : w.isWord c = false) (s : List Char) :
    WordEnds w (c :: s) := by simp [WordEnds, hc]

variable {y : List Char}

theorem tokensFrom_append (hy : WordEnds w y) (start : Option Nat) (pos : Nat) (x : List Char) :
    tokensFrom w start pos (x ++ y)
      = tokensFrom w start pos x ++ tokensFrom w none (pos + x.length) y := by
  induction x generalizing start pos with
  | nil =>
    cases y with
    | nil => simp [tokensFrom_nil, closeRun]
    | cons c cs =>
      have hc : w.isWord c = false := hy c rfl
      rw [List.nil_append, tokensFrom_other hc, tokensFrom_other hc, tokensFrom_nil]
      simp [closeRun]
  | cons c cs ih =>
    have hpos : pos + (c :: cs).length = pos + 1 + cs.length := by
      rw [List.length_cons]
      omega
    rw [List.cons_append, hpos]
    by_cases hc : w.isWord c = true
    · rw [tokensFrom_word hc, tokensFrom_word hc, ih]
    · have hc' : w.isWord c = false := by simpa using hc
      rw [tokensFrom_other hc', tokensFrom_other hc', ih, List.append_assoc _ (tokensFrom w none _ cs)]

/-- The same cut where the first piece ends with a mark. -/
theorem tokensFrom_mark (hc : w.isWord c = false) (start : Option Nat) (pos : Nat)
    (x y : List Char) :
    tokensFrom w start pos ((x ++ [c]) ++ y)
      = tokensFrom w start pos (x ++ [c]) ++ tokensFrom w none (pos + (x ++ [c]).length) y := by
  have hlen : pos + (x ++ [c]).length = pos + x.length + 1 := by
    rw [List.length_append]
    rfl
  have htail : ∀ z, tokensFrom w none (pos + x.length) (c :: z)
      = mark c (pos + x.length) ++ tokensFrom w none (pos + x.length + 1) z := by
    intro z
    rw [tokensFrom_other hc]
    rfl
  rw [List.append_assoc, List.singleton_append, tokensFrom_append (wordEnds_cons hc y),
    tokensFrom_append (wordEnds_cons hc []), htail, htail, hlen, List.append_assoc]
  simp [tokensFrom_nil, closeRun]

/-- White space between two texts keeps their tokens apart. -/
theorem countTokens_append (hy : WordEnds w y) (x : List Char) :
    countTokens w (x ++ y) = countTokens w x + countTokens w y := by
  have hpos : (tokensFrom w none (0 + x.length) y).length = (tokensFrom w none 0 y).length := by
    rw [length_tokensFrom, length_tokensFrom]
  unfold countTokens tokens
  rw [tokensFrom_append hy, List.length_append, hpos]

/-- A line feed keeps them apart, and is none itself. -/
theorem countTokens_line (x y : List Char) :
    countTokens w (x ++ '\n' :: y) = countTokens w x + countTokens w y := by
  have hspace : isSpace '\n' = true := by decide
  have hline : countTokens w ('\n' :: y) = countTokens w y := by
    rw [countTokens_eq, countTokens_eq, countFrom_cons, isWord_space hspace, hspace]
    simp
  rw [countTokens_append (wordEnds_cons (isWord_space hspace) y), hline]

/-! ## The matches, read off the text -/

/-- Every character is white space. -/
def Blank (s : List Char) : Prop := ∀ c ∈ s, isSpace c = true

theorem blank_nil : Blank [] := by simp [Blank]

theorem blank_cons : Blank (c :: s) ↔ isSpace c = true ∧ Blank s := by
  simp [Blank]

theorem blank_append {t : List Char} : Blank (s ++ t) ↔ Blank s ∧ Blank t := by
  simp [Blank, or_imp, forall_and]

/-- White space moves the scan and matches nothing. -/
theorem tokensFrom_blank {gap : List Char} (h : Blank gap) (pos : Nat) (s : List Char) :
    tokensFrom w none pos (gap ++ s) = tokensFrom w none (pos + gap.length) s := by
  induction gap generalizing pos with
  | nil => rfl
  | cons c gap ih =>
    obtain ⟨hc, hgap⟩ := blank_cons.mp h
    have hlen : pos + 1 + gap.length = pos + (c :: gap).length := by
      rw [List.length_cons]
      omega
    rw [List.cons_append, tokensFrom_other (isWord_space hc), mark_space hc, ← hlen, ← ih hgap]
    rfl

variable {pos : Nat}

/-- No match at all: white space. -/
theorem tokensFrom_eq_nil (h : tokensFrom w none pos s = []) : Blank s := by
  induction s generalizing pos with
  | nil => exact blank_nil
  | cons c cs ih =>
    by_cases hc : w.isWord c = true
    · -- a run, once begun, is a match
      have hlen := congrArg List.length h
      rw [tokensFrom_word hc, length_tokensFrom] at hlen
      have hpos : ∀ s, 0 < countFrom w true s := by
        intro s
        induction s with
        | nil => simp [countFrom]
        | cons d ds ihd =>
          unfold countFrom
          split
          · exact ihd
          · simp only [if_true]
            omega
      have := hpos cs
      simp only [Option.isSome_some, List.length_nil] at hlen
      omega
    · have hc' : w.isWord c = false := by simpa using hc
      rw [tokensFrom_other hc'] at h
      simp only [closeRun, List.nil_append, List.append_eq_nil_iff] at h
      have hspace : isSpace c = true := by
        by_contra hs
        rw [mark_other (by simpa using hs)] at h
        exact absurd h.1 (by simp)
      exact blank_cons.mpr ⟨hspace, ih h.2⟩

variable {m : Nat × Nat} {ms : List (Nat × Nat)}

/-- Inside a run, the first match is the rest of it. -/
theorem tokensFrom_run {start : Nat} (h : tokensFrom w (some start) pos s = m :: ms) :
    ∃ run rest, s = run ++ rest ∧ (∀ c ∈ run, w.isWord c = true) ∧ WordEnds w rest ∧
      m = (start, pos + run.length) ∧ tokensFrom w none (pos + run.length) rest = ms := by
  induction s generalizing pos with
  | nil =>
    rw [tokensFrom_nil] at h
    obtain ⟨rfl, rfl⟩ := List.cons.inj h
    exact ⟨[], [], rfl, by simp, wordEnds_nil, rfl, rfl⟩
  | cons c cs ih =>
    by_cases hc : w.isWord c = true
    · rw [tokensFrom_word hc] at h
      obtain ⟨run, rest, rfl, hrun, hends, rfl, hms⟩ := ih h
      have hlen : pos + 1 + run.length = pos + (c :: run).length := by
        rw [List.length_cons]
        omega
      refine ⟨c :: run, rest, rfl, ?_, hends, by rw [hlen], by rw [← hlen]; exact hms⟩
      intro d hd
      rcases List.mem_cons.mp hd with rfl | hd
      · exact hc
      · exact hrun d hd
    · have hc' : w.isWord c = false := by simpa using hc
      rw [tokensFrom_other hc'] at h
      simp only [closeRun, List.cons_append] at h
      obtain ⟨rfl, hms⟩ := List.cons.inj h
      refine ⟨[], c :: cs, rfl, by simp, wordEnds_cons hc' cs, rfl, ?_⟩
      rw [← hms]
      exact tokensFrom_other hc' none pos cs

/-- No word goes on from the first text to the second. -/
def CutsTokens (w : WordClass) (x y : List Char) : Prop :=
  WordEnds w y ∨ ∃ x' c, x = x' ++ [c] ∧ w.isWord c = false

variable {x : List Char}

theorem CutsTokens.tokensFrom (h : CutsTokens w x y) (start : Option Nat) (pos : Nat) :
    tokensFrom w start pos (x ++ y)
      = tokensFrom w start pos x ++ tokensFrom w none (pos + x.length) y := by
  rcases h with hy | ⟨x', c, rfl, hc⟩
  · exact tokensFrom_append hy start pos x
  · exact tokensFrom_mark hc start pos x' y

/-- More text in front, or less behind, leaves the cut where it was. -/
theorem CutsTokens.append_left (h : CutsTokens w x y) (z : List Char) :
    CutsTokens w (z ++ x) y := by
  rcases h with hy | ⟨x', c, rfl, hc⟩
  · exact Or.inl hy
  · exact Or.inr ⟨z ++ x', c, (List.append_assoc ..).symm, hc⟩

theorem CutsTokens.of_append {z : List Char} (h : CutsTokens w x (y ++ z)) : CutsTokens w x y := by
  rcases h with hends | hx
  · refine Or.inl fun c hc => hends c ?_
    rw [List.head?_append, hc]
    rfl
  · exact Or.inr hx

/-- The first match: white space, a token, and the matches of what is left. -/
theorem tokensFrom_first (h : tokensFrom w none pos s = m :: ms) :
    ∃ gap token rest, s = gap ++ token ++ rest ∧ Blank gap ∧ token ≠ [] ∧
      (∀ c ∈ token, isSpace c = false) ∧ m = (pos + gap.length, pos + gap.length + token.length) ∧
      tokensFrom w none (pos + gap.length) token = [m] ∧ CutsTokens w token rest ∧
      tokensFrom w none (pos + gap.length + token.length) rest = ms := by
  induction s generalizing pos with
  | nil => exact absurd h (by simp [tokensFrom_nil, closeRun])
  | cons c cs ih =>
    by_cases hc : w.isWord c = true
    · rw [tokensFrom_word hc] at h
      obtain ⟨run, rest, rfl, hrun, hends, rfl, hms⟩ := tokensFrom_run h
      have hlen : pos + 1 + run.length = pos + (c :: run).length := by
        rw [List.length_cons]
        omega
      have hword : ∀ d ∈ c :: run, w.isWord d = true := by
        intro d hd
        rcases List.mem_cons.mp hd with rfl | hd
        · exact hc
        · exact hrun d hd
      refine ⟨[], c :: run, rest, rfl, blank_nil, by simp, ?_, ?_, ?_, ?_, ?_⟩
      · intro d hd
        by_contra hs
        exact absurd (hword d hd) (by simp [isWord_space (by simpa using hs)])
      · simp [hlen]
      · rw [List.length_nil, Nat.add_zero, tokensFrom_word hc, tokensFrom_words hrun, hlen]
      · exact Or.inl hends
      · rw [List.length_nil, Nat.add_zero, ← hlen]
        exact hms
    · have hc' : w.isWord c = false := by simpa using hc
      rw [tokensFrom_other hc'] at h
      simp only [closeRun, List.nil_append] at h
      by_cases hs : isSpace c = true
      · rw [mark_space hs, List.nil_append] at h
        obtain ⟨gap, token, rest, rfl, hgap, hne, htoken, hm, hone, hcut, hms⟩ := ih h
        have hlen : pos + 1 + gap.length = pos + (c :: gap).length := by
          rw [List.length_cons]
          omega
        rw [hlen] at hm hone hms
        exact ⟨c :: gap, token, rest, rfl, blank_cons.mpr ⟨hs, hgap⟩, hne, htoken, hm, hone, hcut,
          hms⟩
      · have hs' : isSpace c = false := by simpa using hs
        rw [mark_other hs', List.singleton_append] at h
        obtain ⟨rfl, hms⟩ := List.cons.inj h
        refine ⟨[], [c], cs, rfl, blank_nil, by simp, by simpa using hs', rfl, ?_, ?_, hms⟩
        · show tokensFrom w none pos [c] = _
          rw [tokensFrom_other hc', mark_other hs']
          rfl
        · exact Or.inr ⟨[], c, rfl, hc'⟩

/-- White space at neither end. -/
def Trimmed (s : List Char) : Prop :=
  s ≠ [] ∧ (∀ c, s.head? = some c → isSpace c = false) ∧
    ∀ c, s.getLast? = some c → isSpace c = false

theorem trimmed_of_forall (hne : s ≠ []) (h : ∀ c ∈ s, isSpace c = false) : Trimmed s :=
  ⟨hne, fun c hc => h c (List.mem_of_head? hc), fun c hc => h c (List.mem_of_getLast? hc)⟩

/-- What stands between two trimmed texts does not matter. -/
theorem Trimmed.append {z : List Char} (hx : Trimmed x) (y : List Char) (hz : Trimmed z) :
    Trimmed (x ++ y ++ z) := by
  refine ⟨by simp [hx.1], ?_, ?_⟩
  · intro c hc
    rw [List.append_assoc, List.head?_append, List.head?_eq_some_head hx.1, Option.some_or] at hc
    exact hx.2.1 c (by rw [List.head?_eq_some_head hx.1, hc])
  · intro c hc
    rw [List.getLast?_append, List.getLast?_eq_some_getLast hz.1, Option.some_or] at hc
    exact hz.2.2 c (by rw [List.getLast?_eq_some_getLast hz.1, hc])

/-- The matches cut after one of them: white space, a body whose matches are the first
ones, and the rest with the others. -/
theorem tokensFrom_split {ns : List (Nat × Nat)} (h : tokensFrom w none pos s = m :: ms ++ ns) :
    ∃ gap body rest, s = gap ++ body ++ rest ∧ Blank gap ∧ Trimmed body ∧
      m.1 = pos + gap.length ∧
      ((m :: ms).getLast (by simp)).2 = pos + gap.length + body.length ∧
      tokensFrom w none (pos + gap.length) body = m :: ms ∧ CutsTokens w body rest ∧
      tokensFrom w none (pos + gap.length + body.length) rest = ns := by
  induction ms generalizing pos s m with
  | nil =>
    obtain ⟨gap, token, rest, rfl, hgap, hne, htoken, rfl, hone, hcut, hns⟩ := tokensFrom_first h
    exact ⟨gap, token, rest, rfl, hgap, trimmed_of_forall hne htoken, rfl, rfl, hone, hcut, hns⟩
  | cons m' ms ih =>
    obtain ⟨gap, token, rest, rfl, hgap, hne, htoken, rfl, hone, hcut, hrest⟩ := tokensFrom_first h
    obtain ⟨gap', body, rest', rfl, hgap', hbody, -, hlast, hms, hcut', hns⟩ := ih hrest
    have hlen : pos + gap.length + token.length + gap'.length + body.length
        = pos + gap.length + (token ++ gap' ++ body).length := by
      simp only [List.length_append]
      omega
    refine ⟨gap, token ++ gap' ++ body, rest', by simp, hgap,
      (trimmed_of_forall hne htoken).append gap' hbody, rfl, ?_, ?_, ?_, ?_⟩
    · rw [List.getLast_cons_cons, hlast, hlen]
    · have hcutbody : CutsTokens w token (gap' ++ body) := hcut.of_append
      rw [List.append_assoc, hcutbody.tokensFrom, hone, tokensFrom_blank hgap', hms]
      rfl
    · exact hcut'.append_left (token ++ gap')
    · rw [← hlen]
      exact hns

end LocalRag.Chunking
