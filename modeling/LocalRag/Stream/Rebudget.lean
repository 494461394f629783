import LocalRag.Stream.Budget
import Mathlib.Data.List.Forall2

/-!
# Budgeting again — a turn's stored sources against the budget that chose them

`_snapshot_sources` of `app/services/chats.py` budgets its drafts, stores what was selected,
reads the rows back and budgets them once more; a continuation budgets the same rows
again. Each fails the turn if a source is dropped. Neither can: the first budget took a
beginning of its list with the labels it would get again (`relabelFrom_relabelFrom`), and
every beginning of a list that fits fits (`tokensFit_of_append`), so what is selected from a
selection is all of it (`budgetPrompt_kept`).

A row has the text, the label and the places of the draft it was stored from; its
identifiers may be gone with the document (`StoredAs`).
-/

namespace LocalRag.Stream

open LocalRag.Core Chunking

variable {w : WordClass}

/-! ## The rows of a turn -/

/-- A row shows in the prompt what the draft does. -/
structure StoredAs (draft row : SourceSnapshot) : Prop where
  rank : row.rank = draft.rank
  label : row.label = draft.label
  filename : row.originalFilename = draft.originalFilename
  displayName : row.displayName = draft.displayName
  logicalPath : row.logicalPath = draft.logicalPath
  pageStart : row.pageStart = draft.pageStart
  pageEnd : row.pageEnd = draft.pageEnd
  sectionName : row.sectionName = draft.sectionName
  text : row.text = draft.text

/-- The budget of the rows read back, with the check that fails the turn: `message` is
`authoritative source snapshot exceeded prompt budget` in `_snapshot_sources` and
`continuation source snapshot exceeded prompt budget` in a continuation. -/
def rebudget (countTokens : String → Nat) (message question : String) (history : List HistoryPair)
    (rows : List SourceSnapshot) : Except Raised (List SourceSnapshot × String) :=
  match budgetPrompt countTokens question history rows with
  | .error r => .error r
  | .ok (_, none) => .error (runtimeError message)
  | .ok (selected, some prompt) =>
    if selected.length ≠ rows.length then .error (runtimeError message) else .ok (selected, prompt)

theorem StoredAs.sourceBlock {draft row : SourceSnapshot} (h : StoredAs draft row) :
    sourceBlock row = sourceBlock draft := by
  unfold Stream.sourceBlock
  rw [h.label, h.filename, h.displayName, h.logicalPath, h.pageStart, h.pageEnd, h.sectionName,
    h.text]

variable {rows : List SourceSnapshot}

theorem sourceBlocks_stored {drafts : List SourceSnapshot} (h : List.Forall₂ StoredAs drafts rows) :
    sourceBlocks rows = sourceBlocks drafts := by
  have hblocks : rows.map sourceBlock = drafts.map sourceBlock := by
    induction h with
    | nil => rfl
    | cons hrow _ ih => rw [List.map_cons, List.map_cons, hrow.sourceBlock, ih]
  unfold sourceBlocks
  rw [hblocks]

/-! ## Labels -/

theorem relabel_relabel (rank : Nat) (source : SourceSnapshot) :
    relabel rank (relabel rank source) = relabel rank source := rfl

/-- A selection has the labels it would get. -/
theorem relabelFrom_relabelFrom (rank : Nat) (sources : List SourceSnapshot) :
    relabelFrom rank (relabelFrom rank sources) = relabelFrom rank sources := by
  induction sources generalizing rank with
  | nil => rfl
  | cons source rest ih => rw [relabelFrom, relabelFrom, relabel_relabel, ih]

/-- The source at position `i` keeps everything but its rank and label. -/
theorem getElem?_relabelFrom (rank i : Nat) (sources : List SourceSnapshot) :
    (relabelFrom rank sources)[i]? = sources[i]?.map (relabel (rank + i)) := by
  induction sources generalizing rank i with
  | nil => rfl
  | cons source rest ih =>
    cases i with
    | zero => rfl
    | succ i =>
      rw [relabelFrom, List.getElem?_cons_succ, ih, List.getElem?_cons_succ]
      congr 2
      omega

variable {sources : List SourceSnapshot}

/-- So has what was stored of it. -/
theorem relabelFrom_stored {rank : Nat}
    (h : List.Forall₂ StoredAs (relabelFrom rank sources) rows) : relabelFrom rank rows = rows := by
  induction sources generalizing rank rows with
  | nil =>
    cases h
    rfl
  | cons source rest ih =>
    rw [relabelFrom] at h
    cases h with
    | @cons _ row _ rows hrow hrows =>
      have hlabelled : relabel rank row = row := by
        have hrank : row.rank = rank := hrow.rank
        have hlabel : row.label = rankLabel rank := hrow.label
        unfold relabel
        rw [← hlabel, ← hrank]
      rw [relabelFrom, hlabelled, ih hrows]

/-! ## A selection is selected whole -/

section Kept

variable (question : String) (history : List HistoryPair)

/-- Sources that fit under the labels they have are all taken, and the checks pass. -/
theorem budgetPrompt_kept (hlabels : relabelFrom 1 sources = sources)
    (hfit : tokensFit (textTokens w) question history sources = true) (hne : sources ≠ []) :
    budgetPrompt (textTokens w) question history sources
      = .ok (sources, some (promptFor (textTokens w) question history sources)) := by
  obtain ⟨k, hk, hselected, -, hnext⟩ :=
    selectSources_spec (w := w) question history sources [] (Or.inl rfl)
  rw [List.length_nil, Nat.zero_add, List.nil_append] at hselected hnext
  -- the source the loop would have stopped at is in a list that fits
  have hall : k = sources.length := by
    by_contra hlt
    have hmore : k < sources.length := by omega
    have hsplit : relabelFrom 1 (sources.take (k + 1)) ++ sources.drop (k + 1) = sources := by
      rw [relabelFrom_take, hlabels, List.take_append_drop]
    rw [← hsplit] at hfit
    have hfits := tokensFit_of_append question history hfit
    rw [hnext hmore] at hfits
    exact absurd hfits (by simp)
  rw [hall, List.take_length, hlabels] at hselected
  unfold budgetPrompt
  rw [hselected]
  exact checkBudget_ok question history hne hfit

/-- What `tokensFit` says of the budgets, for what the loop selected. -/
theorem tokensFit_bounds (hfit : tokensFit (textTokens w) question history sources = true) :
    historyTokens (textTokens w) question history + textTokens w (sourceBlocks sources)
        ≤ maxCombinedTokens ∧
      textTokens w (promptFor (textTokens w) question history sources) + outputTokens +
        promptFormattingReserveTokens ≤ modelContextTokens := by
  obtain ⟨hblocks, hcontext⟩ := (tokensFit_iff question history sources).mp hfit
  have hcombined : combinedBudget (textTokens w) question ≤ maxCombinedTokens := Nat.min_le_left _ _
  unfold sourceBudget at hblocks
  exact ⟨by omega, hcontext⟩

/-- Rows stored from a selection: all are kept, in the prompt that was budgeted first. -/
theorem rebudget_stored {message : String}
    (hfit : tokensFit (textTokens w) question history (relabelFrom 1 sources) = true)
    (hne : sources ≠ []) (hrows : List.Forall₂ StoredAs (relabelFrom 1 sources) rows) :
    rebudget (textTokens w) message question history rows
      = .ok (rows, promptFor (textTokens w) question history (relabelFrom 1 sources)) := by
  have hblocks := sourceBlocks_stored hrows
  have hlength := hrows.length_eq
  rw [length_relabelFrom] at hlength
  have hsame : promptFor (textTokens w) question history rows
      = promptFor (textTokens w) question history (relabelFrom 1 sources) := by
    unfold promptFor
    rw [hblocks]
  have hfit' : tokensFit (textTokens w) question history rows = true := by
    rw [tokensFit_iff] at hfit ⊢
    rwa [hblocks, hsame]
  have hne' : rows ≠ [] := by
    intro hnil
    rw [hnil, List.length_nil] at hlength
    exact hne (List.length_eq_zero_iff.mp hlength)
  unfold rebudget
  rw [budgetPrompt_kept question history (relabelFrom_stored hrows) hfit' hne']
  simp only [ne_eq, not_true_eq_false, if_false, hsame]

/-- `_budget_prompt` raises nothing, selects a beginning of the sources under the labels `S1`,
`S2`, … within its three budgets, and selects all of its own selection, however it was stored. -/
theorem budgetPrompt_stable (w : WordClass) (question : String) (history : List HistoryPair)
    (sources : List SourceSnapshot) :
    ∃ selected prompt,
      budgetPrompt (textTokens w) question history sources = .ok (selected, prompt) ∧
      selected.length ≤ sources.length ∧
      (∀ i < selected.length, selected[i]? = sources[i]?.map (relabel (1 + i))) ∧
      (prompt = none ↔ selected = []) ∧
      historyTokens (textTokens w) question history ≤ 1536 ∧
      historyTokens (textTokens w) question history
        + textTokens w (sourceBlocks selected) ≤ 6144 ∧
      (∀ text, prompt = some text → textTokens w text + 3072 + 256 ≤ 16384) ∧
      budgetPrompt (textTokens w) question history selected = .ok (selected, prompt) ∧
      ∀ message rows text, prompt = some text → List.Forall₂ StoredAs selected rows →
        rebudget (textTokens w) message question history rows = .ok (rows, text) := by
  obtain ⟨k, hk, hselected, hfit, -⟩ :=
    selectSources_spec (w := w) question history sources [] (Or.inl rfl)
  rw [hselected, List.nil_append, List.length_nil, Nat.zero_add] at hfit
  obtain ⟨hhistory, hcombined⟩ := historyTokens_le (w := w) question history
  have hrun : budgetPrompt (textTokens w) question history sources
      = checkBudget (textTokens w) question history (relabelFrom 1 (sources.take k)) := by
    unfold budgetPrompt
    rw [hselected]
    rfl
  by_cases hnone : sources.take k = []
  · -- nothing was selected, and nothing is selected of nothing
    have hempty : textTokens w (sourceBlocks []) = 0 := rfl
    have hmax : combinedBudget (textTokens w) question ≤ 6144 := Nat.min_le_left _ _
    rw [hnone] at hrun
    refine ⟨[], none, hrun, Nat.zero_le _, ?_, iff_of_true rfl rfl, hhistory, ?_, ?_, rfl, ?_⟩
    · intro i hi
      exact absurd hi (Nat.not_lt_zero i)
    · rw [hempty]
      omega
    · intro text htext
      exact absurd htext (by simp)
    · intro message rows text htext
      exact absurd htext (by simp)
  · have hlength : (relabelFrom 1 (sources.take k)).length = k := by
      rw [length_relabelFrom, List.length_take, Nat.min_eq_left hk]
    have hlabelled : relabelFrom 1 (sources.take k) ≠ [] := by
      intro hnil
      rw [hnil, List.length_nil] at hlength
      exact hnone (by rw [← hlength, List.take_zero])
    have hfits := hfit.resolve_left hlabelled
    obtain ⟨hblocks, hcontext⟩ := tokensFit_bounds question history hfits
    refine ⟨relabelFrom 1 (sources.take k),
      some (promptFor (textTokens w) question history (relabelFrom 1 (sources.take k))),
      hrun.trans (checkBudget_ok question history hlabelled hfits), ?_, ?_,
      iff_of_false (by simp) hlabelled, hhistory, hblocks, ?_, ?_, ?_⟩
    · rw [hlength]
      exact hk
    · intro i hi
      rw [hlength] at hi
      rw [getElem?_relabelFrom, List.getElem?_take_of_lt hi]
    · intro text htext
      obtain rfl := Option.some.inj htext
      exact hcontext
    · exact budgetPrompt_kept question history (relabelFrom_relabelFrom 1 _) hfits hlabelled
    · intro message rows text htext hrows
      obtain rfl := Option.some.inj htext
      exact rebudget_stored question history hfits hnone hrows

end Kept

end LocalRag.Stream
