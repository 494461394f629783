import LocalRag.Stream.Prompt

/-!
# Prompts in characters — a token budget and a transport that counts characters

Every prompt is held to a budget of tokens before it is sent, and the request it is
sent in takes 1 to 32768 characters. A token can have any number of characters, so the
first bound does not give the second. `prompts_accepted_iff` says for each of the four
kinds of prompt when the second holds: a sum of the lengths of what the prompt is
made of.

For `_budget_prompt` the sources are not given but selected. With the chunker's
`count_tokens` a blank line keeps tokens apart, so counts of blocks add up
(`textTokens_joinBlocks`): what fits with more sources fits with fewer, the selection is the
longest beginning of the list that fits (`selectSources_spec`), and none of the
checks after the loop ever raises (`checkBudget_ok`).
-/

namespace LocalRag.Stream

open LocalRag.Core Chunking

variable {w : WordClass}

/-- `count_tokens`. -/
def textTokens (w : WordClass) (text : String) : Nat := countTokens w text.toList

/-! ## Tokens add up -/

theorem textTokens_line (x y : String) :
    textTokens w (x ++ "\n" ++ y) = textTokens w x + textTokens w y := by
  unfold textTokens
  rw [String.toList_append, String.toList_append, List.append_assoc]
  exact countTokens_line x.toList y.toList

theorem textTokens_blankLine (x y : String) :
    textTokens w (x ++ "\n\n" ++ y) = textTokens w x + textTokens w y := by
  have hsplit : x ++ "\n\n" ++ y = x ++ "\n" ++ ("\n" ++ y) := by
    rw [String.append_assoc, String.append_assoc, ← @String.append_assoc "\n" _ _]
    rfl
  have hempty : textTokens w ("\n" ++ y) = textTokens w y := by
    have hline := textTokens_line (w := w) "" y
    have hzero : textTokens w "" = 0 := rfl
    rw [hzero, Nat.zero_add] at hline
    exact hline
  rw [hsplit, textTokens_line, hempty]

theorem textTokens_joinBlocks (blocks : List String) :
    textTokens w (joinBlocks blocks) = (blocks.map (textTokens w)).sum := by
  induction blocks with
  | nil => rfl
  | cons block rest ih =>
    cases rest with
    | nil => simp [joinBlocks]
    | cons next rest =>
      rw [joinBlocks, textTokens_blankLine, ih]
      rfl

/-- The sources are the end of the prompt. -/
theorem textTokens_renderPrompt (question history sources : String) :
    textTokens w (renderPrompt question history sources)
      = textTokens w (renderPrompt question history "") + textTokens w sources := by
  have hzero : textTokens w "" = 0 := rfl
  unfold renderPrompt
  rw [textTokens_line, textTokens_line, hzero, Nat.add_zero]

theorem textTokens_le (text : String) : textTokens w text ≤ text.length :=
  (countTokens_le_length text.toList).trans (Nat.le_of_eq String.length_toList)

/-! ## History -/

theorem selectLoop_le (budget : Nat) (pairs : List HistoryPair) (selected : List String)
    (h : (selected.map (textTokens w)).sum ≤ budget) :
    ((selectLoop (textTokens w) budget pairs selected).map (textTokens w)).sum ≤ budget := by
  induction pairs generalizing selected with
  | nil => exact h
  | cons pair rest ih =>
    unfold selectLoop
    split
    next hfits =>
      refine ih _ ?_
      rw [textTokens_joinBlocks, List.map_cons, List.sum_cons] at hfits
      rw [List.map_append, List.sum_append]
      simp only [List.map_cons, List.map_nil, List.sum_cons, List.sum_nil]
      omega
    next => exact ih selected h

/-- The selected history keeps its budget, whatever the order it was tried in. -/
theorem selectHistory_le (history : List HistoryPair) (budget : Nat) :
    textTokens w (selectHistory (textTokens w) history budget) ≤ budget := by
  unfold selectHistory
  rw [textTokens_joinBlocks, List.map_reverse, List.sum_reverse]
  exact selectLoop_le budget history.reverse [] (Nat.zero_le _)

section Selection

variable (question : String) (history : List HistoryPair)

theorem historyTokens_le :
    historyTokens (textTokens w) question history ≤ maxHistoryTokens ∧
      historyTokens (textTokens w) question history ≤ combinedBudget (textTokens w) question := by
  have hle := selectHistory_le (w := w) history
    (min maxHistoryTokens (combinedBudget (textTokens w) question))
  unfold historyTokens historyText
  split
  · exact ⟨Nat.zero_le _, Nat.zero_le _⟩
  · exact ⟨hle.trans (Nat.min_le_left _ _), hle.trans (Nat.min_le_right _ _)⟩

/-! ## The selection -/

theorem tokensFit_iff (sources : List SourceSnapshot) :
    tokensFit (textTokens w) question history sources = true ↔
      (textTokens w (sourceBlocks sources) : Int)
          ≤ sourceBudget (textTokens w) question history ∧
        textTokens w (promptFor (textTokens w) question history sources) + outputTokens +
          promptFormattingReserveTokens ≤ modelContextTokens := by
  unfold tokensFit fitsContext
  rw [decide_eq_true_eq, decide_eq_true_eq]

/-- What fits with more sources fits with fewer. -/
theorem tokensFit_of_append {sources more : List SourceSnapshot}
    (h : tokensFit (textTokens w) question history (sources ++ more) = true) :
    tokensFit (textTokens w) question history sources = true := by
  rw [tokensFit_iff] at h ⊢
  have hsum : textTokens w (sourceBlocks (sources ++ more))
      = textTokens w (sourceBlocks sources) + textTokens w (sourceBlocks more) := by
    unfold sourceBlocks
    rw [textTokens_joinBlocks, textTokens_joinBlocks, textTokens_joinBlocks, List.map_append,
      List.map_append, List.sum_append]
  unfold promptFor at h ⊢
  rw [textTokens_renderPrompt, hsum] at h
  rw [textTokens_renderPrompt]
  omega

/-- The sources with their ranks and labels, from a rank on. -/
def relabelFrom : Nat → List SourceSnapshot → List SourceSnapshot
  | _, [] => []
  | rank, source :: rest => relabel rank source :: relabelFrom (rank + 1) rest

theorem length_relabelFrom (rank : Nat) (sources : List SourceSnapshot) :
    (relabelFrom rank sources).length = sources.length := by
  induction sources generalizing rank with
  | nil => rfl
  | cons source rest ih => rw [relabelFrom, List.length_cons, ih, List.length_cons]

theorem relabelFrom_take (rank k : Nat) (sources : List SourceSnapshot) :
    relabelFrom rank (sources.take k) = (relabelFrom rank sources).take k := by
  induction sources generalizing rank k with
  | nil => simp [relabelFrom]
  | cons source rest ih =>
    cases k with
    | zero => rfl
    | succ k => rw [List.take_succ_cons, relabelFrom, ih, relabelFrom, List.take_succ_cons]

/-- The loop goes on as long as one more source fits. -/
theorem selectSources_spec (sources selected : List SourceSnapshot)
    (hfit : selected = [] ∨ tokensFit (textTokens w) question history selected = true) :
    ∃ k, k ≤ sources.length ∧
      selectSources (textTokens w) question history sources selected
        = selected ++ relabelFrom (selected.length + 1) (sources.take k) ∧
      (selectSources (textTokens w) question history sources selected = [] ∨
        tokensFit (textTokens w) question history
          (selectSources (textTokens w) question history sources selected) = true) ∧
      (k < sources.length → tokensFit (textTokens w) question history
        (selected ++ relabelFrom (selected.length + 1) (sources.take (k + 1))) = false) := by
  induction sources generalizing selected with
  | nil => exact ⟨0, Nat.le_refl 0, by simp [selectSources, relabelFrom], hfit, by simp⟩
  | cons source rest ih =>
    unfold selectSources
    split
    next htakes =>
      obtain ⟨k, hk, heq, hres, hnext⟩ := ih (selected ++ [relabel (selected.length + 1) source])
        (Or.inr htakes)
      have hlen : (selected ++ [relabel (selected.length + 1) source]).length = selected.length + 1 :=
        List.length_append
      rw [hlen] at heq hnext
      refine ⟨k + 1, Nat.succ_le_succ hk, ?_, hres, fun hlt => ?_⟩
      · rw [heq, List.take_succ_cons, relabelFrom, List.append_assoc]
        rfl
      · have hmore := hnext (Nat.lt_of_succ_lt_succ hlt)
        rw [List.append_assoc] at hmore
        exact hmore
    next hstop =>
      refine ⟨0, Nat.zero_le _, by simp [relabelFrom], hfit, fun _ => ?_⟩
      simpa [relabelFrom] using hstop

/-- The checks after the loop pass: what was selected fits. -/
theorem checkBudget_ok {selected : List SourceSnapshot} (hne : selected ≠ [])
    (hfit : tokensFit (textTokens w) question history selected = true) :
    checkBudget (textTokens w) question history selected
      = .ok (selected, some (promptFor (textTokens w) question history selected)) := by
  obtain ⟨hhistory, -⟩ := historyTokens_le (w := w) question history
  obtain ⟨hblocks, hcontext⟩ := (tokensFit_iff question history selected).mp hfit
  have hcombined : combinedBudget (textTokens w) question ≤ maxCombinedTokens := Nat.min_le_left _ _
  unfold sourceBudget at hblocks
  unfold checkBudget
  rw [if_neg hne, if_neg, if_neg (by omega), if_neg (by omega)]
  unfold fitsContext
  simpa using hcontext

end Selection

/-! ## Characters -/

theorem length_renderPrompt (question history sources : String) :
    (renderPrompt question history sources).length
      = 308 + question.length + (if history = "" then 34 else history.length) + sources.length := by
  have h1 : "Answer the current question using only the labeled source blocks.\n".length = 66 :=
    String.length_ofList
  have h2 : "Conversation history is reference context only and is not factual evidence.\n".length = 76 :=
    String.length_ofList
  have h3 : "Every factual claim must cite [S1], [S2], etc.\n".length = 47 :=
    String.length_ofList
  have h4 : "If sources are insufficient, reply exactly: INSUFFICIENT_CONTEXT\n\n".length = 66 :=
    String.length_ofList
  have h5 : "Conversation history:\n".length = 22 := String.length_ofList
  have h6 : "No completed conversation history.".length = 34 := String.length_ofList
  have h7 : "\n\nCurrent question:\n".length = 20 := String.length_ofList
  have h8 : "\n\nSources:".length = 10 := String.length_ofList
  have h9 : "\n".length = 1 := String.length_ofList
  unfold renderPrompt
  simp only [String.length_append, h1, h2, h3, h4, h5, h7, h8, h9]
  split
  · rw [h6]
    omega
  · omega

theorem length_blockText (label filename displayName logicalPath page sectionName text : String) :
    (blockText label filename displayName logicalPath page sectionName text).length
      = 78 + label.length + filename.length + displayName.length + logicalPath.length +
        page.length + sectionName.length + text.length := by
  have h1 : "[".length = 1 := String.length_ofList
  have h2 : "]\nFilename: ".length = 12 := String.length_ofList
  have h3 : "\nCurrent display name: ".length = 23 := String.length_ofList
  have h4 : "\nLogical path: ".length = 15 := String.length_ofList
  have h5 : "\nPage: ".length = 7 := String.length_ofList
  have h6 : "\nSection: ".length = 10 := String.length_ofList
  have h7 : "\nContent:\n".length = 10 := String.length_ofList
  unfold blockText
  simp only [String.length_append, h1, h2, h3, h4, h5, h6, h7]
  omega

theorem length_ragAnswer (question sources : String) :
    (ragAnswer question sources).length = 291 + question.length + sources.length := by
  have h1 : "Answer the question using only the labeled source blocks below.\n".length = 64 :=
    String.length_ofList
  have h2 : "Every factual claim must cite one or more source labels exactly as [S1], [S2], etc.\n".length = 84 :=
    String.length_ofList
  have h3 : "Never cite a label that is not provided.\n".length = 41 := String.length_ofList
  have h4 : "If the sources do not answer the question, reply exactly: INSUFFICIENT_CONTEXT\n\n".length = 80 :=
    String.length_ofList
  have h5 : "Question:\n".length = 10 := String.length_ofList
  have h6 : "\n\nSources:\n".length = 11 := String.length_ofList
  have h7 : "\n".length = 1 := String.length_ofList
  unfold ragAnswer
  simp only [String.length_append, h1, h2, h3, h4, h5, h6, h7]
  omega

/-- Blocks of these lengths, with blank lines between them. -/
def joinedChars : List Nat → Nat
  | [] => 0
  | [n] => n
  | n :: m :: ns => n + 2 + joinedChars (m :: ns)

theorem length_joinBlocks (blocks : List String) :
    (joinBlocks blocks).length = joinedChars (blocks.map String.length) := by
  induction blocks with
  | nil => rfl
  | cons block rest ih =>
    cases rest with
    | nil => rfl
    | cons next rest =>
      rw [joinBlocks, String.length_append, String.length_append, ih]
      rfl

/-- The characters of a labelled source. -/
def sourceChars (source : SourceSnapshot) : Nat :=
  78 + source.label.length + source.originalFilename.length + source.displayName.length +
    source.logicalPath.length + (pageText source.pageStart source.pageEnd).length +
    (sectionText source.sectionName).length + source.text.length

theorem length_sourceBlock (source : SourceSnapshot) :
    (sourceBlock source).length = sourceChars source := by
  unfold sourceBlock sourceChars
  rw [length_blockText]

theorem length_sourceBlocks (sources : List SourceSnapshot) :
    (sourceBlocks sources).length = joinedChars (sources.map sourceChars) := by
  have hlengths : String.length ∘ sourceBlock = sourceChars := by
    funext source
    rw [Function.comp_apply, length_sourceBlock]
  unfold sourceBlocks
  rw [length_joinBlocks, List.map_map, hlengths]

/-- The characters of the chat prompt for these labelled sources. -/
def promptChars (question history : String) (sources : List SourceSnapshot) : Nat :=
  308 + question.length + (if history = "" then 34 else history.length) +
    joinedChars (sources.map sourceChars)

/-- The characters of a source of the query service. -/
def preparedChars (source : PreparedSource) : Nat :=
  78 + source.label.length + source.filename.length + source.displayName.length +
    source.logicalPath.length + (pageText source.pageStart source.pageEnd).length +
    (sectionText source.sectionName).length + source.text.length

/-- The same of a ranked chunk, at the place its document has in the library. -/
def rankedChars (locations : DocumentId → Option LibraryLocation) : Nat → List RankedChunk → List Nat
  | _, [] => []
  | index, chunk :: rest =>
    let location := (locations chunk.documentId).getD ⟨"", ""⟩
    (78 + (rankLabel index).length + chunk.filename.length + location.displayName.length +
      location.logicalPath.length + (pageText chunk.pageStart chunk.pageEnd).length +
      (sectionText chunk.sectionName).length + chunk.text.length) ::
        rankedChars locations (index + 1) rest

theorem length_formatSource (source : PreparedSource) :
    (formatSource source).length = preparedChars source := by
  unfold formatSource preparedChars
  rw [length_blockText]

theorem length_formatSources (sources : List PreparedSource) :
    (joinBlocks (sources.map formatSource)).length = joinedChars (sources.map preparedChars) := by
  have hlengths : String.length ∘ formatSource = preparedChars := by
    funext source
    rw [Function.comp_apply, length_formatSource]
  rw [length_joinBlocks, List.map_map, hlengths]

theorem materializeSources_chars {locations : DocumentId → Option LibraryLocation} {index : Nat}
    {ranked : List RankedChunk} {sources : List PreparedSource}
    (h : materializeSources locations index ranked = .ok sources) :
    sources.map preparedChars = rankedChars locations index ranked := by
  induction ranked generalizing index sources with
  | nil =>
    obtain rfl := Except.ok.inj h
    rfl
  | cons chunk rest ih =>
    unfold materializeSources at h
    split at h
    · exact absurd h (by simp)
    next location hlocation =>
      cases hrest : materializeSources locations (index + 1) rest with
      | error e =>
        rw [hrest] at h
        exact absurd h (by simp [Except.map])
      | ok made =>
        rw [hrest] at h
        obtain rfl := Except.ok.inj h
        rw [List.map_cons, ih hrest, rankedChars, hlocation]
        rfl

theorem joinedChars_append_le (ns ms : List Nat) :
    joinedChars ns ≤ joinedChars (ns ++ ms) := by
  induction ns with
  | nil => exact Nat.zero_le _
  | cons n ns ih =>
    cases ns with
    | nil =>
      cases ms with
      | nil => exact Nat.le_refl _
      | cons m ms =>
        show n ≤ n + 2 + _
        omega
    | cons n' ns =>
      show n + 2 + joinedChars (n' :: ns) ≤ n + 2 + joinedChars (n' :: ns ++ ms)
      omega

theorem promptAccepted_iff (prompt : String) :
    promptAccepted prompt = true ↔ 1 ≤ prompt.length ∧ prompt.length ≤ 32768 :=
  decide_eq_true_iff

/-! ## Each kind of prompt -/

/-- The chat prompt, when every number of sources that fits in tokens fits in characters. -/
theorem budgetPrompt_accepted (question : String) (history : List HistoryPair)
    (sources : List SourceSnapshot) :
    (∀ selected prompt, budgetPrompt (textTokens w) question history sources
        = .ok (selected, some prompt) → promptAccepted prompt = true) ↔
      ∀ k, 1 ≤ k → k ≤ sources.length →
        tokensFit (textTokens w) question history (relabelFrom 1 (sources.take k)) = true →
        promptChars question (historyText (textTokens w) question history)
          (relabelFrom 1 (sources.take k)) ≤ 32768 := by
  obtain ⟨n, hn, hselected, hres, hnext⟩ := selectSources_spec (w := w) question history sources []
    (Or.inl rfl)
  rw [hselected, List.nil_append, List.length_nil, Nat.zero_add] at hres
  rw [List.length_nil, Nat.zero_add] at hnext
  have hlength : ∀ L, (promptFor (textTokens w) question history L).length
      = promptChars question (historyText (textTokens w) question history) L := by
    intro L
    unfold promptFor promptChars
    rw [length_renderPrompt, length_sourceBlocks]
  have hrun : budgetPrompt (textTokens w) question history sources
      = checkBudget (textTokens w) question history (relabelFrom 1 (sources.take n)) := by
    unfold budgetPrompt
    rw [hselected]
    rfl
  constructor
  · intro hall k hk1 hk hfit
    -- what fits is part of what was selected
    have hkn : k ≤ n := by
      by_contra hlt
      have hlt' : n < sources.length := by omega
      have hsplit : relabelFrom 1 (sources.take k)
          = relabelFrom 1 (sources.take (n + 1)) ++ (relabelFrom 1 (sources.take k)).drop (n + 1) := by
        have htake : relabelFrom 1 (sources.take (n + 1)) = (relabelFrom 1 (sources.take k)).take (n + 1) := by
          rw [relabelFrom_take, relabelFrom_take, List.take_take, Nat.min_eq_left (by omega)]
        rw [htake, List.take_append_drop]
      rw [hsplit] at hfit
      have hfit' := tokensFit_of_append question history hfit
      rw [List.nil_append] at hnext
      rw [hnext hlt'] at hfit'
      exact absurd hfit' (by simp)
    have hne : relabelFrom 1 (sources.take n) ≠ [] := by
      intro hnil
      have hlen := congrArg List.length hnil
      rw [length_relabelFrom, List.length_take, List.length_nil] at hlen
      omega
    have hok := checkBudget_ok question history hne (hres.resolve_left hne)
    have haccepted := hall _ _ (hrun.trans hok)
    rw [promptAccepted_iff, hlength] at haccepted
    refine le_trans ?_ haccepted.2
    have htake : relabelFrom 1 (sources.take k) = (relabelFrom 1 (sources.take n)).take k := by
      rw [relabelFrom_take, relabelFrom_take, List.take_take, Nat.min_eq_left hkn]
    unfold promptChars
    refine Nat.add_le_add_left ?_ _
    rw [htake, List.map_take]
    have hmono := joinedChars_append_le
      (((relabelFrom 1 (sources.take n)).map sourceChars).take k)
      (((relabelFrom 1 (sources.take n)).map sourceChars).drop k)
    rwa [List.take_append_drop] at hmono
  · intro hall selected prompt hprompt
    rw [hrun] at hprompt
    by_cases hne : relabelFrom 1 (sources.take n) = []
    · unfold checkBudget at hprompt
      rw [if_pos hne] at hprompt
      exact absurd (Except.ok.inj hprompt) (by simp)
    · have hfit := hres.resolve_left hne
      rw [checkBudget_ok question history hne hfit] at hprompt
      obtain ⟨-, hprompt⟩ := Prod.mk.inj (Except.ok.inj hprompt)
      obtain rfl := Option.some.inj hprompt
      have hn1 : 1 ≤ n := by
        by_contra h0
        obtain rfl : n = 0 := by omega
        exact hne rfl
      have hchars := hall n hn1 hn hfit
      rw [promptAccepted_iff, hlength]
      unfold promptChars at hchars ⊢
      omega

variable {countTokens : String → Nat}

/-- The continuation of a prompt. -/
theorem continuationPrompt_accepted {base answer prompt : String}
    (h : continuationPrompt countTokens base answer = .ok prompt) :
    promptAccepted prompt = true ↔ 316 + base.length + answer.length ≤ 32768 := by
  unfold continuationPrompt at h
  simp only [] at h
  split at h
  · exact absurd h (by simp)
  · obtain rfl := Except.ok.inj h
    have h1 : "\n\n".length = 2 := String.length_ofList
    have h2 : "The answer below stopped only because the generation limit was reached. ".length = 72 :=
      String.length_ofList
    have h3 : "Continue exactly where it stopped. Return only the missing continuation. ".length = 73 :=
      String.length_ofList
    have h4 : "Do not repeat, restart, summarize, or revise existing text. Preserve its ".length = 73 :=
      String.length_ofList
    have h5 : "Markdown structure and finish every citation and table row.\n\n".length = 61 :=
      String.length_ofList
    have h6 : "<partial_answer>\n".length = 17 := String.length_ofList
    have h7 : "\n</partial_answer>".length = 18 := String.length_ofList
    rw [promptAccepted_iff]
    simp only [String.length_append, h1, h2, h3, h4, h5, h6, h7]
    omega

/-- The repair of a draft's citations. -/
theorem citationRepairPrompt_accepted {base draft prompt : String}
    (h : citationRepairPrompt countTokens base draft = .ok prompt) :
    promptAccepted prompt = true ↔ 499 + base.length + draft.length ≤ 32768 := by
  unfold citationRepairPrompt at h
  simp only [] at h
  split at h
  · exact absurd h (by simp)
  · obtain rfl := Except.ok.inj h
    have h1 : "\n\n".length = 2 := String.length_ofList
    have h2 : "The draft answer below contains useful content but failed citation ".length = 67 :=
      String.length_ofList
    have h3 : "validation. Rewrite it without adding facts. Preserve its meaning and ".length = 70 :=
      String.length_ofList
    have h4 : "Markdown structure, including exactly the requested table columns. ".length = 67 :=
      String.length_ofList
    have h5 : "Remove any unsupported claim. Add a valid source citation such as [S1] ".length = 71 :=
      String.length_ofList
    have h6 : "to every factual table row and factual sentence. Use only source labels ".length = 72 :=
      String.length_ofList
    have h7 : "that appear in the labeled source blocks above. Return only the repaired ".length = 73 :=
      String.length_ofList
    have h8 : "answer, with no commentary about the repair.\n\n".length = 46 :=
      String.length_ofList
    have h9 : "<draft_answer>\n".length = 15 := String.length_ofList
    have h10 : "\n</draft_answer>".length = 16 := String.length_ofList
    rw [promptAccepted_iff]
    simp only [String.length_append, h1, h2, h3, h4, h5, h6, h7, h8, h9, h10]
    omega

/-- The prompt of the query service. -/
theorem prepareSources_accepted {locations : DocumentId → Option LibraryLocation}
    {question prompt : String} {ranked : List RankedChunk} {sources : List PreparedSource}
    (h : prepareSources countTokens locations question ranked = .ok (some prompt, sources)) :
    promptAccepted prompt = true ↔
      291 + question.length + joinedChars (rankedChars locations 1 ranked) ≤ 32768 := by
  unfold prepareSources at h
  split at h
  · exact absurd (Except.ok.inj h) (by simp)
  · split at h
    · exact absurd h (by simp)
    next made hmade =>
      unfold prepareBlocks at h
      split at h
      · exact absurd (Except.ok.inj h) (by simp)
      · split at h
        · exact absurd h (by simp)
        · obtain ⟨hprompt, hsources⟩ := Prod.mk.inj (Except.ok.inj h)
          obtain rfl := Option.some.inj hprompt
          rw [promptAccepted_iff, length_ragAnswer, length_formatSources,
            materializeSources_chars hmade]
          omega

/-- Each of the four kinds of prompt is accepted exactly when the characters it is made of
are few enough, whatever its tokens. -/
theorem prompts_accepted_iff (w : WordClass) :
    (∀ question history sources,
      (∀ selected prompt, budgetPrompt (textTokens w) question history sources
          = .ok (selected, some prompt) → promptAccepted prompt = true) ↔
        ∀ k, 1 ≤ k → k ≤ sources.length →
          tokensFit (textTokens w) question history (relabelFrom 1 (sources.take k)) = true →
          promptChars question (historyText (textTokens w) question history)
            (relabelFrom 1 (sources.take k)) ≤ 32768) ∧
    (∀ base answer prompt, continuationPrompt (textTokens w) base answer = .ok prompt →
      (promptAccepted prompt = true ↔ 316 + base.length + answer.length ≤ 32768)) ∧
    (∀ base draft prompt, citationRepairPrompt (textTokens w) base draft = .ok prompt →
      (promptAccepted prompt = true ↔ 499 + base.length + draft.length ≤ 32768)) ∧
    (∀ locations question ranked prompt sources,
      prepareSources (textTokens w) locations question ranked = .ok (some prompt, sources) →
      (promptAccepted prompt = true ↔
        291 + question.length + joinedChars (rankedChars locations 1 ranked) ≤ 32768)) :=
  ⟨budgetPrompt_accepted, fun _ _ _ => continuationPrompt_accepted,
    fun _ _ _ => citationRepairPrompt_accepted, fun _ _ _ _ _ => prepareSources_accepted⟩

/-! ## One token of 32768 characters -/

/-- A source whose text is one word. -/
def wordSource (n : Nat) : SourceSnapshot :=
  { rank := 1, label := "S1", documentId := some 1, chunkId := some 1, documentIdSnapshot := 1
    chunkIdSnapshot := 1, originalFilename := "a.pdf", displayName := "a.pdf"
    logicalPath := "/a.pdf", pageStart := 1, pageEnd := 1, sectionName := none
    sourceSha256 := "", textSha256 := "", text := String.ofList (List.replicate n 'a')
    tokenCount := 1 }

/-- The content is the end of its block. -/
theorem textTokens_blockText_le (label filename displayName logicalPath page sectionName
    text : String) :
    textTokens w (blockText label filename displayName logicalPath page sectionName text) ≤
      textTokens w (blockText label filename displayName logicalPath page sectionName "") +
        textTokens w text := by
  have hsplit : blockText label filename displayName logicalPath page sectionName text
      = blockText label filename displayName logicalPath page sectionName "" ++ text := by
    unfold blockText
    rw [String.append_empty]
  rw [hsplit]
  unfold textTokens
  rw [String.toList_append]
  exact countTokens_append_le _ _

theorem wordSource_tokens (n : Nat) :
    textTokens asciiWord (sourceBlocks [relabel 1 (wordSource n)]) ≤ 111 := by
  have hword : textTokens asciiWord (String.ofList (List.replicate n 'a')) ≤ 1 := by
    unfold textTokens
    rw [String.toList_ofList]
    refine countTokens_run fun c hc => ?_
    rw [List.eq_of_mem_replicate hc]
    decide
  have hfront := textTokens_le (w := asciiWord)
    (blockText "S1" "a.pdf" "a.pdf" "/a.pdf" (pageText 1 1) (sectionText none) "")
  have hlength :
      (blockText "S1" "a.pdf" "a.pdf" "/a.pdf" (pageText 1 1) (sectionText none) "").length = 110 := by
    rw [length_blockText]
    rfl
  have hblock := textTokens_blockText_le (w := asciiWord) "S1" "a.pdf" "a.pdf" "/a.pdf"
    (pageText 1 1) (sectionText none) (String.ofList (List.replicate n 'a'))
  show textTokens asciiWord (sourceBlock (relabel 1 (wordSource n))) ≤ 111
  have hfields : sourceBlock (relabel 1 (wordSource n)) = blockText "S1" "a.pdf" "a.pdf" "/a.pdf"
    (pageText 1 1) (sectionText none) (String.ofList (List.replicate n 'a')) := rfl
  rw [hfields]
  omega

/-- Whatever is asked: the prompt fits its tokens and has too many characters. -/
theorem wordSource_rejected {question : String} (hquestion : question.length ≤ 2000) {n : Nat}
    (hn : 32768 ≤ n) : ∃ selected prompt,
      budgetPrompt (textTokens asciiWord) question [] [wordSource n]
          = .ok (selected, some prompt) ∧
        promptAccepted prompt = false := by
  have htokens := wordSource_tokens n
  have hhistory : historyText (textTokens asciiWord) question [] = "" := rfl
  have hshell : textTokens asciiWord (renderPrompt question "" "") ≤ 2342 := by
    have hlength := length_renderPrompt question "" ""
    rw [if_pos rfl] at hlength
    have hempty : "".length = 0 := rfl
    exact (textTokens_le _).trans (by omega)
  have hbudget : sourceBudget (textTokens asciiWord) question [] = 6144 := by
    unfold sourceBudget historyTokens combinedBudget maxCombinedTokens outputTokens
      promptFormattingReserveTokens modelContextTokens
    rw [if_pos hhistory]
    omega
  have hfit : tokensFit (textTokens asciiWord) question [] [relabel 1 (wordSource n)] = true := by
    rw [tokensFit_iff, hbudget]
    unfold promptFor
    rw [textTokens_renderPrompt, hhistory]
    unfold outputTokens promptFormattingReserveTokens modelContextTokens
    omega
  have hselected : selectSources (textTokens asciiWord) question [] [wordSource n] []
      = [relabel 1 (wordSource n)] := by
    unfold selectSources
    rw [List.nil_append, List.length_nil, if_pos hfit]
    rfl
  refine ⟨[relabel 1 (wordSource n)], promptFor (textTokens asciiWord) question []
    [relabel 1 (wordSource n)], ?_, ?_⟩
  · unfold budgetPrompt
    rw [hselected]
    exact checkBudget_ok question [] (by simp) hfit
  · have htext : (relabel 1 (wordSource n)).text.length = n := by
      show (String.ofList (List.replicate n 'a')).length = n
      rw [String.length_ofList, List.length_replicate]
    have hchars : n ≤ sourceChars (relabel 1 (wordSource n)) := by
      unfold sourceChars
      rw [htext]
      exact Nat.le_add_left _ _
    rw [Bool.eq_false_iff, Ne, promptAccepted_iff]
    unfold promptFor
    rw [length_renderPrompt, length_sourceBlocks, List.map_singleton, joinedChars]
    omega

/-- A question, no history and one source of one long word. -/
theorem prompt_rejected : ∃ selected prompt,
    budgetPrompt (textTokens asciiWord) "q" [] [wordSource 32768] = .ok (selected, some prompt) ∧
      promptAccepted prompt = false :=
  wordSource_rejected (by decide) (Nat.le_refl 32768)

end LocalRag.Stream
