import LocalRag.Chunking.Parts

/-!
# The numbers of a chunk — tokens, ordinal, page

`current_tokens` is kept by addition while the text is only joined when the chunk is
full. It is the count of that text at every moment (`currentTokens_eq`), since the
words of a joined text are those of its units. The bound then goes through the loop: a
unit has at most `max_tokens` (`units_counts`); a unit is added to what stays within
the target, or to an overlap that leaves room for it, or alone.

`draftChunks_ok` and `chunkPages_ok` are the two loops over the chunks and the pages;
`chunk_numbers` reads it all off the drafts.
-/

namespace LocalRag.Chunking

open LocalRag.Core Highlight

variable {ρ : Type} {w : WordClass} {nfkc : List Char → List Char} {chunker : DocumentChunker}

/-! ## Tokens -/

/-- `current_tokens` counts the text `_render` would give, after every unit. -/
theorem currentTokens_eq (us : List (Unit ρ)) :
    (run (packStep w nfkc chunker) (Packing.start ρ) us).currentTokens =
      countTokens w (render (run (packStep w nfkc chunker) (Packing.start ρ) us).current).text := by
  refine @run_packStep_inv ρ w nfkc chunker
    (fun _ s => s.currentTokens = countTokens w (render s.current).text) ?_ ?_ us
  · rw [countTokens_render]
    rfl
  · intro us s u hs
    rw [countTokens_render] at hs ⊢
    unfold packStep
    split
    · dsimp only
      rw [unitWords_append, unitWords_singleton, List.length_append, length_words,
        countTokens_joined]
    · dsimp only
      rw [unitWords_append, unitWords_singleton, List.length_append, length_words, hs]

/-- The units in hand, and the chunks so far, have a token and no more than fit. -/
structure WithinMax (w : WordClass) (chunker : DocumentChunker) (s : Packing ρ) : Prop where
  current : s.currentTokens ≤ chunker.maxTokens
  pos : s.current ≠ [] → 1 ≤ s.currentTokens
  chunks : ∀ c ∈ s.chunks, 1 ≤ countTokens w c.text ∧ countTokens w c.text ≤ chunker.maxTokens

/-- A unit of at most `max_tokens` keeps the bound. -/
theorem packStep_withinMax {s : Packing ρ} (h : WithinMax w chunker s)
    (htokens : s.currentTokens = countTokens w (render s.current).text) {u : Unit ρ}
    (hpos : 1 ≤ countTokens w u.text) (hmax : countTokens w u.text ≤ chunker.maxTokens) :
    WithinMax w chunker (packStep w nfkc chunker s u) := by
  have htarget := chunker.target_le
  unfold packStep
  split
  next hflush =>
    refine ⟨?_, fun _ => ?_, fun c hc => ?_⟩
    · -- the overlap was kept because it leaves room, or there is none
      dsimp only
      unfold carried
      split
      · rw [countTokens_joined]
        show 0 + _ ≤ _
        omega
      · omega
    · dsimp only
      omega
    · rcases List.mem_append.mp hc with hc | hc
      · exact h.chunks c hc
      · rw [List.mem_singleton.mp hc, ← htokens]
        exact ⟨h.pos hflush.1, h.current⟩
  next hroom =>
    refine ⟨?_, fun _ => ?_, h.chunks⟩
    · dsimp only
      by_cases hnil : s.current = []
      · have hzero : s.currentTokens = 0 := by
          rw [htokens, hnil, countTokens_render]
          rfl
        omega
      · have hle : ¬ chunker.targetTokens < s.currentTokens + countTokens w u.text :=
          fun hlt => hroom ⟨hnil, hlt⟩
        omega
    · dsimp only
      omega

/-- Every chunk packed of such units is within the bound. -/
theorem pack_counts {us : List (Unit ρ)}
    (hus : ∀ u ∈ us, 1 ≤ countTokens w u.text ∧ countTokens w u.text ≤ chunker.maxTokens) :
    ∀ c ∈ pack w nfkc chunker us,
      1 ≤ countTokens w c.text ∧ countTokens w c.text ≤ chunker.maxTokens := by
  have hrun : (∀ u ∈ us, 1 ≤ countTokens w u.text ∧ countTokens w u.text ≤ chunker.maxTokens) →
      WithinMax w chunker (run (packStep w nfkc chunker) (Packing.start ρ) us) := by
    induction us using List.reverseRecOn with
    | nil => exact fun _ => ⟨Nat.zero_le _, fun hne => absurd rfl hne, by simp [run, Packing.start]⟩
    | append_singleton us u ih =>
      intro hus
      have hprev := ih (fun v hv => hus v (List.mem_append_left _ hv))
        fun v hv => hus v (List.mem_append_left _ hv)
      obtain ⟨hpos, hmax⟩ := hus u (by simp)
      rw [run_append]
      exact packStep_withinMax hprev (currentTokens_eq us) hpos hmax
  have hwithin := hrun hus
  intro c hc
  unfold pack Packing.finish at hc
  split at hc
  next hlast =>
    rcases List.mem_append.mp hc with hc | hc
    · exact hwithin.chunks c hc
    · rw [List.mem_singleton.mp hc, ← currentTokens_eq us]
      exact ⟨hwithin.pos hlast.1, hwithin.current⟩
  next => exact hwithin.chunks c hc

variable {page : ParsedPage ρ}

/-- A unit has a token, and at most `max_tokens`. -/
theorem units_counts {us : List (Unit ρ)} (h : units w nfkc chunker page = .ok us) :
    ∀ u ∈ us, 1 ≤ countTokens w u.text ∧ countTokens w u.text ≤ chunker.maxTokens := by
  intro u hu
  have hmem : u.text ∈ us.map (·.text) := List.mem_map_of_mem hu
  rw [paragraphUnits_texts h, List.mem_flatMap] at hmem
  obtain ⟨sentence, hsentence, hpart⟩ := hmem
  obtain ⟨paragraph, -, hsentence⟩ := List.mem_flatMap.mp hsentence
  have hmax := chunker_max_pos chunker
  have htrimmed : Trimmed sentence :=
    (show CutsApart (sentences paragraph) paragraph from
      cuts_reSplit sentenceBoundary_blank paragraph).trimmed sentence hsentence
  have hpartTrimmed : Trimmed u.text :=
    (cuts_splitOversized (w := w) hmax htrimmed).trimmed u.text hpart
  exact ⟨countTokens_pos hpartTrimmed, (words_splitOversized hmax sentence).2 u.text hpart⟩

/-! ## The drafts -/

/-- The fragments of a page have its number. -/
theorem fragmentPages_number {q : ParsedPage ρ} (h : q ∈ fragmentPages page) :
    q.pageNumber = page.pageNumber := by
  unfold fragmentPages at h
  split at h
  · rw [List.mem_singleton.mp h]
  · obtain ⟨fragment, -, rfl⟩ := List.mem_map.mp h
    rfl

theorem fragmentPages_sorted {pages : List (ParsedPage ρ)}
    (h : pages.Pairwise fun p q => p.pageNumber ≤ q.pageNumber) :
    (pages.flatMap fragmentPages).Pairwise fun p q => p.pageNumber ≤ q.pageNumber := by
  rw [List.pairwise_flatMap]
  refine ⟨fun page _ => ?_, h.imp fun {p q} hle x hx y hy => ?_⟩
  · refine List.pairwise_iff_forall_sublist.mpr fun {x y} hsub => ?_
    rw [fragmentPages_number (hsub.subset (by simp : x ∈ [x, y])),
      fragmentPages_number (hsub.subset (by simp : y ∈ [x, y]))]
  · rw [fragmentPages_number hx, fragmentPages_number hy]
    exact hle

section Drafts

variable [DecidableEq ρ] {ctx : ChunkContext ρ}

/-- The draft is a chunk of the page, under some ordinal and with some anchor. -/
def DraftOf (ctx : ChunkContext ρ) (chunker : DocumentChunker) (page : ParsedPage ρ)
    (chunks : List (Packed ρ)) (d : ChunkDraft ρ) : Prop :=
  ∃ c ∈ chunks, ∃ ordinal anchor, d = draftOf ctx chunker page ordinal c anchor

/-- The ordinals of a page's drafts go on from the ordinal it starts with. -/
theorem draftChunks_ok {ordinal : Nat} {chunks : List (Packed ρ)} {drafts : List (ChunkDraft ρ)}
    (h : draftChunks ctx chunker page ordinal chunks = .ok drafts) :
    drafts.map (·.ordinal) = List.range' ordinal drafts.length ∧
      ∀ d ∈ drafts, DraftOf ctx chunker page chunks d := by
  induction chunks generalizing ordinal drafts with
  | nil =>
    obtain rfl := Except.ok.inj h
    exact ⟨rfl, by simp⟩
  | cons chunk rest ih =>
    unfold draftChunks at h
    obtain ⟨anchor, -, h⟩ := bind_eq_ok.mp h
    obtain ⟨more, hmore, rfl⟩ := map_eq_ok.mp h
    obtain ⟨hordinals, hall⟩ := ih hmore
    constructor
    · rw [List.map_cons, List.length_cons, List.range'_succ, hordinals]
      rfl
    · intro d hd
      rcases List.mem_cons.mp hd with rfl | hd
      · exact ⟨chunk, List.mem_cons_self, ordinal, anchor, rfl⟩
      · obtain ⟨c, hc, hdraft⟩ := hall d hd
        exact ⟨c, List.mem_cons_of_mem _ hc, hdraft⟩

/-- The draft is a chunk of one of the pages. -/
def DraftIn (ctx : ChunkContext ρ) (chunker : DocumentChunker) (pages : List (ParsedPage ρ))
    (d : ChunkDraft ρ) : Prop :=
  ∃ page ∈ pages, ∃ us, units ctx.word ctx.nfkc chunker page = .ok us ∧
    DraftOf ctx chunker page (pack ctx.word ctx.nfkc chunker us) d

/-- The ordinals go on over the pages, and the drafts of a page come before those of the next. -/
theorem chunkPages_ok {pages : List (ParsedPage ρ)} {ordinal : Nat} {drafts : List (ChunkDraft ρ)}
    (h : chunkPages ctx chunker ordinal pages = .ok drafts) :
    drafts.map (·.ordinal) = List.range' ordinal drafts.length ∧
      (∀ d ∈ drafts, DraftIn ctx chunker pages d) ∧
      (pages.Pairwise (fun p q => p.pageNumber ≤ q.pageNumber) →
        drafts.Pairwise fun d e => d.pageStart ≤ e.pageStart) := by
  induction pages generalizing ordinal drafts with
  | nil =>
    obtain rfl := Except.ok.inj h
    exact ⟨rfl, by simp, fun _ => List.Pairwise.nil⟩
  | cons page rest ih =>
    unfold chunkPages at h
    obtain ⟨us, hus, h⟩ := bind_eq_ok.mp h
    obtain ⟨first, hfirst, h⟩ := bind_eq_ok.mp h
    obtain ⟨more, hmore, rfl⟩ := map_eq_ok.mp h
    obtain ⟨hordinals, hall⟩ := draftChunks_ok hfirst
    obtain ⟨hmoreOrdinals, hmoreAll, hsorted⟩ := ih hmore
    have hpage : ∀ d ∈ first, d.pageStart = page.pageNumber := by
      intro d hd
      obtain ⟨c, -, i, anchor, rfl⟩ := hall d hd
      rfl
    refine ⟨?_, fun d hd => ?_, fun hpages => ?_⟩
    · rw [List.map_append, hordinals, hmoreOrdinals, List.length_append,
        ← List.range'_append_1]
    · rcases List.mem_append.mp hd with hd | hd
      · exact ⟨page, List.mem_cons_self, us, hus, hall d hd⟩
      · obtain ⟨q, hq, hdraft⟩ := hmoreAll d hd
        exact ⟨q, List.mem_cons_of_mem _ hq, hdraft⟩
    · obtain ⟨hle, hrest⟩ := List.pairwise_cons.mp hpages
      refine List.pairwise_append.mpr ⟨?_, hsorted hrest, ?_⟩
      · -- on one page all have its number
        refine List.pairwise_iff_forall_sublist.mpr fun {d e} hsub => ?_
        rw [hpage d (hsub.subset (by simp)), hpage e (hsub.subset (by simp))]
      · intro d hd e he
        obtain ⟨q, hq, us', -, c, -, i, anchor, rfl⟩ := hmoreAll e he
        rw [hpage d hd]
        exact hle q hq

/-- **A chunk's numbers are right.** The token count of each draft is that of its text and within
the bound, the ordinals count the document's chunks, each draft has the page its text is cut from,
in the order of the pages; and `current_tokens` is the count of the text in hand. -/
theorem chunk_numbers {pages : List (ParsedPage ρ)} {drafts : List (ChunkDraft ρ)}
    (h : chunk ctx chunker pages = .ok drafts) :
    (∀ d ∈ drafts, d.tokenCount = countTokens ctx.word d.text ∧
      1 ≤ d.tokenCount ∧ d.tokenCount ≤ chunker.maxTokens) ∧
    drafts.map (·.ordinal) = List.range drafts.length ∧
    (∀ d ∈ drafts, ∃ page ∈ pages, d.pageStart = page.pageNumber ∧ d.pageEnd = page.pageNumber ∧
      ∃ source ∈ fragmentPages page, ∃ us, units ctx.word ctx.nfkc chunker source = .ok us ∧
        ∃ c ∈ pack ctx.word ctx.nfkc chunker us, d.text = c.text) ∧
    (pages.Pairwise (fun p q => p.pageNumber ≤ q.pageNumber) →
      drafts.Pairwise fun d e => d.pageStart ≤ e.pageStart) ∧
    ∀ us : List (Unit ρ),
      (run (packStep ctx.word ctx.nfkc chunker) (Packing.start ρ) us).currentTokens =
        countTokens ctx.word
          (render (run (packStep ctx.word ctx.nfkc chunker) (Packing.start ρ) us).current).text := by
  obtain ⟨hordinals, hall, hsorted⟩ := chunkPages_ok h
  refine ⟨fun d hd => ?_, ?_, fun d hd => ?_, fun hpages => hsorted (fragmentPages_sorted hpages),
    currentTokens_eq⟩
  · obtain ⟨source, -, us, hus, c, hc, i, anchor, rfl⟩ := hall d hd
    exact ⟨rfl, pack_counts (units_counts hus) c hc⟩
  · rw [hordinals, List.range_eq_range']
  · obtain ⟨source, hsource, us, hus, c, hc, i, anchor, rfl⟩ := hall d hd
    obtain ⟨page, hpage, hsource⟩ := List.mem_flatMap.mp hsource
    have hnumber := fragmentPages_number hsource
    exact ⟨page, hpage, hnumber, hnumber, source, hsource, us, hus, c, hc, rfl⟩

end Drafts

/-- Two pages of a word each. -/
theorem chunk_numbers_two :
    ∃ drafts, chunk asciiContext pairChunker
        [textPage "a".toList, { textPage "b c d".toList with pageNumber := 2 }] = .ok drafts ∧
      drafts.map (·.ordinal) = List.range drafts.length ∧
      drafts.map (·.pageStart) = [1, 2, 2] := by
  obtain ⟨drafts, hdrafts⟩ : ∃ drafts, chunk asciiContext pairChunker
      [textPage "a".toList, { textPage "b c d".toList with pageNumber := 2 }] = .ok drafts :=
    ⟨_, rfl⟩
  refine ⟨drafts, hdrafts, (chunk_numbers hdrafts).2.1, ?_⟩
  obtain rfl := Except.ok.inj hdrafts
  rfl

end LocalRag.Chunking
