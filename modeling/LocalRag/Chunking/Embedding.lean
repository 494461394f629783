import LocalRag.Chunking.Seams
import LocalRag.Runtime.Protocol

/-!
# Embedding batches — chunks bounded in tokens, requests in characters and bytes

`IngestionProcessor.process` sends the texts of the drafts in batches of
`embedding_batch_size`, 1 to 32. Their number is never wrong and none of them is empty:
the parts of a paragraph are trimmed (`units_trimmed`), and so is every chunk that is put
together from them (`packed_trimmed`). Their characters and bytes are bounded by nothing
in the chunker, which counts tokens: `batches_accepted_iff` says exactly when the
coordinator takes them, and `wordPage_chunk` is a page with one chunk of any length.
-/

namespace LocalRag.Chunking

open LocalRag.Core Highlight LocalRag.Runtime

variable {ρ : Type} {w : WordClass} {nfkc : List Char → List Char} {chunker : DocumentChunker}

theorem DocumentChunker.maxTokens_pos (chunker : DocumentChunker) : 1 ≤ chunker.maxTokens := by
  have := chunker.overlap_lt
  have := chunker.target_le
  omega

/-! ## No text is empty -/

/-- The parts of a paragraph. -/
theorem parts_trimmed {maxTokens : Nat} (hmax : 1 ≤ maxTokens) (paragraph : List Char) :
    ∀ p ∈ (sentences paragraph).flatMap (splitOversized w maxTokens), Trimmed p := by
  have hsentences : CutsApart (sentences paragraph) paragraph :=
    cuts_reSplit sentenceBoundary_blank paragraph
  intro p hp
  obtain ⟨sentence, hmem, hp⟩ := List.mem_flatMap.mp hp
  exact (cuts_splitOversized hmax (hsentences.trimmed sentence hmem)).trimmed p hp

theorem paragraphUnits_trimmed {maxTokens : Nat} (hmax : 1 ≤ maxTokens)
    {normalizedPage : List Char} {hasBlocks : Bool} {sectionName : Option (List Char)}
    {cursor : Nat} {raws : List (List Char × List ρ)} {us : List (Unit ρ)}
    (h : paragraphUnits w nfkc maxTokens normalizedPage hasBlocks sectionName cursor raws = .ok us) :
    ∀ u ∈ us, Trimmed u.text := by
  induction raws generalizing sectionName cursor us with
  | nil =>
    obtain rfl := Except.ok.inj h
    simp
  | cons raw raws ih =>
    unfold paragraphUnits at h
    split at h
    · exact ih h
    · obtain ⟨r, hparts, h⟩ := bind_eq_ok.mp h
      obtain ⟨rest, hrest, rfl⟩ := map_eq_ok.mp h
      intro u hu
      rcases List.mem_append.mp hu with hu | hu
      · refine parts_trimmed (w := w) hmax (stripped raw.1) u.text ?_
        rw [← partUnits_texts hparts]
        exact List.mem_map_of_mem hu
      · exact ih hrest u hu

/-- The units of any page, with blocks or without. -/
theorem units_trimmed {page : ParsedPage ρ} {us : List (Unit ρ)}
    (h : units w nfkc chunker page = .ok us) : ∀ u ∈ us, Trimmed u.text :=
  paragraphUnits_trimmed chunker.maxTokens_pos h

theorem render_trimmed {us : List (Unit ρ)} (hne : us ≠ []) (h : ∀ u ∈ us, Trimmed u.text) :
    Trimmed (render us).text := by
  have hjoined : Trimmed (joined (us.map (·.text))) := by
    refine trimmed_joined (by simpa using hne) fun t ht => ?_
    obtain ⟨u, hu, rfl⟩ := List.mem_map.mp ht
    exact h u hu
  unfold render
  rwa [stripped_eq hjoined]

/-- The chunks so far and the units in hand. -/
structure PackingTrimmed (w : WordClass) (chunker : DocumentChunker) (s : Packing ρ) : Prop where
  tokens : PackingTokens w chunker s
  chunks : ∀ c ∈ s.chunks, Trimmed c.text

theorem packStep_trimmed {s : Packing ρ} (h : PackingTrimmed w chunker s) {u : Unit ρ}
    (hu : Trimmed u.text) : PackingTrimmed w chunker (packStep w nfkc chunker s u) := by
  refine ⟨packStep_tokens h.tokens hu, ?_⟩
  unfold packStep
  split
  next hfull =>
    intro c hc
    rcases List.mem_append.mp hc with hc | hc
    · exact h.chunks c hc
    · rw [List.mem_singleton.mp hc]
      exact render_trimmed hfull.1 h.tokens.texts
  next => exact h.chunks

theorem run_packStep_trimmed {s : Packing ρ} (h : PackingTrimmed w chunker s) (us : List (Unit ρ))
    (hus : ∀ u ∈ us, Trimmed u.text) :
    PackingTrimmed w chunker (run (packStep w nfkc chunker) s us) := by
  induction us generalizing s with
  | nil => exact h
  | cons u us ih =>
    exact ih (packStep_trimmed h (hus u (by simp))) fun v hv => hus v (by simp [hv])

theorem packed_trimmed {us : List (Unit ρ)} (hus : ∀ u ∈ us, Trimmed u.text) :
    ∀ c ∈ pack w nfkc chunker us, Trimmed c.text := by
  have hstart : PackingTrimmed w chunker (Packing.start ρ) :=
    ⟨packingTokens_start, by simp [Packing.start]⟩
  have hrun : PackingTrimmed w chunker (run (packStep w nfkc chunker) (Packing.start ρ) us) :=
    run_packStep_trimmed hstart us hus
  unfold pack Packing.finish
  split
  next hlast =>
    intro c hc
    rcases List.mem_append.mp hc with hc | hc
    · exact hrun.chunks c hc
    · rw [List.mem_singleton.mp hc]
      exact render_trimmed hlast.1 hrun.tokens.texts
  next => exact hrun.chunks

variable [DecidableEq ρ]

theorem draftChunks_texts {ctx : ChunkContext ρ} {page : ParsedPage ρ} {ordinal : Nat}
    {chunks : List (Packed ρ)} {drafts : List (ChunkDraft ρ)}
    (h : draftChunks ctx chunker page ordinal chunks = .ok drafts) :
    drafts.map (·.text) = chunks.map (·.text) := by
  induction chunks generalizing ordinal drafts with
  | nil =>
    obtain rfl := Except.ok.inj h
    rfl
  | cons chunk rest ih =>
    unfold draftChunks at h
    obtain ⟨anchor, -, h⟩ := bind_eq_ok.mp h
    obtain ⟨more, hrest, rfl⟩ := map_eq_ok.mp h
    rw [List.map_cons, List.map_cons, ih hrest]
    rfl

theorem chunkPages_trimmed {ctx : ChunkContext ρ} {ordinal : Nat} {pages : List (ParsedPage ρ)}
    {drafts : List (ChunkDraft ρ)} (h : chunkPages ctx chunker ordinal pages = .ok drafts) :
    ∀ d ∈ drafts, Trimmed d.text := by
  induction pages generalizing ordinal drafts with
  | nil =>
    obtain rfl := Except.ok.inj h
    simp
  | cons page rest ih =>
    unfold chunkPages at h
    obtain ⟨us, hunits, h⟩ := bind_eq_ok.mp h
    obtain ⟨first, hdrafts, h⟩ := bind_eq_ok.mp h
    obtain ⟨more, hrest, rfl⟩ := map_eq_ok.mp h
    intro d hd
    rcases List.mem_append.mp hd with hd | hd
    · have htext : d.text ∈ (pack ctx.word ctx.nfkc chunker us).map (·.text) := by
        rw [← draftChunks_texts hdrafts]
        exact List.mem_map_of_mem hd
      obtain ⟨c, hc, heq⟩ := List.mem_map.mp htext
      rw [← heq]
      exact packed_trimmed (units_trimmed hunits) c hc
    · exact ih hrest d hd

/-! ## The batches -/

/-- A batch has a text, has no more than its size, and its texts are among the values. -/
theorem mem_batches {α : Type} {size : Nat} (hsize : 1 ≤ size) {values batch : List α}
    (h : batch ∈ Ingest.batches size values) :
    batch ≠ [] ∧ batch.length ≤ size ∧ ∀ x ∈ batch, x ∈ values := by
  unfold Ingest.batches at h
  obtain ⟨i, hi, rfl⟩ := List.mem_map.mp h
  rw [List.mem_range, Nat.lt_div_iff_mul_lt hsize] at hi
  refine ⟨?_, ?_, fun x hx => List.mem_of_mem_drop (List.mem_of_mem_take hx)⟩
  · intro hnil
    have hlength := congrArg List.length hnil
    rw [List.length_take, List.length_drop, List.length_nil] at hlength
    omega
  · rw [List.length_take]
    exact Nat.min_le_left _ _

theorem batches_singleton {α : Type} {size : Nat} (hsize : 1 ≤ size) (x : α) :
    Ingest.batches size [x] = [[x]] := by
  rw [batches_eq hsize (List.cons_ne_nil x []), List.take_of_length_le hsize,
    List.drop_of_length_le hsize, batches_nil hsize]

/-- The texts handed to `CoordinatorEmbeddingClient.embed`. -/
def draftTexts (drafts : List (ChunkDraft ρ)) : List String :=
  drafts.map fun draft => String.ofList draft.text

/-- A scanned page with one block. -/
def wordPage (n : Nat) : ParsedPage Nat where
  pageNumber := 1
  text := List.replicate n 'a'
  parseMethod := .ocr
  blocks := [⟨List.replicate n 'a', 0⟩]
  fragments := []

/-- A text without white space is one sentence. -/
theorem sentences_solid {s : List Char} (hne : s ≠ []) (h : ∀ c ∈ s, isSpace c = false) :
    sentences s = [s] := by
  have hcuts : CutsApart (sentences s) s := cuts_reSplit sentenceBoundary_blank s
  cases hsentences : sentences s with
  | nil =>
    rw [hsentences] at hcuts
    obtain ⟨c, hc⟩ := List.exists_mem_of_ne_nil s hne
    have hblank : isSpace c = true := hcuts c hc
    rw [h c hc] at hblank
    exact absurd hblank (by simp)
  | cons p ps =>
    rw [hsentences] at hcuts
    obtain ⟨gap, rest, hs, hgap, hp, hstart, hrest⟩ := hcuts
    have hnone : ∀ g : List Char, Blank g → (∀ c ∈ g, c ∈ s) → g = [] := by
      intro g hblank hsub
      by_contra hg
      obtain ⟨c, hc⟩ := List.exists_mem_of_ne_nil g hg
      have hspace : isSpace c = true := hblank c hc
      rw [h c (hsub c hc)] at hspace
      exact absurd hspace (by simp)
    obtain rfl := hnone gap hgap fun c hc => by
      rw [hs]
      simp [hc]
    by_cases hps : ps = []
    · subst hps
      obtain rfl := hnone rest hrest fun c hc => by
        rw [hs]
        simp [hc]
      rw [hs]
      simp
    · -- a second sentence would be behind white space
      obtain ⟨c, rest', rfl, hc⟩ := hstart trivial hps
      rw [h c (by rw [hs]; simp)] at hc
      exact absurd hc (by simp)

theorem wordPage_units {n : Nat} (hn : 1 ≤ n) : ∃ sectionName,
    units asciiWord id pairChunker (wordPage n)
      = .ok [⟨List.replicate n 'a', sectionName, [0], none, none⟩] := by
  have hsolid : ∀ c ∈ List.replicate n 'a', isSpace c = false := by
    intro c hc
    rw [List.eq_of_mem_replicate hc]
    rfl
  have hword : ∀ c ∈ List.replicate n 'a', asciiWord.isWord c = true := by
    intro c hc
    rw [List.eq_of_mem_replicate hc]
    decide
  have hne : List.replicate n 'a' ≠ [] := by
    intro hnil
    have hlength := congrArg List.length hnil
    rw [List.length_replicate, List.length_nil] at hlength
    omega
  have hstripped : stripped (List.replicate n 'a') = List.replicate n 'a' :=
    stripped_eq (trimmed_of_forall hne hsolid)
  have htokens : (tokens asciiWord (List.replicate n 'a')).length ≤ pairChunker.maxTokens :=
    (countTokens_run hword).trans (by decide)
  have hparts : (sentences (List.replicate n 'a')).flatMap
      (splitOversized asciiWord pairChunker.maxTokens) = [List.replicate n 'a'] := by
    rw [sentences_solid hne hsolid, List.flatMap_cons, List.flatMap_nil, List.append_nil]
    unfold splitOversized
    rw [if_pos htokens]
  refine ⟨sectionAfter none (List.replicate n 'a'), ?_⟩
  show paragraphUnits asciiWord id pairChunker.maxTokens _ true none 0
    [(List.replicate n 'a', [0])] = _
  unfold paragraphUnits
  rw [hstripped, if_neg hne, hparts]
  rfl

/-- One chunk, however long the word is. -/
theorem wordPage_chunk {n : Nat} (hn : 1 ≤ n) : ∃ draft,
    chunk asciiContext pairChunker [wordPage n] = .ok [draft] ∧
      draft.text = List.replicate n 'a' := by
  obtain ⟨sectionName, hunits⟩ := wordPage_units hn
  have htrimmed := units_trimmed hunits _ (List.mem_singleton.mpr rfl)
  have hpack : pack asciiWord id pairChunker
      [⟨List.replicate n 'a', sectionName, [0], none, none⟩]
      = [render [⟨List.replicate n 'a', sectionName, [0], none, none⟩]] := rfl
  have htext : (render [(⟨List.replicate n 'a', sectionName, [0], none, none⟩ : Unit Nat)]).text
      = List.replicate n 'a' := by
    show stripped (joined [List.replicate n 'a']) = _
    unfold joined
    rw [List.intercalate_singleton, stripped_eq htrimmed]
  refine ⟨draftOf asciiContext pairChunker (wordPage n) 0
    (render [⟨List.replicate n 'a', sectionName, [0], none, none⟩]) (.ocrRegions 1 [0]), ?_, htext⟩
  show chunkPages asciiContext pairChunker 0 [wordPage n] = _
  unfold chunkPages
  show Except.bind (units asciiWord id pairChunker (wordPage n)) _ = _
  rw [hunits]
  show Except.bind (draftChunks asciiContext pairChunker (wordPage n) 0 (pack asciiWord id pairChunker
    [⟨List.replicate n 'a', sectionName, [0], none, none⟩])) _ = _
  rw [hpack]
  rfl

/-- A client that posts compact JSON. -/
def compactPost (r : EmbedRequest) : Posted :=
  ⟨utf8 (compactJson r), some (utf8 (compactJson r)).length, some "application/json"⟩

theorem compactPost_compact : CompactPost compactPost where
  body _ := rfl
  contentLength _ := rfl
  contentType _ := rfl

theorem wordPage_rejected {n : Nat} (hn : 32768 < n) : ∃ drafts,
    chunk asciiContext pairChunker [wordPage n] = .ok drafts ∧
      ∃ texts ∈ Ingest.batches 16 (draftTexts drafts), ∃ id messages,
        Delivers (compactPost (embedRequest .background id texts)).body messages ∧
          embedAccepted compactPost (embedRequest .background id texts) messages = false := by
  obtain ⟨draft, hchunk, htext⟩ := wordPage_chunk (show 1 ≤ n by omega)
  have hone := Delivers.last (compactPost
    (embedRequest .background UuidHex.zero [String.ofList draft.text])).body
  have hbatch : [String.ofList draft.text] ∈ Ingest.batches 16 (draftTexts [draft]) := by
    unfold draftTexts
    rw [List.map_singleton, batches_singleton (by decide)]
    exact List.mem_singleton.mpr rfl
  refine ⟨[draft], hchunk, [String.ofList draft.text], hbatch, UuidHex.zero, _, hone, ?_⟩
  rw [Bool.eq_false_iff, Ne, embedAccepted_iff compactPost_compact .background UuidHex.zero
    (List.cons_ne_nil _ _) hone]
  rintro ⟨-, hchars, -⟩
  have hlength := (hchars _ (List.mem_singleton.mpr rfl)).2
  rw [String.length_ofList, htext, List.length_replicate] at hlength
  omega

end LocalRag.Chunking
