import LocalRag.Chunking.Seams

/-!
# Packing — what is repeated, what is new, and how much there is

`_pack` fills chunks with units and begins a chunk with the end of the one before. A
`Part` is a chunk taken apart into the units it repeats and those that are new. The
new ones put together are the input (`Partition.fresh`), whatever the loop flushed,
rebuilt or discarded in between: a round either adds its unit to the last part or
begins a part with it (`packStep_packed`). Only a last part with the text of the one
before is left out.

The words of a chunk are the words of its units, so `current_tokens` is the count of
the text `_render` would give, and a chunk has at most `max_tokens`.
-/

namespace LocalRag.Chunking

open LocalRag.Core Highlight

variable {ρ : Type} {w : WordClass} {nfkc : List Char → List Char} {chunker : DocumentChunker}

/-! ## Units -/

/-- The words of the units, in order. -/
def unitWords (w : WordClass) (us : List (Unit ρ)) : List (List Char) :=
  us.flatMap fun u => words w u.text

theorem words_render (us : List (Unit ρ)) : words w (render us).text = unitWords w us := by
  show words w (stripped (joined (us.map (·.text)))) = _
  rw [words_stripped, words_joined, List.flatMap_map]
  rfl

theorem countTokens_render (us : List (Unit ρ)) :
    countTokens w (render us).text = (unitWords w us).length := by
  rw [← length_words, words_render]

theorem countTokens_joined (us : List (Unit ρ)) :
    countTokens w (joined (us.map (·.text))) = (unitWords w us).length := by
  rw [← length_words, words_joined, List.flatMap_map]
  rfl

theorem unitWords_append (us vs : List (Unit ρ)) :
    unitWords w (us ++ vs) = unitWords w us ++ unitWords w vs := List.flatMap_append

theorem unitWords_singleton (u : Unit ρ) : unitWords w [u] = words w u.text := by
  simp [unitWords]

/-! ## The overlap -/

/-- The overlap has the last words of the units, at most `overlapTokens` of them. -/
theorem overlapLoop_words {overlapTokens : Nat} (ho : 1 ≤ overlapTokens) (us : List (Unit ρ))
    (selected : List (Unit ρ)) (total : Nat) (htotal : (unitWords w selected).length = total)
    (hle : total ≤ overlapTokens) :
    unitWords w (overlapLoop w nfkc overlapTokens us selected total) <:+
        unitWords w (us.reverse ++ selected) ∧
      (unitWords w (overlapLoop w nfkc overlapTokens us selected total)).length ≤ overlapTokens := by
  induction us generalizing selected total with
  | nil => exact ⟨List.suffix_rfl, htotal ▸ hle⟩
  | cons u us ih =>
    have hfront : unitWords w ((u :: us).reverse ++ selected) =
        unitWords w us.reverse ++ unitWords w (u :: selected) := by
      rw [List.reverse_cons, List.append_assoc, List.singleton_append, unitWords_append]
    unfold overlapLoop
    split
    · refine ⟨?_, htotal ▸ hle⟩
      rw [unitWords_append]
      exact List.suffix_append _ _
    next hgo =>
      split
      next hlong =>
        have hnil : selected = [] := by
          by_contra hne
          exact hgo ⟨hne, by omega⟩
        subst hnil
        obtain ⟨hsuffix, hcount⟩ := @words_suffixText w _ _ ho hlong
        rw [unitWords_singleton]
        refine ⟨?_, ?_⟩
        · rw [hfront, unitWords_singleton]
          exact hsuffix.trans (List.suffix_append _ _)
        · rw [length_words]
          exact Nat.le_of_eq hcount
      next hshort =>
        have hcons : (unitWords w (u :: selected)).length = total + countTokens w u.text := by
          rw [show u :: selected = [u] ++ selected from rfl, unitWords_append, unitWords_singleton,
            List.length_append, length_words]
          omega
        have hroom : total + countTokens w u.text ≤ overlapTokens := by
          by_cases hnil : selected = []
          · subst hnil
            have hzero : total = 0 := by rw [← htotal]; rfl
            omega
          · by_contra hgt
            exact hgo ⟨hnil, by omega⟩
        obtain ⟨hsuffix, hcount⟩ := ih (u :: selected) (total + countTokens w u.text) hcons hroom
        rw [unitWords_append] at hsuffix
        rw [hfront]
        exact ⟨hsuffix, hcount⟩

/-- What a chunk repeats of the one before: its last words, at most `overlapTokens`. -/
def Repeats (w : WordClass) (overlapTokens : Nat) (previous repeated : List (Unit ρ)) : Prop :=
  words w (joined (repeated.map (·.text))) <:+ words w (render previous).text ∧
    countTokens w (joined (repeated.map (·.text))) ≤ overlapTokens

variable {overlapTokens : Nat}

theorem repeats_iff {previous repeated : List (Unit ρ)} :
    Repeats w overlapTokens previous repeated ↔
      unitWords w repeated <:+ unitWords w previous ∧
        (unitWords w repeated).length ≤ overlapTokens := by
  unfold Repeats
  rw [words_render, countTokens_joined, words_joined, List.flatMap_map]
  rfl

theorem carried_repeats (current : List (Unit ρ)) (unit : Unit ρ) :
    Repeats w chunker.overlapTokens current (carried w nfkc chunker current unit) := by
  rw [repeats_iff]
  have hnone : unitWords w ([] : List (Unit ρ)) <:+ unitWords w current ∧
      (unitWords w ([] : List (Unit ρ))).length ≤ chunker.overlapTokens :=
    ⟨List.nil_suffix, Nat.zero_le _⟩
  unfold carried
  split
  · exact hnone
  · unfold overlap
    by_cases ho : chunker.overlapTokens = 0
    · rw [if_pos ho]
      exact hnone
    · rw [if_neg ho]
      have hloop := @overlapLoop_words ρ w nfkc chunker.overlapTokens (Nat.pos_of_ne_zero ho)
        current.reverse [] 0 rfl (Nat.zero_le _)
      rwa [List.reverse_reverse, List.append_nil] at hloop

/-! ## The parts -/

/-- A chunk taken apart: what it repeats, and the units that are new. -/
structure Part (ρ : Type) where
  repeated : List (Unit ρ)
  fresh : List (Unit ρ)

def Part.units (p : Part ρ) : List (Unit ρ) := p.repeated ++ p.fresh

def Part.rendered (p : Part ρ) : Packed ρ := render p.units

/-- The new units are these, none is missing and none comes twice, and every part but the first
repeats the end of the one before. -/
structure Partition (w : WordClass) (overlapTokens : Nat) (us : List (Unit ρ))
    (parts : List (Part ρ)) : Prop where
  fresh : (parts.map (·.fresh)).flatten = us
  nonempty : ∀ p ∈ parts, p.fresh ≠ []
  first : ∀ p, parts.head? = some p → p.repeated = []
  chain : parts.IsChain fun p q => Repeats w overlapTokens p.units q.repeated

variable {us : List (Unit ρ)}

variable {p : Part ρ}

/-- The last part takes one more unit. -/
theorem Partition.grow {done : List (Part ρ)} (h : Partition w overlapTokens us (done ++ [p]))
    (u : Unit ρ) :
    Partition w overlapTokens (us ++ [u]) (done ++ [⟨p.repeated, p.fresh ++ [u]⟩]) where
  fresh := by
    rw [← h.fresh]
    simp
  nonempty := by
    intro q hq
    rcases List.mem_append.mp hq with hq | hq
    · exact h.nonempty q (List.mem_append_left _ hq)
    · rw [List.mem_singleton.mp hq]
      simp
  first := by
    intro q hq
    cases done with
    | nil =>
      obtain rfl := Option.some.inj hq
      exact h.first p rfl
    | cons d done => exact h.first q hq
  chain := by
    obtain ⟨hdone, -, hlast⟩ := List.isChain_append.mp h.chain
    refine hdone.append (List.isChain_singleton _) fun q hq r hr => ?_
    obtain rfl := Option.some.inj hr
    exact hlast q hq p rfl

/-- A new part, which repeats the end of the last one. -/
theorem Partition.begin {done : List (Part ρ)} (h : Partition w overlapTokens us (done ++ [p]))
    {repeated : List (Unit ρ)} (hrepeated : Repeats w overlapTokens p.units repeated) (u : Unit ρ) :
    Partition w overlapTokens (us ++ [u]) (done ++ [p] ++ [⟨repeated, [u]⟩]) where
  fresh := by
    rw [List.map_append, List.flatten_append, h.fresh]
    simp
  nonempty := by
    intro q hq
    rcases List.mem_append.mp hq with hq | hq
    · exact h.nonempty q hq
    · rw [List.mem_singleton.mp hq]
      simp
  first := by
    intro q hq
    refine h.first q ?_
    rw [List.head?_append, List.head?_append] at hq
    rw [List.head?_append]
    cases done with
    | nil => exact hq
    | cons d done => exact hq
  chain := by
    refine h.chain.append (List.isChain_singleton _) fun q hq r hr => ?_
    obtain rfl := Option.some.inj hr
    rw [List.getLast?_concat] at hq
    obtain rfl := Option.some.inj hq
    exact hrepeated

/-! ## The loop -/

/-- Nothing has been read, or the chunks and the units in hand are parts of what has. -/
def IsPacked (w : WordClass) (chunker : DocumentChunker) (us : List (Unit ρ)) (s : Packing ρ) :
    Prop :=
  (us = [] ∧ s = Packing.start ρ) ∨ ∃ done p,
    Partition w chunker.overlapTokens us (done ++ [p]) ∧ s.chunks = done.map Part.rendered ∧
      s.current = p.units

theorem Partition.units_ne_nil {parts : List (Part ρ)} (h : Partition w overlapTokens us parts)
    (hp : p ∈ parts) : p.units ≠ [] := by
  unfold Part.units
  simp [h.nonempty p hp]

/-- A round adds its unit to the last part, or begins a part with it. -/
theorem packStep_packed {s : Packing ρ} (h : IsPacked w chunker us s) (u : Unit ρ) :
    IsPacked w chunker (us ++ [u]) (packStep w nfkc chunker s u) := by
  right
  rcases h with ⟨rfl, rfl⟩ | ⟨done, p, hparts, hchunks, hcurrent⟩
  · -- the first unit begins the first part
    refine ⟨[], ⟨[], [u]⟩, ⟨rfl, by simp, by simp, List.isChain_singleton _⟩, ?_, ?_⟩
    · simp [packStep, Packing.start]
    · simp [packStep, Packing.start, Part.units]
  have hne : s.current ≠ [] := by
    rw [hcurrent]
    exact hparts.units_ne_nil (by simp)
  by_cases hflush : chunker.targetTokens < s.currentTokens + countTokens w u.text
  · have hstep : packStep w nfkc chunker s u =
        { chunks := s.chunks ++ [render s.current]
          current := carried w nfkc chunker s.current u ++ [u]
          currentTokens :=
            countTokens w (joined ((carried w nfkc chunker s.current u).map (·.text))) +
              countTokens w u.text } := if_pos ⟨hne, hflush⟩
    rw [hstep]
    refine ⟨done ++ [p], ⟨carried w nfkc chunker s.current u, [u]⟩, ?_, ?_, rfl⟩
    · refine hparts.begin ?_ u
      rw [hcurrent]
      exact carried_repeats p.units u
    · rw [List.map_append, hchunks, hcurrent]
      rfl
  · have hstep : packStep w nfkc chunker s u =
        { s with
          current := s.current ++ [u]
          currentTokens := s.currentTokens + countTokens w u.text } :=
      if_neg fun hcond => hflush hcond.2
    rw [hstep]
    refine ⟨done, ⟨p.repeated, p.fresh ++ [u]⟩, hparts.grow u, hchunks, ?_⟩
    show s.current ++ [u] = p.repeated ++ (p.fresh ++ [u])
    rw [hcurrent, ← List.append_assoc]
    rfl

/-- What a loop over the units keeps, given what each round keeps. -/
theorem run_packStep_inv {P : List (Unit ρ) → Packing ρ → Prop} (hstart : P [] (Packing.start ρ))
    (hstep : ∀ us s u, P us s → P (us ++ [u]) (packStep w nfkc chunker s u)) (us : List (Unit ρ)) :
    P us (run (packStep w nfkc chunker) (Packing.start ρ) us) := by
  induction us using List.reverseRecOn with
  | nil => exact hstart
  | append_singleton us u ih =>
    rw [run_append]
    exact hstep us _ u ih

theorem run_packed (us : List (Unit ρ)) :
    IsPacked w chunker us (run (packStep w nfkc chunker) (Packing.start ρ) us) :=
  @run_packStep_inv ρ w nfkc chunker (IsPacked w chunker) (Or.inl ⟨rfl, rfl⟩)
    (fun _ _ u h => packStep_packed h u) us

/-- The chunks are the parts, or all but the last one, which has the text of the one before. -/
theorem pack_parts (us : List (Unit ρ)) :
    ∃ parts, Partition w chunker.overlapTokens us parts ∧
      (pack w nfkc chunker us = parts.map Part.rendered ∨
        ∃ front previous last, parts = front ++ [previous, last] ∧
          last.rendered.text = previous.rendered.text ∧
          pack w nfkc chunker us = (front ++ [previous]).map Part.rendered) := by
  rcases @run_packed ρ w nfkc chunker us with ⟨rfl, hrun⟩ | ⟨done, p, hparts, hchunks, hcurrent⟩
  · refine ⟨[], ⟨rfl, by simp, by simp, List.isChain_nil⟩, Or.inl ?_⟩
    unfold pack
    rw [hrun]
    rfl
  refine ⟨done ++ [p], hparts, ?_⟩
  have hne : (run (packStep w nfkc chunker) (Packing.start ρ) us).current ≠ [] := by
    rw [hcurrent]
    exact hparts.units_ne_nil (by simp)
  unfold pack Packing.finish
  rw [hchunks, hcurrent] at *
  split
  next =>
    left
    rw [List.map_append]
    rfl
  next hsame =>
    right
    have hlast : (done.map Part.rendered).getLast?.map (·.text) = some p.rendered.text := by
      by_contra hdiff
      exact hsame ⟨hne, hdiff⟩
    rcases List.eq_nil_or_concat done with rfl | ⟨front, previous, rfl⟩
    · cases hlast
    · rw [List.concat_eq_append] at *
      rw [List.map_append, List.map_singleton, List.getLast?_concat] at hlast
      exact ⟨front, previous, p, by simp, (Option.some.inj hlast).symm, rfl⟩

/-! ## From the page to its chunks -/

/-- The units are the parts of the sentences of the paragraphs. -/
theorem paragraphUnits_texts {maxTokens : Nat} {page : List Char} {hasBlocks : Bool}
    {sectionName : Option (List Char)} {cursor : Nat} {raws : List (List Char × List ρ)}
    (h : paragraphUnits w nfkc maxTokens page hasBlocks sectionName cursor raws = .ok us) :
    us.map (·.text) =
      ((trimmedPieces (raws.map (·.1))).flatMap sentences).flatMap (splitOversized w maxTokens) := by
  induction raws generalizing sectionName cursor us with
  | nil =>
    obtain rfl := Except.ok.inj h
    rfl
  | cons raw raws ih =>
    obtain ⟨paragraph, regions⟩ := raw
    unfold paragraphUnits at h
    rw [List.map_cons, trimmedPieces_cons]
    by_cases hempty : stripped paragraph = []
    · rw [if_pos hempty] at h ⊢
      exact ih h
    · rw [if_neg hempty] at h ⊢
      obtain ⟨r, hr, h⟩ := bind_eq_ok.mp h
      obtain ⟨vs, hvs, rfl⟩ := map_eq_ok.mp h
      rw [List.flatMap_cons, List.flatMap_append, List.map_append, partUnits_texts hr, ih hvs]

/-- The words of the text `_units` reads: the page's, or those of its blocks. -/
def pageWords (w : WordClass) (page : ParsedPage ρ) : List (List Char) :=
  if page.blocks ≠ [] then page.blocks.flatMap fun block => words w block.text
  else words w page.text

theorem chunker_max_pos (chunker : DocumentChunker) : 1 ≤ chunker.maxTokens := by
  have hlt := chunker.overlap_lt
  have hle := chunker.target_le
  omega

/-- The units of a page have its words. -/
theorem units_words {page : ParsedPage ρ} (h : units w nfkc chunker page = .ok us) :
    unitWords w us = pageWords w page := by
  have htexts := paragraphUnits_texts h
  have hsplit : ∀ ps : List (List Char),
      ((ps.flatMap sentences).flatMap (splitOversized w chunker.maxTokens)).flatMap (words w) =
        ps.flatMap (words w) := by
    intro ps
    simp only [List.flatMap_assoc, (words_splitOversized (chunker_max_pos chunker) _).1,
      words_sentences]
  have hall : unitWords w us = (us.map (·.text)).flatMap (words w) := by
    rw [List.flatMap_map]
    rfl
  unfold pageWords
  by_cases hblocks : page.blocks ≠ []
  · rw [if_pos hblocks] at htexts ⊢
    rw [hall, htexts, hsplit, words_trimmedPieces, List.map_map, List.flatMap_map]
    rfl
  · rw [if_neg hblocks] at htexts ⊢
    rw [hall, htexts, hsplit, List.map_map]
    show (trimmedPieces ((reSplit paragraphBreak (stripped page.text)).map id)).flatMap (words w) = _
    rw [List.map_id]
    exact (words_cutsApart (cuts_paragraphs page.text)).symm

/-- A part is a chunk, or has the text of one. -/
theorem exists_chunk_of_part {parts : List (Part ρ)}
    (h : pack w nfkc chunker us = parts.map Part.rendered ∨
      ∃ front previous last, parts = front ++ [previous, last] ∧
        last.rendered.text = previous.rendered.text ∧
        pack w nfkc chunker us = (front ++ [previous]).map Part.rendered) (hp : p ∈ parts) :
    ∃ c ∈ pack w nfkc chunker us, c.text = p.rendered.text := by
  rcases h with hpack | ⟨front, previous, last, rfl, htext, hpack⟩
  · rw [hpack]
    exact ⟨p.rendered, List.mem_map_of_mem hp, rfl⟩
  · rw [hpack]
    simp only [List.mem_append, List.mem_cons, List.not_mem_nil, or_false] at hp
    rcases hp with hp | rfl | rfl
    · exact ⟨p.rendered, List.mem_map_of_mem (List.mem_append_left _ hp), rfl⟩
    · exact ⟨p.rendered, List.mem_map_of_mem (by simp), rfl⟩
    · exact ⟨previous.rendered, List.mem_map_of_mem (by simp), htext.symm⟩

/-- **Packing loses nothing.** The new units of the parts are the input in order, each part
repeats at most the end of the one before, and the chunks are the parts, but for a last one with
the text of the one before; so every word of a page is in one of its chunks. -/
theorem packing_keeps_all (w : WordClass) (nfkc : List Char → List Char)
    (chunker : DocumentChunker) (us : List (Unit ρ)) :
    (∃ parts, Partition w chunker.overlapTokens us parts ∧
      (pack w nfkc chunker us = parts.map Part.rendered ∨
        ∃ front previous last, parts = front ++ [previous, last] ∧
          last.rendered.text = previous.rendered.text ∧
          pack w nfkc chunker us = (front ++ [previous]).map Part.rendered)) ∧
    ∀ page, units w nfkc chunker page = .ok us → ∀ word ∈ pageWords w page,
      ∃ c ∈ pack w nfkc chunker us, word ∈ words w c.text := by
  obtain ⟨parts, hparts, hpack⟩ := @pack_parts ρ w nfkc chunker us
  refine ⟨⟨parts, hparts, hpack⟩, fun page hpage word hword => ?_⟩
  rw [← units_words hpage, unitWords, List.mem_flatMap] at hword
  obtain ⟨u, hu, hword⟩ := hword
  rw [← hparts.fresh, List.mem_flatten] at hu
  obtain ⟨fresh, hfresh, hu⟩ := hu
  obtain ⟨p, hp, rfl⟩ := List.mem_map.mp hfresh
  obtain ⟨c, hc, htext⟩ := exists_chunk_of_part hpack hp
  refine ⟨c, hc, ?_⟩
  -- the words of the chunk are those of the part's units
  rw [htext]
  show word ∈ words w (render p.units).text
  rw [words_render, unitWords, List.mem_flatMap]
  exact ⟨u, List.mem_append_right _ hu, hword⟩

/-- The page whose full stop is cut off. -/
theorem packing_keeps_all_pair :
    ∃ us, units asciiWord id pairChunker (textPage "a b.".toList) = .ok us ∧
      ∀ word ∈ pageWords asciiWord (textPage "a b.".toList),
        ∃ c ∈ pack asciiWord id pairChunker us, word ∈ words asciiWord c.text :=
  ⟨[⟨"a b".toList, none, [], some 0, some 3⟩, ⟨".".toList, none, [], some 3, some 4⟩], rfl,
    (packing_keeps_all asciiWord id pairChunker _).2 _ rfl⟩

end LocalRag.Chunking
