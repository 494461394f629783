import LocalRag.Highlight.Quote

/-!
# One place — why a stored quotation is found again

`text_quote_anchor` only returns a selector that its own search finds once, and the
search is the client's: all occurrences, overlapping ones too, whose context begins
and ends with the selector's. The client counts in UTF-16 units and the server in
characters; `mem_candidates` has already translated the one into the other, so what
is left is that the two searches look for the same thing.

- `textQuoteAnchor_found`: what a returned anchor resolves to.
- `textQuoteAnchor_refused`: what an error stands for.

Context is compared at the selector's own lengths, which are less than 256 characters
at a border of the page. A quotation there may be refused although no other occurrence
has the same 256 characters on each side (`refused_with_other_contexts`).
-/

namespace LocalRag.Highlight

open LocalRag.Core

/-! ## The two searches -/

/-- The candidates come in order, each once. -/
theorem candidatesFrom_sorted (text : List Nat) (selector : Selector) (fuel start : Nat) :
    (candidatesFrom text selector fuel start).Pairwise (· < ·) ∧
      ∀ k ∈ candidatesFrom text selector fuel start, start ≤ k := by
  induction fuel generalizing start with
  | zero => exact ⟨List.Pairwise.nil, fun k hk => absurd hk (by simp [candidatesFrom])⟩
  | succ fuel ih =>
    unfold candidatesFrom
    by_cases hroom : start + (utf16 selector.exact).length ≤ text.length
    · rw [if_pos hroom]
      cases hf : findFrom (utf16 selector.exact) text start with
      | none => exact ⟨List.Pairwise.nil, fun k hk => absurd hk (by simp)⟩
      | some found =>
        have hsf := (findFrom_eq_some.mp hf).1
        obtain ⟨hsorted, hge⟩ := ih (found + 1)
        dsimp only
        by_cases hctx : contextMatches text selector found = true
        · rw [if_pos hctx, List.singleton_append]
          refine ⟨List.pairwise_cons.mpr ⟨fun k hk => ?_, hsorted⟩, fun k hk => ?_⟩
          · have := hge k hk
            omega
          · rcases List.mem_cons.mp hk with rfl | hk
            · exact hsf
            · have := hge k hk
              omega
        · rw [if_neg hctx, List.nil_append]
          refine ⟨hsorted, fun k hk => ?_⟩
          have := hge k hk
          omega
    · rw [if_neg hroom]
      exact ⟨List.Pairwise.nil, fun k hk => absurd hk (by simp)⟩

/-- A list in order with one number in it. -/
theorem eq_singleton_of_sorted {xs : List Nat} {a : Nat} (h : xs.Pairwise (· < ·))
    (hmem : ∀ k, k ∈ xs ↔ k = a) : xs = [a] := by
  cases xs with
  | nil => exact absurd ((hmem a).mpr rfl) (by simp)
  | cons x rest =>
    obtain rfl : x = a := (hmem x).mp (by simp)
    cases rest with
    | nil => rfl
    | cons y rest =>
      have hlt := (List.pairwise_cons.mp h).1 y (by simp)
      have heq := (hmem y).mp (by simp)
      omega

variable {selector : Selector}

/-- The server's context check is the one of `MatchAt`. -/
theorem contextHolds_iff (before after : List Char) :
    contextHolds (before ++ selector.exact ++ after) selector before.length = true ↔
      selector.prefix_ <:+ before ∧ selector.suffix <+: after := by
  unfold contextHolds slice
  rw [decide_eq_true_eq, ← List.length_append, List.take_add, List.take_left, List.drop_left,
    List.drop_left, List.append_assoc, List.take_left, suffix_drop_iff, prefix_take_iff]

variable {page : List Char}

/-- The offsets the server's last check collects. -/
theorem mem_resolved {k : Nat} :
    k ∈ (matchOffsets page selector.exact).filter (contextHolds page selector) ↔
      ∃ before after, MatchAt page selector before after ∧ before.length = k := by
  rw [List.mem_filter, mem_matchOffsets]
  constructor
  · rintro ⟨⟨before, after, hsplit, rfl⟩, hctx⟩
    rw [hsplit] at hctx
    obtain ⟨hfront, hback⟩ := (contextHolds_iff before after).mp hctx
    exact ⟨before, after, ⟨hsplit, hfront, hback⟩, rfl⟩
  · rintro ⟨before, after, ⟨hsplit, hfront, hback⟩, rfl⟩
    rw [hsplit]
    exact ⟨occursAt_append _ _ _, (contextHolds_iff before after).mpr ⟨hfront, hback⟩⟩

theorem MatchAt.isPrefix {before after : List Char} (h : MatchAt page selector before after) :
    before <+: page := by
  rw [h.1, List.append_assoc]
  exact List.prefix_append _ _

/-- Where the server finds one place, the client finds it. -/
theorem candidates_eq {page : List Char} {selector : Selector} (hexact : selector.exact ≠ [])
    {start : Nat}
    (h : (matchOffsets page selector.exact).filter (contextHolds page selector) = [start]) :
    ∃ before after, MatchAt page selector before after ∧ before.length = start ∧
      candidatesFrom (utf16 page) selector ((utf16 page).length + 1) 0 =
        [(utf16 before).length] := by
  have honly : ∀ k, (∃ before after, MatchAt page selector before after ∧ before.length = k) ↔
      k = start := by
    intro k
    rw [← mem_resolved, h, List.mem_singleton]
  obtain ⟨before, after, hmatch, hlen⟩ := (honly start).mpr rfl
  refine ⟨before, after, hmatch, hlen, ?_⟩
  refine eq_singleton_of_sorted (candidatesFrom_sorted _ _ _ _).1 fun k => ?_
  rw [mem_candidates hexact]
  constructor
  · rintro ⟨b, a, hba, rfl⟩
    have hb : b.length = start := (honly _).mp ⟨b, a, hba, rfl⟩
    -- two starts of one page of one length
    have heq : b = before :=
      (List.prefix_of_prefix_length_le hba.isPrefix hmatch.isPrefix (by omega)).eq_of_length
        (by omega)
    rw [heq]
  · rintro rfl
    exact ⟨before, after, hmatch, rfl⟩

/-! ## Answers -/

section Answers

variable {nfkc sha256 : List Char → List Char} {number : Int} {pageText chunkText : List Char}
  {startHint : Option Int}

/-- Why a quotation is refused. -/
inductive Refused (sha256 : List Char → List Char) (page exact : List Char) :
    Option Int → Prop where
  | empty {hint : Option Int} (h : exact = []) : Refused sha256 page exact hint
  | tooLarge {hint : Option Int} (h : MAX_EXACT_CHARACTERS < exact.length) :
      Refused sha256 page exact hint
  /-- Without a hint it has to occur exactly once. -/
  | notOnce (h : ∀ k, OccursAt exact page k → ∃ j, OccursAt exact page j ∧ j ≠ k) :
      Refused sha256 page exact none
  | notAtHint {hint : Int} (h : ∀ k : Nat, OccursAt exact page k → hint ≠ k) :
      Refused sha256 page exact (some hint)
  /-- Its own context stands around another occurrence as well. -/
  | ambiguous {hint : Option Int} {before after b a : List Char}
      (split : page = before ++ exact ++ after) (hinted : ∀ h, hint = some h → h = before.length)
      (other : MatchAt page (selectorAt sha256 page exact before.length) b a) (ne : b ≠ before) :
      Refused sha256 page exact hint

variable {exact : List Char}

theorem quoteStart_error {e : String}
    (h : quoteStart (matchOffsets page exact) startHint = .error e) :
    Refused sha256 page exact startHint := by
  cases startHint with
  | some hint =>
    refine .notAtHint fun k hk heq => ?_
    have hmem : hint ∈ (matchOffsets page exact).map Int.ofNat :=
      List.mem_map.mpr ⟨k, mem_matchOffsets.mpr hk, heq.symm⟩
    simp only [quoteStart, if_pos hmem] at h
    cases h
  | none =>
    refine .notOnce fun k hk => ?_
    by_contra honly
    have hsorted : (matchOffsets page exact).Pairwise (· < ·) := (offsetsFrom_sorted _ _ _ _).1
    have hone : matchOffsets page exact = [k] := by
      refine eq_singleton_of_sorted hsorted fun j => ?_
      rw [mem_matchOffsets]
      constructor
      · intro hj
        by_contra hne
        exact honly ⟨j, hj, hne⟩
      · rintro rfl
        exact hk
    simp only [quoteStart, hone] at h
    cases h

/-- The place was found, and its context is not the only one of its kind. -/
theorem refused_of_resolved {start : Nat}
    (hstart : quoteStart (matchOffsets page exact) startHint = .ok start)
    (h : (matchOffsets page exact).filter (contextHolds page (selectorAt sha256 page exact start)) ≠
      [start]) : Refused sha256 page exact startHint := by
  obtain ⟨hfound, hhinted, -⟩ := quoteStart_ok hstart
  obtain ⟨before, after, hsplit, rfl⟩ := mem_matchOffsets.mp hfound
  -- the place itself passes its own context check
  have hself : MatchAt page (selectorAt sha256 page exact before.length) before after := by
    refine ⟨hsplit, ?_, ?_⟩
    · simp only [selectorAt, hsplit, slice_before]
      exact List.drop_suffix _ _
    · simp only [selectorAt, hsplit, slice_after]
      exact List.take_prefix _ _
  have hother : ∃ b a, MatchAt page (selectorAt sha256 page exact before.length) b a ∧
      b ≠ before := by
    by_contra honly
    apply h
    have hsorted : (matchOffsets page exact).Pairwise (· < ·) := (offsetsFrom_sorted _ _ _ _).1
    refine eq_singleton_of_sorted (hsorted.filter _) fun k => ?_
    refine Iff.trans (show _ ↔ ∃ b a, MatchAt page (selectorAt sha256 page exact before.length) b a ∧
      b.length = k from mem_resolved) ?_
    constructor
    · rintro ⟨b, a, hba, rfl⟩
      by_contra hne
      exact honly ⟨b, a, hba, fun heq => hne (by rw [heq])⟩
    · rintro rfl
      exact ⟨before, after, hself, rfl⟩
  obtain ⟨b, a, hba, hne⟩ := hother
  exact .ambiguous hsplit (fun hint hhint => hhinted hint hhint) hba hne

/-- The digest and the lengths of a selector that was just built pass. -/
theorem validate_selectorAt (hdigest : ∀ t, isDigest (sha256 t) = true)
    (hexact : ¬ (exact = [] ∨ MAX_EXACT_CHARACTERS < exact.length)) (start : Nat) :
    validateHighlightAnchor sha256
      ⟨1, HIGHLIGHT_NORMALIZATION, [⟨number, selectorAt sha256 page exact start⟩]⟩ number number =
        .ok () := by
  have hprefix : ¬ MAX_CONTEXT_CHARACTERS < (selectorAt sha256 page exact start).prefix_.length := by
    simp only [selectorAt, slice, List.length_drop, List.length_take]
    omega
  have hsuffix : ¬ MAX_CONTEXT_CHARACTERS < (selectorAt sha256 page exact start).suffix.length := by
    simp only [selectorAt, slice, List.length_drop, List.length_take]
    omega
  have hquote : validateTextQuote sha256 (selectorAt sha256 page exact start) = .ok () := by
    unfold validateTextQuote
    rw [if_neg]
    intro hbad
    rcases hbad with hnil | hlong | hlong | hlong | hbad | hbad
    · exact hexact (Or.inl hnil)
    · exact hexact (Or.inr hlong)
    · exact hprefix hlong
    · exact hsuffix hlong
    · exact absurd (hdigest exact) (by simpa [selectorAt] using hbad)
    · exact hbad rfl
  simp [validateHighlightAnchor, validatePages, hquote, Except.bind]

/-- **A selector that is returned resolves to one place**, the hinted one where there was a hint;
and an error stands for one of the five reasons. -/
theorem textQuoteAnchor_resolves (hdigest : ∀ t, isDigest (sha256 t) = true) :
    (∀ anchor, textQuoteAnchor nfkc sha256 number pageText chunkText startHint = .ok anchor →
      ∃ selector before after, anchor.pages = [⟨number, selector⟩] ∧
        selector.exact = normalizeHighlightText nfkc chunkText ∧
        MatchAt (normalizeHighlightText nfkc pageText) selector before after ∧
        candidatesFrom (utf16 (normalizeHighlightText nfkc pageText)) selector
          ((utf16 (normalizeHighlightText nfkc pageText)).length + 1) 0 =
            [(utf16 before).length] ∧
        ∀ hint, startHint = some hint → hint = before.length) ∧
    (∀ e, textQuoteAnchor nfkc sha256 number pageText chunkText startHint = .error e →
      Refused sha256 (normalizeHighlightText nfkc pageText)
        (normalizeHighlightText nfkc chunkText) startHint) := by
  constructor
  · intro anchor h
    obtain ⟨start, hstart, hne, -, hresolved, rfl⟩ := textQuoteAnchor_ok h
    obtain ⟨before, after, hmatch, hlen, hcandidates⟩ :=
      @candidates_eq _ (selectorAt sha256 (normalizeHighlightText nfkc pageText)
        (normalizeHighlightText nfkc chunkText) start) hne start hresolved
    refine ⟨_, before, after, rfl, rfl, hmatch, hcandidates, fun hint hhint => ?_⟩
    have hhinted := (quoteStart_ok hstart).2.1 hint hhint
    omega
  · intro e h
    by_cases hexact : normalizeHighlightText nfkc chunkText = [] ∨
        MAX_EXACT_CHARACTERS < (normalizeHighlightText nfkc chunkText).length
    · rcases hexact with hnil | hlong
      · exact .empty hnil
      · exact .tooLarge hlong
    unfold textQuoteAnchor at h
    dsimp only at h
    rw [if_neg hexact] at h
    cases hstart : quoteStart (matchOffsets (normalizeHighlightText nfkc pageText)
        (normalizeHighlightText nfkc chunkText)) startHint with
    | error e' => exact quoteStart_error hstart
    | ok start =>
      rw [hstart] at h
      simp only [Except.bind] at h
      split at h
      next hresolved => exact refused_of_resolved hstart hresolved
      next =>
        rw [validate_selectorAt hdigest hexact] at h
        cases h

end Answers

/-- The anchor of the second `"a"` on the page `"a b a"`. -/
def anchorOfSecond : HighlightAnchor :=
  ⟨1, HIGHLIGHT_NORMALIZATION, [⟨1, ⟨['a'], ['a', ' ', 'b', ' '], [], digestOfB⟩⟩]⟩

/-- The hinted one of two occurrences: the client finds it at its offset. -/
theorem textQuoteAnchor_resolves_second :
    ∃ selector ∈ anchorOfSecond.pages.map (·.selector),
      candidatesFrom (utf16 ['a', ' ', 'b', ' ', 'a']) selector 6 0 = [4] := by
  have hresolves := (@textQuoteAnchor_resolves id (fun _ => digestOfB) 1 ['a', ' ', 'b', ' ', 'a']
    ['a'] (some 4) fun _ => by decide).1 anchorOfSecond (by decide +kernel)
  obtain ⟨selector, before, after, hpages, -, hmatch, hcandidates, hhint⟩ := hresolves
  have hpage : normalizeHighlightText id ['a', ' ', 'b', ' ', 'a'] = ['a', ' ', 'b', ' ', 'a'] := by
    decide
  rw [hpage] at hmatch hcandidates
  have hlen : before.length = 4 := by
    have h4 := hhint 4 rfl
    omega
  have hbefore : before = ['a', ' ', 'b', ' '] := by
    rw [List.prefix_iff_eq_take.mp hmatch.isPrefix, hlen]
    rfl
  refine ⟨selector, by rw [hpages]; simp, ?_⟩
  rw [hbefore] at hcandidates
  exact hcandidates

/-- The 256 characters on each side of an occurrence, or as many as there are. -/
def clippedContext (page exact : List Char) (k : Nat) : List Char × List Char :=
  (slice page (k - MAX_CONTEXT_CHARACTERS) k,
    slice page (k + exact.length) (k + exact.length + MAX_CONTEXT_CHARACTERS))

/-- Two occurrences whose contexts differ are refused without a hint; with one, the first of
many is, though no other has its context: what stands before it is nothing, and everything
ends with that. -/
theorem refused_with_other_contexts :
    (textQuoteAnchor id (fun _ => digestOfB) 1 ['a', ' ', 'b', ' ', 'a'] ['a'] none =
        .error "digital chunk does not resolve to one authoritative page range" ∧
      ∀ j ∈ matchOffsets ['a', ' ', 'b', ' ', 'a'] ['a'],
        ∀ k ∈ matchOffsets ['a', ' ', 'b', ' ', 'a'] ['a'],
          clippedContext ['a', ' ', 'b', ' ', 'a'] ['a'] j =
            clippedContext ['a', ' ', 'b', ' ', 'a'] ['a'] k → j = k) ∧
    textQuoteAnchor id (fun _ => digestOfB) 1 (List.replicate 300 'a') ['a'] (some 0) =
        .error "digital selector context is not unique" ∧
      0 ∈ matchOffsets (List.replicate 300 'a') ['a'] ∧
      ∀ k ∈ matchOffsets (List.replicate 300 'a') ['a'],
        clippedContext (List.replicate 300 'a') ['a'] k =
          clippedContext (List.replicate 300 'a') ['a'] 0 → k = 0 := by
  refine ⟨⟨by decide +kernel, by decide +kernel⟩, by decide +kernel, by decide +kernel,
    by decide +kernel⟩

end LocalRag.Highlight
