import LocalRag.Core.Find
import LocalRag.Core.Run
import LocalRag.Core.Utf16
import LocalRag.Highlight.Normalize
import Mathlib.Algebra.Ring.Int.Defs
import Mathlib.Data.List.Nodup

/-!
# Highlight anchors — what the server stores and what the client parses

Mirrors `text_quote_anchor` and `validate_highlight_anchor`
(`highlight_anchors.py`) for pages of kind `text_quote`, and the
`highlightAnchorSchema` of the web client (`contracts.ts`). Both bound the same
three strings by the same three numbers; Python's `len` counts characters, a
JavaScript string counts UTF-16 units.

The digest is a parameter: the anchor carries it and both sides check its form,
nothing else depends on it. The `isinstance` checks have no counterpart, since an
anchor here has its types.

- `textQuoteAnchor_ok`: a returned anchor read off the page: one page, the quotation,
  its digest, and up to 256 characters of context on each side of the match.
- `anchor_accepted_iff`: the client accepts it exactly if the page number is one of its
  integers and the three strings keep their bounds when counted in units.
-/

namespace LocalRag.Highlight

open LocalRag.Core

/-- `HIGHLIGHT_NORMALIZATION`. -/
def HIGHLIGHT_NORMALIZATION : String := "citation-highlight-v1"

/-- `MAX_CONTEXT_CHARACTERS`. -/
def MAX_CONTEXT_CHARACTERS : Nat := 256

/-- `MAX_EXACT_CHARACTERS`. -/
def MAX_EXACT_CHARACTERS : Nat := 16000

/-- The quotation and what stands around it. -/
structure Selector where
  exact : List Char
  prefix_ : List Char
  suffix : List Char
  sha256 : List Char
  deriving DecidableEq

/-- One page of an anchor, of kind `text_quote`. -/
structure QuotePage where
  page : Int
  selector : Selector
  deriving DecidableEq

structure HighlightAnchor where
  version : Nat
  normalization : String
  pages : List QuotePage
  deriving DecidableEq

/-- `s[i:j]`. -/
def slice (s : List Char) (i j : Nat) : List Char := (s.take j).drop i

/-- `_match_offsets`. -/
def matchOffsets (haystack needle : List Char) : List Nat :=
  offsetsFrom needle haystack (haystack.length + 1) 0

/-- `[0-9a-f]{64}`, the whole string. -/
def isDigest (digest : List Char) : Bool :=
  digest.length = 64 ∧ digest.all fun c => c ∈ "0123456789abcdef".toList

/-! ## The server -/

/-- `_validate_text_quote`. -/
def validateTextQuote (sha256 : List Char → List Char) (selector : Selector) :
    Except String Unit :=
  if selector.exact = [] ∨ MAX_EXACT_CHARACTERS < selector.exact.length ∨
      MAX_CONTEXT_CHARACTERS < selector.prefix_.length ∨
      MAX_CONTEXT_CHARACTERS < selector.suffix.length ∨
      isDigest selector.sha256 = false ∨ sha256 selector.exact ≠ selector.sha256 then
    .error "invalid text quote values"
  else .ok ()

/-- The loop of `validate_highlight_anchor`, with the page numbers seen so far. -/
def validatePages (sha256 : List Char → List Char) (pageStart pageEnd : Int) :
    List Int → List QuotePage → Except String Unit
  | _, [] => .ok ()
  | seen, value :: pages =>
    if value.page < pageStart ∨ pageEnd < value.page ∨ value.page ∈ seen then
      .error "invalid or duplicate highlight page"
    else
      (validateTextQuote sha256 value.selector).bind fun _ =>
        validatePages sha256 pageStart pageEnd (value.page :: seen) pages

/-- `validate_highlight_anchor`. -/
def validateHighlightAnchor (sha256 : List Char → List Char) (anchor : HighlightAnchor)
    (pageStart pageEnd : Int) : Except String Unit :=
  if anchor.version ≠ 1 then .error "unsupported highlight anchor version"
  else if anchor.normalization ≠ HIGHLIGHT_NORMALIZATION then
    .error "unsupported highlight normalization"
  else if anchor.pages = [] then .error "highlight anchor requires pages"
  else validatePages sha256 pageStart pageEnd [] anchor.pages

/-- Where the quotation is taken to stand: the only match, or the hinted one. -/
def quoteStart (found : List Nat) : Option Int → Except String Nat
  | none =>
    match found with
    | [start] => .ok start
    | _ => .error "digital chunk does not resolve to one authoritative page range"
  | some hint =>
    if hint ∈ found.map Int.ofNat then .ok hint.toNat
    else .error "digital chunk offset does not match authoritative page text"

/-- The selector of a match: the quotation, its digest and the context. -/
def selectorAt (sha256 : List Char → List Char) (normalizedPage exact : List Char)
    (start : Nat) : Selector where
  exact := exact
  prefix_ := slice normalizedPage (start - MAX_CONTEXT_CHARACTERS) start
  suffix := slice normalizedPage (start + exact.length)
    (start + exact.length + MAX_CONTEXT_CHARACTERS)
  sha256 := sha256 exact

/-- The context of the selector stands around this match too. -/
def contextHolds (normalizedPage : List Char) (selector : Selector) (offset : Nat) : Bool :=
  selector.prefix_ <:+ slice normalizedPage (offset - selector.prefix_.length) offset ∧
    selector.suffix <+: slice normalizedPage (offset + selector.exact.length)
      (offset + selector.exact.length + selector.suffix.length)

/-- `text_quote_anchor`. -/
def textQuoteAnchor (nfkc sha256 : List Char → List Char) (page : Int)
    (pageText chunkText : List Char) (startHint : Option Int) : Except String HighlightAnchor :=
  let normalizedPage := normalizeHighlightText nfkc pageText
  let exact := normalizeHighlightText nfkc chunkText
  if exact = [] ∨ MAX_EXACT_CHARACTERS < exact.length then
    .error "digital highlight text is empty or too large"
  else
    (quoteStart (matchOffsets normalizedPage exact) startHint).bind fun start =>
      let selector := selectorAt sha256 normalizedPage exact start
      if (matchOffsets normalizedPage exact).filter (contextHolds normalizedPage selector)
          ≠ [start] then
        .error "digital selector context is not unique"
      else
        let anchor : HighlightAnchor := ⟨1, HIGHLIGHT_NORMALIZATION, [⟨page, selector⟩]⟩
        (validateHighlightAnchor sha256 anchor page page).map fun _ => anchor

/-! ## The client -/

/-- `Number.MAX_SAFE_INTEGER`, the last integer the schema's `int()` lets through. -/
def MAX_SAFE_INTEGER : Int := 2 ^ 53 - 1

/-- `textQuotePageSchema`; string lengths are in UTF-16 units. -/
def textQuotePageSchema (value : QuotePage) : Bool :=
  (0 < value.page ∧ value.page ≤ MAX_SAFE_INTEGER) ∧
    (1 ≤ (utf16 value.selector.exact).length ∧ (utf16 value.selector.exact).length ≤ 16000) ∧
    (utf16 value.selector.prefix_).length ≤ 256 ∧ (utf16 value.selector.suffix).length ≤ 256 ∧
    isDigest value.selector.sha256 = true

/-- `highlightAnchorSchema`. -/
def highlightAnchorSchema (anchor : HighlightAnchor) : Bool :=
  anchor.version = 1 ∧ anchor.normalization = "citation-highlight-v1" ∧
    (1 ≤ anchor.pages.length ∧ anchor.pages.length ≤ 32) ∧
    (∀ value ∈ anchor.pages, textQuotePageSchema value = true) ∧
    (anchor.pages.map (·.page)).Nodup

/-! ## What a returned anchor is -/

theorem mem_matchOffsets {haystack needle : List Char} {k : Nat} :
    k ∈ matchOffsets haystack needle ↔ OccursAt needle haystack k := by
  unfold matchOffsets
  rw [mem_offsetsFrom (by omega)]
  simp

/-- The start of the quotation is a match, the hinted one where there is a hint
and the only one where there is none. -/
theorem quoteStart_ok {found : List Nat} {startHint : Option Int} {start : Nat}
    (h : quoteStart found startHint = .ok start) :
    start ∈ found ∧ (∀ hint, startHint = some hint → hint = start) ∧
      (startHint = none → ∀ k ∈ found, k = start) := by
  cases startHint with
  | none =>
    simp only [quoteStart] at h
    split at h
    next only =>
      obtain rfl : only = start := Except.ok.inj h
      exact ⟨by simp, by simp, by simp⟩
    next => exact absurd h (by simp)
  | some hint =>
    simp only [quoteStart] at h
    split at h
    next hmem =>
      obtain rfl : hint.toNat = start := Except.ok.inj h
      obtain ⟨k, hk, rfl⟩ := List.mem_map.mp hmem
      exact ⟨hk, by simp, by simp⟩
    next => exact absurd h (by simp)

/-- The text before a match, its last 256 characters. -/
theorem slice_before (before exact after : List Char) :
    slice (before ++ exact ++ after) (before.length - MAX_CONTEXT_CHARACTERS) before.length
      = before.drop (before.length - MAX_CONTEXT_CHARACTERS) := by
  unfold slice
  rw [List.append_assoc, List.take_left]

/-- The text after a match, its first 256 characters. -/
theorem slice_after (before exact after : List Char) :
    slice (before ++ exact ++ after) (before.length + exact.length)
      (before.length + exact.length + MAX_CONTEXT_CHARACTERS)
      = after.take MAX_CONTEXT_CHARACTERS := by
  unfold slice
  rw [List.take_add, ← List.length_append, List.drop_left, List.take_left, List.drop_left]

section Returned

variable {nfkc sha256 : List Char → List Char} {page : Int} {pageText chunkText : List Char}
  {startHint : Option Int} {anchor : HighlightAnchor}

/-- A returned anchor: the quotation is not empty and not too long, its digest has
the form of one, and the selector is the one of the match, found nowhere else. -/
theorem textQuoteAnchor_ok
    (h : textQuoteAnchor nfkc sha256 page pageText chunkText startHint = .ok anchor) :
    ∃ start, quoteStart (matchOffsets (normalizeHighlightText nfkc pageText)
        (normalizeHighlightText nfkc chunkText)) startHint = .ok start ∧
      normalizeHighlightText nfkc chunkText ≠ [] ∧
      isDigest (sha256 (normalizeHighlightText nfkc chunkText)) = true ∧
      (matchOffsets (normalizeHighlightText nfkc pageText)
        (normalizeHighlightText nfkc chunkText)).filter
          (contextHolds (normalizeHighlightText nfkc pageText) (selectorAt sha256
            (normalizeHighlightText nfkc pageText) (normalizeHighlightText nfkc chunkText) start)) =
        [start] ∧
      anchor = ⟨1, HIGHLIGHT_NORMALIZATION, [⟨page, selectorAt sha256
        (normalizeHighlightText nfkc pageText) (normalizeHighlightText nfkc chunkText)
        start⟩]⟩ := by
  unfold textQuoteAnchor at h
  obtain ⟨hexact, h⟩ := ite_error_eq_ok.mp h
  cases hstart : quoteStart (matchOffsets (normalizeHighlightText nfkc pageText)
      (normalizeHighlightText nfkc chunkText)) startHint with
  | error e =>
    rw [hstart] at h
    exact absurd h (by simp [Except.bind])
  | ok start =>
    rw [hstart] at h
    obtain ⟨hresolved, h⟩ := ite_error_eq_ok.mp h
    refine ⟨start, rfl, fun hnil => hexact (Or.inl hnil), ?_, not_not.mp hresolved, ?_⟩
    · -- the last check was made on the digest the anchor carries
      by_contra hdigest
      have hbad : validateTextQuote sha256 (selectorAt sha256
          (normalizeHighlightText nfkc pageText) (normalizeHighlightText nfkc chunkText) start)
          = .error "invalid text quote values" := by
        unfold validateTextQuote
        rw [if_pos (by simp [selectorAt, hdigest])]
      simp [validateHighlightAnchor, validatePages, hbad, Except.bind, Except.map] at h
    · cases hvalid : validateHighlightAnchor sha256 ⟨1, HIGHLIGHT_NORMALIZATION, [⟨page,
          selectorAt sha256 (normalizeHighlightText nfkc pageText)
            (normalizeHighlightText nfkc chunkText) start⟩]⟩ page page with
      | error e =>
        rw [hvalid] at h
        exact absurd h (by simp [Except.map])
      | ok u =>
        rw [hvalid] at h
        exact (Except.ok.inj h).symm

/-- What the schema asks of an anchor with one page. -/
theorem highlightAnchorSchema_single {value : QuotePage} :
    highlightAnchorSchema ⟨1, HIGHLIGHT_NORMALIZATION, [value]⟩ = textQuotePageSchema value := by
  simp [highlightAnchorSchema, HIGHLIGHT_NORMALIZATION]

theorem anchor_accepted_iff
    (h : textQuoteAnchor nfkc sha256 page pageText chunkText startHint = .ok anchor)
    {before after : List Char}
    (hsplit : normalizeHighlightText nfkc pageText
      = before ++ normalizeHighlightText nfkc chunkText ++ after)
    (hhint : ∀ hint, startHint = some hint → hint = before.length) :
    highlightAnchorSchema anchor = true ↔
      (1 ≤ page ∧ page ≤ MAX_SAFE_INTEGER) ∧
        (utf16 (normalizeHighlightText nfkc chunkText)).length ≤ 16000 ∧
        (utf16 (before.drop (before.length - MAX_CONTEXT_CHARACTERS))).length ≤ 256 ∧
        (utf16 (after.take MAX_CONTEXT_CHARACTERS)).length ≤ 256 := by
  obtain ⟨start, hstart, hne, hdigest, -, rfl⟩ := textQuoteAnchor_ok h
  have hbefore : before.length = start := by
    obtain ⟨-, hhinted, honly⟩ := quoteStart_ok hstart
    cases startHint with
    | none =>
      apply honly rfl
      rw [mem_matchOffsets, hsplit]
      exact occursAt_append before _ after
    | some hint =>
      have h1 := hhint hint rfl
      have h2 := hhinted hint rfl
      omega
  subst hbefore
  have hpos : 1 ≤ (utf16 (normalizeHighlightText nfkc chunkText)).length := by
    have := length_le_utf16 (normalizeHighlightText nfkc chunkText)
    have := List.length_pos_of_ne_nil hne
    omega
  rw [highlightAnchorSchema_single]
  unfold textQuotePageSchema selectorAt
  rw [hsplit, slice_before, slice_after]
  simp only [decide_eq_true_eq, hdigest, hpos, true_and, and_true]
  constructor
  · rintro ⟨hpage, hrest⟩
    exact ⟨⟨by omega, hpage.2⟩, hrest⟩
  · rintro ⟨hpage, hrest⟩
    exact ⟨⟨by omega, hpage.2⟩, hrest⟩

end Returned

/-- The digest of `"b"`. -/
def digestOfB : List Char :=
  "3e23e8160039594a33894f6564e1b1348bbd7a0088d42c4acb73eeaed59c009d".toList

/-- The anchor of `"b"` on the page `"a b c"`. -/
def anchorOfB : HighlightAnchor :=
  ⟨1, HIGHLIGHT_NORMALIZATION, [⟨1, ⟨['b'], ['a', ' '], [' ', 'c'], digestOfB⟩⟩]⟩

theorem anchor_accepted_iff_anchorOfB : highlightAnchorSchema anchorOfB = true :=
  (@anchor_accepted_iff id (fun _ => digestOfB) 1 ['a', ' ', 'b', ' ', 'c'] ['b'] none anchorOfB
    (by decide +kernel) ['a', ' '] [' ', 'c'] (by decide) (by simp)).mpr (by decide)

/-- One astral character among the 256 before the quotation: the prefix is 257 units
long, and the client rejects the anchor. -/
theorem anchor_accepted_iff_astral :
    (textQuoteAnchor id (fun _ => digestOfB) 1
        (Char.ofNat 0x1f600 :: (List.replicate 255 'a' ++ ['b'])) ['b'] none).toOption.map
      highlightAnchorSchema = some false := by
  decide +kernel

end LocalRag.Highlight
