import LocalRag.Highlight.Anchor
import LocalRag.Highlight.Spans

/-!
# Resolving a quotation — from the stored text back to the items of a PDF page

Mirrors `mappedNormalizedStream` and `resolveTextQuote` (`pdf-highlight.ts`). The
page is a list of text items; each is cut into clusters (a character and its
marks), every cluster is normalised on its own, and the characters keep the
cluster they came from. White space is collapsed by the scan of `Core.Squeeze`: the
blank of a run comes from the run's last space.

The text is then a JavaScript string and the match an offset in its units, but
the map has one entry a character. `resolveTextQuote_covers` says when slicing the
one with the offsets of the other is harmless.

Parameters: NFKC, the property `Mark`, and the part of `needsSeparator` that
compares positions on the page (`apart`). The map of item indices is taken
literally, with `-1` for a separator.
-/

namespace LocalRag.Highlight

open LocalRag.Core

/-- One item of a page's text: its string, whether it ends a line, and where on the
page it stands. -/
structure TextItem (γ : Type*) where
  str : List Char
  hasEOL : Bool
  geometry : γ

/-- A normalised character and its cluster. -/
structure Entry where
  value : Char
  origin : MappedCharacter
  deriving DecidableEq

section Stream

variable {γ : Type*} (nfkc : List Char → List Char) (isMark : Char → Bool) (apart : γ → γ → Bool)

/-- `needsSeparator`. -/
def needsSeparator (previous current : TextItem γ) : Bool :=
  previous.hasEOL || (previous.str.getLast?.any isJsSpace) || (current.str.head?.any isJsSpace) ||
    apart previous.geometry current.geometry

/-- The matches of `/\P{Mark}\p{Mark}*|\p{Mark}+/gu`: marks belong to what is before
them. -/
def clusters : List Char → List (List Char)
  | [] => []
  | c :: cs =>
    match clusters cs with
    | [] => [[c]]
    | cluster :: rest =>
      if cluster.head?.any isMark then (c :: cluster) :: rest else [c] :: cluster :: rest

/-- The characters of one cluster, found at `characterIndex` of its item. -/
def clusterEntries (itemIndex : Nat) (characterIndex : Nat) (cluster : List Char) : List Entry :=
  (bare nfkc cluster).map fun normalized =>
    ⟨normalized, ⟨itemIndex, characterIndex, characterIndex + (utf16 cluster).length⟩⟩

/-- The clusters of an item in turn, their indices in units of its string. -/
def itemEntries (itemIndex : Nat) : Nat → List (List Char) → List Entry
  | _, [] => []
  | characterIndex, cluster :: rest =>
    clusterEntries nfkc itemIndex characterIndex cluster ++
      itemEntries itemIndex (characterIndex + (utf16 cluster).length) rest

/-- The separator pushed between two items. -/
def separatorEntry : Entry := ⟨' ', ⟨-1, 0, 0⟩⟩

/-- The raw entries: the items in turn, the one before carried along. -/
def rawEntries : Nat → Option (TextItem γ) → List (TextItem γ) → List Entry
  | _, _, [] => []
  | itemIndex, previous, item :: items =>
    (if previous.any fun p => needsSeparator apart p item then [separatorEntry] else []) ++
      itemEntries nfkc itemIndex 0 (clusters isMark item.str) ++
      rawEntries (itemIndex + 1) (some item) items

/-- `mappedNormalizedStream`: the text and its map, one entry a character. -/
def mappedNormalizedStream (items : List (TextItem γ)) : List Entry :=
  squeezeFrom (fun entry => isJsSpace entry.value) (fun pending => { pending with value := ' ' })
    .before (rawEntries nfkc isMark apart 0 none items)

end Stream

/-! ## The lookup -/

/-- `s.slice(i, j)` of a JavaScript string. -/
def sliceUnits (s : List Nat) (i j : Nat) : List Nat := (s.take j).drop i

/-- The context of the selector stands around this match. -/
def contextMatches (text : List Nat) (selector : Selector) (found : Nat) : Bool :=
  utf16 selector.prefix_ <:+
      sliceUnits text (found - (utf16 selector.prefix_).length) found ∧
    utf16 selector.suffix <+: sliceUnits text (found + (utf16 selector.exact).length)
      (found + (utf16 selector.exact).length + (utf16 selector.suffix).length)

/-- The loop that collects the candidates, one round per position at most. -/
def candidatesFrom (text : List Nat) (selector : Selector) : Nat → Nat → List Nat
  | 0, _ => []
  | fuel + 1, offset =>
    if offset + (utf16 selector.exact).length ≤ text.length then
      match findFrom (utf16 selector.exact) text offset with
      | none => []
      | some found =>
        (if contextMatches text selector found then [found] else []) ++
          candidatesFrom text selector fuel (found + 1)
    else []

/-- The map entries from `i` to `j`. -/
def windowOf (stream : List Entry) (i n : Nat) : List MappedCharacter :=
  ((stream.drop i).take n).map (·.origin)

/-- `resolveTextQuote`, on the stream of the items. -/
def resolveIn (stream : List Entry) (selector : Selector) : Option (List TextItemSpan) :=
  let text := utf16 (stream.map (·.value))
  match candidatesFrom text selector (text.length + 1) 0 with
  | [candidate] => some (spansOf (windowOf stream candidate (utf16 selector.exact).length))
  | _ => none

/-- `resolveTextQuote`. -/
def resolveTextQuote {γ : Type*} (nfkc : List Char → List Char) (isMark : Char → Bool)
    (apart : γ → γ → Bool) (items : List (TextItem γ)) (selector : Selector) :
    Option (List TextItemSpan) :=
  resolveIn (mappedNormalizedStream nfkc isMark apart items) selector

/-! ## The clusters of a page stand in order -/

/-- Two characters, as far as both come from items. -/
def InSequence (a b : Entry) : Prop :=
  attributed a.origin = true → attributed b.origin = true → Precedes a.origin b.origin

/-- What the entries of a page are: in sequence, and every cluster of an item from `i`
on and not empty. -/
structure EntriesFrom (i : Nat) (entries : List Entry) : Prop where
  sequence : entries.Pairwise InSequence
  item_ge : ∀ e ∈ entries, attributed e.origin = true → (i : Int) ≤ e.origin.itemIndex
  proper : ∀ e ∈ entries, attributed e.origin = true →
    e.origin.characterIndex < e.origin.characterEnd

theorem clusters_ne_nil {isMark : Char → Bool} {s : List Char} :
    ∀ cluster ∈ clusters isMark s, cluster ≠ [] := by
  induction s with
  | nil => simp [clusters]
  | cons c s ih =>
    intro cluster hc
    unfold clusters at hc
    split at hc
    next =>
      rw [List.mem_singleton.mp hc]
      simp
    next first rest heq =>
      rw [heq] at ih
      split at hc
      next =>
        rcases List.mem_cons.mp hc with rfl | hc
        · simp
        · exact ih cluster (by simp [hc])
      next =>
        rcases List.mem_cons.mp hc with rfl | hc
        · simp
        · exact ih cluster hc

/-- An item's entries: in sequence, of this item, from the index on. -/
theorem itemEntries_inv {nfkc : List Char → List Char} {itemIndex : Nat}
    {parts : List (List Char)} (hne : ∀ part ∈ parts, part ≠ []) (characterIndex : Nat) :
    (itemEntries nfkc itemIndex characterIndex parts).Pairwise InSequence ∧
      ∀ e ∈ itemEntries nfkc itemIndex characterIndex parts,
        e.origin.itemIndex = itemIndex ∧ characterIndex ≤ e.origin.characterIndex ∧
          e.origin.characterIndex < e.origin.characterEnd := by
  induction parts generalizing characterIndex with
  | nil => exact ⟨List.Pairwise.nil, by simp [itemEntries]⟩
  | cons part parts ih =>
    have hpos : 0 < (utf16 part).length :=
      Nat.lt_of_lt_of_le (List.length_pos_of_ne_nil (hne part (by simp))) (length_le_utf16 part)
    obtain ⟨hseq, hmem⟩ := ih (fun p hp => hne p (by simp [hp]))
      (characterIndex + (utf16 part).length)
    -- the characters of one cluster share its range
    have hcluster : ∀ e ∈ clusterEntries nfkc itemIndex characterIndex part,
        e.origin = ⟨itemIndex, characterIndex, characterIndex + (utf16 part).length⟩ := by
      intro e he
      obtain ⟨c, -, rfl⟩ := List.mem_map.mp he
      rfl
    unfold itemEntries
    constructor
    · refine List.pairwise_append.mpr ⟨?_, hseq, ?_⟩
      · refine List.pairwise_of_forall_mem_list fun a ha b hb _ _ => Or.inl ?_
        rw [hcluster a ha, hcluster b hb]
      · intro a ha b hb _ _
        obtain ⟨hitem, hge, -⟩ := hmem b hb
        refine Or.inr (Or.inr ⟨?_, ?_⟩)
        · rw [hcluster a ha, hitem]
        · rw [hcluster a ha]
          exact hge
    · intro e he
      rcases List.mem_append.mp he with he | he
      · rw [hcluster e he]
        refine ⟨rfl, Nat.le_refl _, ?_⟩
        show characterIndex < characterIndex + _
        omega
      · obtain ⟨hitem, hge, hproper⟩ := hmem e he
        exact ⟨hitem, by omega, hproper⟩

theorem rawEntries_inv {γ : Type*} {nfkc : List Char → List Char} {isMark : Char → Bool}
    {apart : γ → γ → Bool} (items : List (TextItem γ)) (i : Nat)
    (previous : Option (TextItem γ)) :
    EntriesFrom i (rawEntries nfkc isMark apart i previous items) := by
  induction items generalizing i previous with
  | nil => exact ⟨List.Pairwise.nil, by simp [rawEntries], by simp [rawEntries]⟩
  | cons item items ih =>
    have hrest := ih (i + 1) (some item)
    obtain ⟨hseq, hmem⟩ := @itemEntries_inv nfkc i _
      (@clusters_ne_nil isMark item.str) 0
    have hsep : ∀ e ∈ (if previous.any fun p => needsSeparator apart p item
        then [separatorEntry] else []), attributed e.origin = false := by
      intro e he
      split at he
      · rw [List.mem_singleton.mp he]
        decide
      · exact absurd he (by simp)
    unfold rawEntries
    constructor
    · rw [List.append_assoc]
      refine List.pairwise_append.mpr ⟨?_, List.pairwise_append.mpr ⟨hseq, hrest.sequence, ?_⟩, ?_⟩
      · refine List.pairwise_of_forall_mem_list fun a ha b _ hatt _ => ?_
        rw [hsep a ha] at hatt
        exact absurd hatt (by simp)
      · intro a ha b hb _ hatt
        have hge := hrest.item_ge b hb hatt
        have hitem := (hmem a ha).1
        exact Or.inr (Or.inl (by push_cast at hge; omega))
      · intro a ha b _ hatt _
        rw [hsep a ha] at hatt
        exact absurd hatt (by simp)
    · intro e he hatt
      rcases List.mem_append.mp he with he | he
      · rcases List.mem_append.mp he with he | he
        · rw [hsep e he] at hatt
          exact absurd hatt (by simp)
        · exact Int.le_of_eq (hmem e he).1.symm
      · have hge := hrest.item_ge e he hatt
        push_cast at hge
        omega
    · intro e he hatt
      rcases List.mem_append.mp he with he | he
      · rcases List.mem_append.mp he with he | he
        · rw [hsep e he] at hatt
          exact absurd hatt (by simp)
        · exact (hmem e he).2.2
      · exact hrest.proper e he hatt

/-- The map keeps what the raw entries are: a blank has the origin of the space it
was written for. -/
theorem mappedNormalizedStream_inOrder {γ : Type*} (nfkc : List Char → List Char)
    (isMark : Char → Bool) (apart : γ → γ → Bool) (items : List (TextItem γ)) :
    InOrder (((mappedNormalizedStream nfkc isMark apart items).map (·.origin)).filter
      attributed) := by
  have hraw := @rawEntries_inv γ nfkc isMark apart items 0 none
  have hsub : ((mappedNormalizedStream nfkc isMark apart items).map (·.origin)).Sublist
      ((rawEntries nfkc isMark apart 0 none items).map (·.origin)) :=
    @squeezeFrom_sublist Entry MappedCharacter (fun entry => isJsSpace entry.value)
      (fun pending => { pending with value := ' ' }) (·.origin) (fun _ => rfl) .before
      (rawEntries nfkc isMark apart 0 none items)
  constructor
  · rw [List.pairwise_filter]
    refine List.Pairwise.sublist hsub ?_
    rw [List.pairwise_map]
    exact hraw.sequence
  · intro m hm
    obtain ⟨hmem, hatt⟩ := List.mem_filter.mp hm
    obtain ⟨e, he, rfl⟩ := List.mem_map.mp (hsub.subset hmem)
    exact hraw.proper e he hatt

/-! ## The unique match -/

/-- The quotation stands between `before` and `after`, in its context. -/
def MatchAt (text : List Char) (selector : Selector) (before after : List Char) : Prop :=
  text = before ++ selector.exact ++ after ∧ selector.prefix_ <:+ before ∧
    selector.suffix <+: after

theorem suffix_drop_iff {α : Type*} {p l : List α} :
    p <:+ l.drop (l.length - p.length) ↔ p <:+ l := by
  constructor
  · intro h
    exact h.trans (List.drop_suffix _ _)
  · rintro ⟨x, rfl⟩
    rw [List.length_append, Nat.add_sub_cancel, List.drop_left]

theorem prefix_take_iff {α : Type*} {p l : List α} : p <+: l.take p.length ↔ p <+: l := by
  constructor
  · intro h
    exact h.trans (List.take_prefix _ _)
  · rintro ⟨y, rfl⟩
    rw [List.take_left]

variable {selector : Selector}

/-- The context check, read in characters. -/
theorem contextMatches_iff (before after : List Char) :
    contextMatches (utf16 (before ++ selector.exact ++ after)) selector (utf16 before).length
        = true ↔
      selector.prefix_ <:+ before ∧ selector.suffix <+: after := by
  unfold contextMatches sliceUnits
  rw [decide_eq_true_eq, utf16_append, utf16_append, ← List.length_append, List.take_add,
    List.take_left, List.drop_left, List.drop_left, List.append_assoc, List.take_left,
    suffix_drop_iff, prefix_take_iff, utf16_isSuffix, utf16_isPrefix]

theorem mem_candidatesFrom {text : List Nat} {fuel start k : Nat}
    (hfuel : text.length < fuel + start) :
    k ∈ candidatesFrom text selector fuel start ↔
      start ≤ k ∧ OccursAt (utf16 selector.exact) text k ∧
        contextMatches text selector k = true := by
  induction fuel generalizing start with
  | zero =>
    constructor
    · intro h
      exact absurd h (by simp [candidatesFrom])
    · rintro ⟨hsk, hk, -⟩
      have := hk.le
      omega
  | succ fuel ih =>
    unfold candidatesFrom
    by_cases hroom : start + (utf16 selector.exact).length ≤ text.length
    · rw [if_pos hroom]
      cases hf : findFrom (utf16 selector.exact) text start with
      | none =>
        constructor
        · intro h
          exact absurd h (by simp)
        · rintro ⟨hsk, hk, -⟩
          exact absurd hk (findFrom_eq_none.mp hf k hsk)
      | some found =>
        obtain ⟨hsf, hfound, hmin⟩ := findFrom_eq_some.mp hf
        show k ∈ (if contextMatches text selector found then [found] else []) ++
          candidatesFrom text selector fuel (found + 1) ↔ _
        rw [List.mem_append, ih (by omega)]
        constructor
        · rintro (hk | ⟨hlt, hk⟩)
          · split at hk
            next hctx =>
              rw [List.mem_singleton.mp hk]
              exact ⟨hsf, hfound, hctx⟩
            next => exact absurd hk (by simp)
          · exact ⟨by omega, hk⟩
        · rintro ⟨hsk, hk, hctx⟩
          rcases Nat.lt_trichotomy k found with hlt | rfl | hgt
          · exact absurd hk (hmin k hsk hlt)
          · exact Or.inl (by simp [hctx])
          · exact Or.inr ⟨hgt, hk, hctx⟩
    · rw [if_neg hroom]
      constructor
      · intro h
        exact absurd h (by simp)
      · rintro ⟨hsk, hk, -⟩
        have := hk.le
        omega

/-- The candidates of a text are its matches, at the offsets in units. -/
theorem mem_candidates {text : List Char} {selector : Selector} (hexact : selector.exact ≠ [])
    {k : Nat} :
    k ∈ candidatesFrom (utf16 text) selector ((utf16 text).length + 1) 0 ↔
      ∃ before after, MatchAt text selector before after ∧ (utf16 before).length = k := by
  rw [mem_candidatesFrom (by omega)]
  constructor
  · rintro ⟨-, ⟨x, z, hxz, rfl⟩, hctx⟩
    obtain ⟨before, after, rfl, rfl, -⟩ := utf16_infix hexact hxz
    obtain ⟨hfront, hsuffix⟩ := (contextMatches_iff before after).mp hctx
    exact ⟨before, after, ⟨rfl, hfront, hsuffix⟩, rfl⟩
  · rintro ⟨before, after, ⟨rfl, hfront, hsuffix⟩, rfl⟩
    refine ⟨Nat.zero_le _, ?_, (contextMatches_iff before after).mpr ⟨hfront, hsuffix⟩⟩
    rw [utf16_append, utf16_append]
    exact occursAt_append _ _ _

/-- Two starts of one text at the same offset in units. -/
theorem prefix_eq_of_units {before before' text : List Char} (h : before <+: text)
    (h' : before' <+: text) (hlen : (utf16 before).length = (utf16 before').length) :
    before = before' := by
  have hempty : ∀ {p q : List Char}, p <+: q → (utf16 p).length = (utf16 q).length → p = q := by
    rintro p _ ⟨r, rfl⟩ hpr
    rw [utf16_append, List.length_append] at hpr
    have hr : utf16 r = [] := List.length_eq_zero_iff.mp (by omega)
    rw [utf16_eq_nil.mp hr, List.append_nil]
  rcases List.prefix_or_prefix_of_prefix h h' with hle | hle
  · exact hempty hle hlen
  · exact (hempty hle hlen.symm).symm

/-- What is returned: there is one match, and the spans are those of the map's entries
from its offset in units, as many as the quotation has units. -/
theorem resolveIn_some {stream : List Entry} {spans : List TextItemSpan}
    (hexact : selector.exact ≠ []) (h : resolveIn stream selector = some spans) :
    ∃ before after, MatchAt (stream.map (·.value)) selector before after ∧
      (∀ b a, MatchAt (stream.map (·.value)) selector b a → b = before) ∧
      spans = spansOf (windowOf stream (utf16 before).length (utf16 selector.exact).length) := by
  simp only [resolveIn] at h
  split at h
  next candidate heq =>
    have hcandidates := fun k => @mem_candidates (stream.map (·.value)) selector hexact k
    rw [heq] at hcandidates
    obtain ⟨before, after, hmatch, rfl⟩ := (hcandidates candidate).mp (by simp)
    refine ⟨before, after, hmatch, ?_, (Option.some.inj h).symm⟩
    intro b a hba
    have hlen := List.mem_singleton.mp ((hcandidates _).mpr ⟨b, a, hba, rfl⟩)
    have hfront : ∀ {p q : List Char}, MatchAt (stream.map (·.value)) selector p q →
        p <+: stream.map (·.value) := by
      rintro p q ⟨hsplit, -⟩
      rw [hsplit, List.append_assoc]
      exact List.prefix_append _ _
    exact prefix_eq_of_units (hfront hba) (hfront hmatch) hlen
  next => exact absurd h (by simp)

/-- A window of the map, as a part of it. -/
theorem windowOf_split (stream : List Entry) (i n : Nat) :
    stream.map (·.origin) = (stream.take i).map (·.origin) ++ windowOf stream i n ++
      ((stream.drop i).drop n).map (·.origin) := by
  unfold windowOf
  rw [← List.map_append, ← List.map_append, List.append_assoc, List.take_append_drop,
    List.take_append_drop]

/-- The spans returned are right for the match exactly if the characters the map is
sliced at begin and end in the clusters of the match. -/
theorem resolveTextQuote_covers {γ : Type*} {nfkc : List Char → List Char}
    {isMark : Char → Bool} {apart : γ → γ → Bool} {items : List (TextItem γ)}
    {selector : Selector} {spans : List TextItemSpan} (hexact : selector.exact ≠ [])
    (h : resolveTextQuote nfkc isMark apart items selector = some spans) :
    ∃ before after,
      MatchAt ((mappedNormalizedStream nfkc isMark apart items).map (·.value)) selector
          before after ∧
      (∀ b a, MatchAt ((mappedNormalizedStream nfkc isMark apart items).map (·.value)) selector
          b a → b = before) ∧
      (Covers (windowOf (mappedNormalizedStream nfkc isMark apart items) before.length
            selector.exact.length) spans ↔
        SameEnds (windowOf (mappedNormalizedStream nfkc isMark apart items) before.length
            selector.exact.length)
          (windowOf (mappedNormalizedStream nfkc isMark apart items) (utf16 before).length
            (utf16 selector.exact).length)) := by
  obtain ⟨before, after, hmatch, honly, rfl⟩ := resolveIn_some hexact h
  refine ⟨before, after, hmatch, honly, ?_⟩
  exact covers_iff_sameEnds (mappedNormalizedStream_inOrder nfkc isMark apart items)
    (windowOf_split _ _ _) (windowOf_split _ _ _)

/-- A page of one item, and a quotation in it with no context stored. -/
def sampleItem (str : List Char) : TextItem Unit := ⟨str, false, ()⟩

def sampleSelector (exact : List Char) : Selector := ⟨exact, [], [], []⟩

/-- The quotation `b` of `a b`: its span is the third character. -/
theorem resolveTextQuote_covers_basic :
    ∃ before after,
      MatchAt ((mappedNormalizedStream id (fun _ => false) (fun _ _ => false)
        [sampleItem ['a', ' ', 'b']]).map (·.value)) (sampleSelector ['b']) before after ∧
      Covers (windowOf (mappedNormalizedStream id (fun _ => false) (fun _ _ => false)
        [sampleItem ['a', ' ', 'b']]) before.length 1) [⟨0, 2, 3⟩] := by
  obtain ⟨before, after, hmatch, honly, hiff⟩ :=
    @resolveTextQuote_covers Unit id (fun _ => false) (fun _ _ => false)
      [sampleItem ['a', ' ', 'b']] (sampleSelector ['b']) [⟨0, 2, 3⟩] (by decide) (by decide)
  have hbefore : ['a', ' '] = before := honly ['a', ' '] [] ⟨by decide, by decide, by decide⟩
  subst hbefore
  exact ⟨['a', ' '], after, hmatch, hiff.mpr (by decide)⟩

/-- One astral character before it, and the map is sliced past its end: the match has a
character of the item, the spans have none. -/
theorem resolveTextQuote_misses :
    resolveTextQuote id (fun _ => false) (fun _ _ => false)
        [sampleItem [Char.ofNat 0x1f600, 'a', 'b']] (sampleSelector ['b']) = some [] ∧
      MatchAt ((mappedNormalizedStream id (fun _ => false) (fun _ _ => false)
        [sampleItem [Char.ofNat 0x1f600, 'a', 'b']]).map (·.value)) (sampleSelector ['b'])
        [Char.ofNat 0x1f600, 'a'] [] ∧
      ¬ Covers (windowOf (mappedNormalizedStream id (fun _ => false) (fun _ _ => false)
        [sampleItem [Char.ofNat 0x1f600, 'a', 'b']]) 2 1) [] := by
  refine ⟨by decide, ⟨by decide, by decide, by decide⟩, ?_⟩
  intro hcovers
  obtain ⟨s, hs, -⟩ := hcovers.complete ⟨0, 3, 4⟩ (by decide) (by decide)
  exact absurd hs (by simp)

end LocalRag.Highlight
