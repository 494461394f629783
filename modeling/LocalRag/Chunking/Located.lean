import LocalRag.Chunking.Words

/-!
# Where a chunk stands — offsets of units in the normalized page

A unit carries the offset at which it was found in the normalized page, and a chunk is
quoted from the page at the offset of its first unit. The units of a page are its
pieces in order with white space between them, so each is found where it stands,
right behind the one before it or one blank further on (`units_laid`): `_units` never
raises on a page of text.

A chunk is a run of such units, the first perhaps cut down to its end (`packed_laid`).
It joins its units with blank lines, so its normal form has a blank between any two
that leave something behind. It stands in the page at the offset of its first unit
exactly if the page has these blanks too, and no other before the first visible unit:
`Seamless`.

NFKC is assumed to leave the page and what is made of its pieces as it is
(`Settled`).
-/

namespace LocalRag.Chunking

open LocalRag.Core Highlight

variable {ρ : Type} {w : WordClass} {nfkc : List Char → List Char} {page : List Char}
  {apart : List Char → Prop}

/-- The normal form of a text NFKC leaves as it is. -/
def plain (s : List Char) : List Char := normalizeHighlightText id s

/-- NFKC leaves alone what is put together from pieces of the page and blank lines, as it
does where it leaves the page alone: a line feed combines with nothing. -/
structure Settled (nfkc : List Char → List Char) (page : List Char) : Prop where
  joined_fixed : ∀ ps, (∀ p ∈ ps, p <:+: page) → nfkc (joined ps) = joined ps

theorem Settled.normalize_joined (h : Settled nfkc page) {ps : List (List Char)}
    (hps : ∀ p ∈ ps, p <:+: page) : normalizeHighlightText nfkc (joined ps) = plain (joined ps) := by
  have hfixed := h.joined_fixed ps hps
  unfold plain normalizeHighlightText normalizeBy bare
  rw [hfixed, id]

theorem Settled.normalize (h : Settled nfkc page) {p : List Char} (hp : p <:+: page) :
    normalizeHighlightText nfkc p = plain p := by
  have hpieces : ∀ q ∈ [p], q <:+: page := by simpa using hp
  simpa [joined] using h.normalize_joined hpieces

/-! ## Normal forms of pieces -/

/-- The page without its soft hyphens. -/
theorem bare_append (a b : List Char) : bare id (a ++ b) = bare id a ++ bare id b :=
  List.filter_append ..

theorem plain_eq (s : List Char) : plain s = squeeze isSpace (bare id s) :=
  normalizeHighlightText_eq s

/-- One text after another: at most one blank between the two normal forms, and none in front
of a text that leaves nothing. -/
theorem plain_append (a b : List Char) :
    ∃ lead, (lead = [] ∨ lead = [' ']) ∧ plain (a ++ b) = plain a ++ lead ++ plain b ∧
      (plain b = [] → lead = []) := by
  obtain ⟨lead, hlead, heq, hnone⟩ := @squeezeFrom_lead Char isSpace (fun _ => ' ')
    (gapAfter isSpace .before (bare id a)) (bare id b)
  have hlead' : lead = [] ∨ lead = [' '] := by
    rcases hlead with rfl | ⟨b, rfl⟩
    · exact Or.inl rfl
    · exact Or.inr rfl
  refine ⟨lead, hlead', ?_, by simpa only [plain_eq, squeeze] using hnone⟩
  rw [plain_eq, plain_eq, plain_eq, bare_append]
  unfold squeeze
  rw [squeezeFrom_append, heq, List.append_assoc]

/-- The normal form of a beginning is a beginning of the normal form. -/
theorem plain_prefix {a s : List Char} (h : a <+: s) : ∃ tail, plain s = plain a ++ tail := by
  obtain ⟨b, rfl⟩ := h
  obtain ⟨lead, -, heq, -⟩ := plain_append a b
  exact ⟨lead ++ plain b, by rw [heq, List.append_assoc]⟩

/-- White space at the end leaves nothing. -/
theorem plain_blank (a : List Char) {gap : List Char} (hgap : Blank gap) :
    plain (a ++ gap) = plain a := by
  have hspaces : ∀ c ∈ bare id gap, isSpace c = true := fun c hc => hgap c (List.mem_filter.mp hc).1
  rw [plain_eq, plain_eq, bare_append]
  unfold squeeze
  rw [squeezeFrom_append, squeezeFrom_eq_nil.mpr hspaces, List.append_nil]

/-- A normal form does not begin with a blank. -/
theorem plain_head {s : List Char} {c : Char} (h : (plain s).head? = some c) : c ≠ ' ' := by
  rw [plain_eq] at h
  have hc := squeezeFrom_before_head h
  rintro rfl
  exact absurd hc (by decide)

theorem plain_not_blank {s rest more : List Char} (hs : plain s ≠ []) :
    ¬ plain s ++ rest <+: ' ' :: more := by
  intro h
  cases hp : plain s with
  | nil => exact hs hp
  | cons c cs =>
    rw [hp, List.cons_append, List.cons_prefix_cons] at h
    exact plain_head (by rw [hp]; rfl) h.1

/-- After at most one blank, a piece is found where it stands. -/
theorem find_piece {x lead tail p : List Char} (hlead : lead = [] ∨ lead = [' '])
    (hnone : plain p = [] → lead = []) :
    findFrom (plain p) (x ++ lead ++ plain p ++ tail) x.length = some (x.length + lead.length) := by
  rw [findFrom_eq_some]
  refine ⟨Nat.le_add_right _ _, ⟨x ++ lead, tail, rfl, List.length_append⟩, ?_⟩
  intro i hi hlt hocc
  rcases hlead with rfl | rfl
  · rw [List.length_nil] at hlt
    omega
  · -- the only place before is the blank itself
    have hvisible : plain p ≠ [] := fun h => absurd (hnone h) (by simp)
    obtain rfl : i = x.length := by
      rw [List.length_singleton] at hlt
      omega
    have hpre := (occursAt_iff.mp hocc).2
    rw [List.append_assoc, List.append_assoc, List.drop_left, List.singleton_append] at hpre
    exact @plain_not_blank p [] _ hvisible (by simpa using hpre)

/-! ## Units in the page -/

/-- The units stand one after the other behind `before`, white space between them, and end
where `after` ends; their offsets are those of the normal form. -/
def Laid : List Char → List (Unit ρ) → List Char → Prop
  | before, [], after => after = before
  | before, u :: us, after => ∃ gap, Blank gap ∧ Trimmed u.text ∧
      u.stop = some ((plain (before ++ gap ++ u.text)).length : Int) ∧
      u.start = some ((plain (before ++ gap ++ u.text)).length - (plain u.text).length : Int) ∧
      Laid (before ++ gap ++ u.text) us after

variable {us : List (Unit ρ)} {before after : List Char}

theorem laid_append {vs : List (Unit ρ)} :
    Laid before (us ++ vs) after ↔ ∃ mid, Laid before us mid ∧ Laid mid vs after := by
  induction us generalizing before with
  | nil =>
    constructor
    · exact fun h => ⟨before, rfl, h⟩
    · rintro ⟨mid, rfl, h⟩
      exact h
  | cons u us ih =>
    constructor
    · rintro ⟨gap, hgap, ht, hstop, hstart, h⟩
      obtain ⟨mid, hmid, h⟩ := ih.mp h
      exact ⟨mid, ⟨gap, hgap, ht, hstop, hstart, hmid⟩, h⟩
    · rintro ⟨mid, ⟨gap, hgap, ht, hstop, hstart, hmid⟩, h⟩
      exact ⟨gap, hgap, ht, hstop, hstart, ih.mpr ⟨mid, hmid, h⟩⟩

/-- What is behind comes after what is in front. -/
theorem Laid.isPrefix (h : Laid before us after) : before <+: after := by
  induction us generalizing before with
  | nil =>
    obtain rfl := h
    exact List.prefix_rfl
  | cons u us ih =>
    obtain ⟨gap, -, -, -, -, h⟩ := h
    refine List.IsPrefix.trans ⟨gap ++ u.text, ?_⟩ (ih h)
    rw [List.append_assoc]

/-- The texts of the units are pieces of the page, with white space at neither end. -/
theorem Laid.texts (h : Laid before us after) : ∀ u ∈ us, u.text <:+: after ∧ Trimmed u.text := by
  induction us generalizing before with
  | nil => simp
  | cons u us ih =>
    obtain ⟨gap, -, ht, -, -, h⟩ := h
    intro v hv
    rcases List.mem_cons.mp hv with rfl | hv
    · exact ⟨(List.suffix_append _ _).isInfix.trans h.isPrefix.isInfix, ht⟩
    · exact ih h v hv

variable {rest : List Char}

/-- The parts of a paragraph are found, each where it stands. -/
theorem partUnits_laid (hn : Settled nfkc page) {done : List Char} (hpage : page = done ++ rest)
    {parts more : List (List Char)} (h : Cuts apart (parts ++ more) rest)
    (sectionName : Option (List Char)) (regions : List ρ) :
    ∃ us after rest', partUnits nfkc (plain page) false sectionName regions (plain done).length
        parts = .ok (us, (plain after).length) ∧
      Laid done us after ∧ us.map (·.text) = parts ∧ page = after ++ rest' ∧
      Cuts apart more rest' := by
  induction parts generalizing done rest with
  | nil => exact ⟨[], done, rest, rfl, rfl, rfl, hpage, h⟩
  | cons p parts ih =>
    obtain ⟨gap, rest, rfl, hgap, hp, -, hrest⟩ := h
    obtain ⟨lead, hlead, hplain, hnone⟩ := plain_append (done ++ gap) p
    have hpage' : page = done ++ gap ++ p ++ rest := by
      rw [hpage]
      simp
    obtain ⟨tail, htail⟩ : ∃ tail, plain page = plain (done ++ gap ++ p) ++ tail :=
      plain_prefix ⟨rest, hpage'.symm⟩
    have hpart : p <:+: page := ⟨done ++ gap, rest, hpage'.symm⟩
    obtain ⟨us, after, rest', hus, hlaid, htexts, hafter, hmore⟩ := ih hpage' hrest
    rw [plain_blank done hgap] at hplain
    have hfind : findFrom (plain p) (plain page) (plain done).length
        = some ((plain done).length + lead.length) := by
      rw [htail, hplain]
      exact find_piece hlead hnone
    have hstop : (plain done).length + lead.length + (plain p).length
        = (plain (done ++ gap ++ p)).length := by
      rw [hplain, List.length_append, List.length_append]
    refine ⟨⟨p, sectionName, regions, some ((plain done).length + lead.length : Nat),
      some (((plain done).length + lead.length : Nat) + (plain p).length)⟩ :: us, after, rest',
      ?_, ?_, ?_, hafter, hmore⟩
    · unfold partUnits
      rw [hn.normalize hpart, hfind]
      simp only [Bool.false_eq_true, if_false]
      rw [hstop, hus]
      rfl
    · refine ⟨gap, hgap, hp, ?_, ?_, hlaid⟩
      · rw [← hstop]
        rfl
      · rw [← hstop]
        show some _ = some _
        congr 1
        push_cast
        omega
    · rw [List.map_cons, htexts]

/-- The units of all paragraphs. -/
theorem paragraphUnits_laid {maxTokens : Nat} (hn : Settled nfkc page) {done rest : List Char}
    (hpage : page = done ++ rest) (raws : List (List Char))
    (h : Cuts apart (((trimmedPieces raws).flatMap sentences).flatMap (splitOversized w maxTokens))
      rest) (sectionName : Option (List Char)) :
    ∃ us after rest', paragraphUnits (ρ := ρ) w nfkc maxTokens (plain page) false sectionName
        (plain done).length (raws.map fun raw => (raw, [])) = .ok us ∧
      Laid done us after ∧ page = after ++ rest' ∧
      us.map (·.text)
        = ((trimmedPieces raws).flatMap sentences).flatMap (splitOversized w maxTokens) := by
  induction raws generalizing done rest sectionName with
  | nil => exact ⟨[], done, rest, rfl, rfl, hpage, rfl⟩
  | cons raw raws ih =>
    rw [List.map_cons]
    unfold paragraphUnits
    rw [trimmedPieces_cons] at h ⊢
    by_cases hempty : stripped raw = []
    · rw [if_pos hempty] at h ⊢
      rw [if_pos hempty]
      exact ih hpage h sectionName
    · rw [if_neg hempty] at h ⊢
      rw [if_neg hempty]
      rw [List.flatMap_cons, List.flatMap_append] at h ⊢
      obtain ⟨us, mid, rest', hus, hlaid, htexts, hmid, hmore⟩ := partUnits_laid (ρ := ρ) hn hpage h
        (sectionAfter sectionName (stripped raw)) []
      obtain ⟨vs, after, rest'', hvs, hlaid', hafter, htexts'⟩ := ih hmid hmore
        (sectionAfter sectionName (stripped raw))
      refine ⟨us ++ vs, after, rest'', ?_, laid_append.mpr ⟨mid, hlaid, hlaid'⟩, hafter, ?_⟩
      · rw [hus]
        show Except.map _ (paragraphUnits w nfkc maxTokens (plain page) false _ (plain mid).length _)
          = _
        rw [hvs]
        rfl
      · rw [List.map_append, htexts, htexts']

/-- A page of text: no blocks, and its text is quoted. -/
structure DirectPage (page : ParsedPage ρ) : Prop where
  blocks : page.blocks = []
  direct : page.parseMethod = .direct

/-- `_units` never raises on a page of text, and its units are the pieces of the page, laid
out in it. -/
theorem units_laid {page : ParsedPage ρ} (hpage : DirectPage page) (hn : Settled nfkc page.text)
    (chunker : DocumentChunker) :
    ∃ us after rest, units w nfkc chunker page = .ok us ∧ Laid [] us after ∧
      page.text = after ++ rest ∧ us.map (·.text) = pieces w chunker.maxTokens page.text := by
  have hmax : 1 ≤ chunker.maxTokens := by
    have := chunker.overlap_lt
    have := chunker.target_le
    omega
  obtain ⟨us, after, rest, hus, hlaid, hafter, htexts⟩ := @paragraphUnits_laid ρ w nfkc page.text _
    chunker.maxTokens hn [] page.text rfl (reSplit paragraphBreak (stripped page.text)) (cuts_pieces hmax page.text) none
  refine ⟨us, after, rest, ?_, hlaid, hafter, htexts⟩
  unfold units
  rw [hn.normalize (List.infix_refl _), hpage.blocks]
  exact hus

/-! ## Packing -/

/-- The units of a chunk stand in the page one behind the other. -/
def Stretch (page : List Char) (us : List (Unit ρ)) : Prop :=
  ∃ before after rest, Laid before us after ∧ page = after ++ rest

variable {overlapTokens : Nat}

/-- The end of a text from one of its tokens on. -/
theorem suffixText_spec {text : List Char} (ho : 1 ≤ overlapTokens)
    (hlt : overlapTokens < countTokens w text) (ht : Trimmed text) :
    ∃ a, text = a ++ suffixText w overlapTokens text ∧ Trimmed (suffixText w overlapTokens text) ∧
      countTokens w (suffixText w overlapTokens text) = overlapTokens := by
  obtain ⟨front, rest, rfl, -, hne, hhead, hsuffix, hcount⟩ := suffixText_split ho hlt
  have htrimmed : Trimmed rest := by
    refine ⟨hne, hhead, fun c hc => ht.2.2 c ?_⟩
    rw [List.getLast?_append, hc]
    rfl
  rw [hsuffix, stripped_eq htrimmed]
  exact ⟨front, rfl, htrimmed, hcount⟩

variable {u : Unit ρ}

/-- A unit cut down to its end stands where the unit ended. -/
theorem suffixUnit_laid (hn : Settled nfkc page) (ho : 1 ≤ overlapTokens)
    (hlt : overlapTokens < countTokens w u.text) (h : Laid before [u] after)
    (hpage : page = after ++ rest) : ∃ mid, Laid mid [suffixUnit w nfkc overlapTokens u] after := by
  obtain ⟨gap, hgap, ht, hstop, hstart, rfl⟩ := h
  obtain ⟨a, htext, htrimmed, -⟩ := suffixText_spec (w := w) ho hlt ht
  have hsame : before ++ gap ++ a ++ [] ++ suffixText w overlapTokens u.text
      = before ++ gap ++ u.text := by
    rw [List.append_nil, List.append_assoc _ a, ← htext]
  have hpart : suffixText w overlapTokens u.text <:+: page :=
    ⟨before ++ gap ++ a, rest, by rw [hpage, ← hsame, List.append_nil]⟩
  refine ⟨before ++ gap ++ a, [], blank_nil, htrimmed, ?_, ?_, ?_⟩
  · show u.stop = _
    rw [hstop]
    exact congrArg (fun s => some ((plain s).length : Int)) hsame.symm
  · show u.stop.map _ = _
    rw [hstop, Option.map_some, hn.normalize hpart]
    exact congrArg (fun s => some (((plain s).length : Int) - _)) hsame.symm
  · exact hsame.symm

variable {mid : List Char}

theorem overlapLoop_laid (hn : Settled nfkc page) (ho : 1 ≤ overlapTokens)
    (hpage : page = after ++ rest) (us : List (Unit ρ)) {selected : List (Unit ρ)} (total : Nat)
    (hus : Laid before us.reverse mid) (hsel : Laid mid selected after) :
    ∃ b, Laid b (overlapLoop w nfkc overlapTokens us selected total) after := by
  induction us generalizing mid selected total with
  | nil => exact ⟨mid, hsel⟩
  | cons u us ih =>
    rw [List.reverse_cons] at hus
    obtain ⟨mid', hus', hu⟩ := laid_append.mp hus
    unfold overlapLoop
    split
    · exact ⟨mid, hsel⟩
    next hgo =>
      split
      next hlong =>
        -- only the last unit is cut, so nothing was selected before
        have hnil : selected = [] := by
          by_contra hne
          exact hgo ⟨hne, by omega⟩
        subst hnil
        obtain rfl : after = mid := hsel
        exact suffixUnit_laid hn ho hlong hu hpage
      next => exact ih _ hus' (laid_append.mpr ⟨mid, hu, hsel⟩)

theorem overlap_laid (hn : Settled nfkc page) (overlapTokens : Nat) (hpage : page = after ++ rest)
    (h : Laid before us after) : ∃ b, Laid b (overlap w nfkc overlapTokens us) after := by
  unfold overlap
  split
  next => exact ⟨after, rfl⟩
  next ho =>
    have hus : Laid before us.reverse.reverse after := by rwa [List.reverse_reverse]
    exact overlapLoop_laid hn (Nat.pos_of_ne_zero ho) hpage us.reverse 0 hus rfl

theorem carried_laid (hn : Settled nfkc page) (chunker : DocumentChunker)
    (hpage : page = after ++ rest) (h : Laid before us after) (unit : Unit ρ) :
    ∃ b, Laid b (carried w nfkc chunker us unit) after := by
  unfold carried
  split
  · exact ⟨after, rfl⟩
  · exact overlap_laid hn chunker.overlapTokens hpage h

/-- What the loop of `_pack` keeps: the chunks and the current units are stretches of the
page, and the current one ends where the next unit is laid. -/
structure PackingLaid (page : List Char) (s : Packing ρ) (after : List Char) : Prop where
  chunks : ∀ c ∈ s.chunks, c.units ≠ [] ∧ c = render c.units ∧ Stretch page c.units
  current : ∃ before, Laid before s.current after

theorem packStep_laid (hn : Settled nfkc page) (chunker : DocumentChunker) {s : Packing ρ}
    (h : PackingLaid page s mid) (hu : Laid mid [u] after) (hpage : page = after ++ rest) :
    PackingLaid page (packStep w nfkc chunker s u) after := by
  obtain ⟨before, hcurrent⟩ := h.current
  obtain ⟨rest', hmid⟩ : ∃ rest', page = mid ++ rest' := by
    obtain ⟨tail, htail⟩ := hu.isPrefix
    exact ⟨tail ++ rest, by rw [hpage, ← htail, List.append_assoc]⟩
  unfold packStep
  split
  next hfull =>
    refine ⟨?_, ?_⟩
    · intro c hc
      rcases List.mem_append.mp hc with hc | hc
      · exact h.chunks c hc
      · rw [List.mem_singleton.mp hc]
        exact ⟨hfull.1, rfl, before, mid, rest', hcurrent, hmid⟩
    · obtain ⟨b, hb⟩ := carried_laid (w := w) hn chunker hmid hcurrent u
      exact ⟨b, laid_append.mpr ⟨mid, hb, hu⟩⟩
  next => exact ⟨h.chunks, before, laid_append.mpr ⟨mid, hcurrent, hu⟩⟩

theorem run_packStep_laid (hn : Settled nfkc page) (chunker : DocumentChunker)
    (us : List (Unit ρ)) {s : Packing ρ} (h : PackingLaid page s mid) (hus : Laid mid us after)
    (hpage : page = after ++ rest) :
    PackingLaid page (run (packStep w nfkc chunker) s us) after := by
  induction us generalizing s mid with
  | nil =>
    obtain rfl := hus
    exact h
  | cons u us ih =>
    obtain ⟨gap, hgap, ht, hstop, hstart, hus'⟩ := hus
    have hu : Laid mid [u] (mid ++ gap ++ u.text) := ⟨gap, hgap, ht, hstop, hstart, rfl⟩
    obtain ⟨tail, htail⟩ := hus'.isPrefix
    have hpage' : page = mid ++ gap ++ u.text ++ (tail ++ rest) := by
      rw [hpage, ← htail, List.append_assoc _ tail]
    exact ih (packStep_laid hn chunker h hu hpage') hus'

/-- Every chunk of a page joins the units of a stretch of it. -/
theorem packed_laid (hn : Settled nfkc page) (chunker : DocumentChunker) (h : Laid [] us after)
    (hpage : page = after ++ rest) :
    ∀ c ∈ pack w nfkc chunker us, c.units ≠ [] ∧ c = render c.units ∧ Stretch page c.units := by
  have hstart : PackingLaid page (Packing.start ρ) [] := ⟨by simp [Packing.start], [], rfl⟩
  have hrun := run_packStep_laid (w := w) hn chunker us hstart h hpage
  intro c hc
  unfold pack Packing.finish at hc
  split at hc
  next hlast =>
    rcases List.mem_append.mp hc with hc | hc
    · exact hrun.chunks c hc
    · obtain ⟨before, hcurrent⟩ := hrun.current
      rw [List.mem_singleton.mp hc]
      exact ⟨hlast.1, rfl, before, after, rest, hcurrent, hpage⟩
  next => exact hrun.chunks c hc

/-! ## The seams of a chunk -/

/-- The unit leaves something in the normal form. -/
def visible (nfkc : List Char → List Char) (u : Unit ρ) : Bool :=
  normalizeHighlightText nfkc u.text ≠ []

theorem visible_iff (hn : Settled nfkc page) (hu : u.text <:+: page) :
    visible nfkc u = true ↔ plain u.text ≠ [] := by
  unfold visible
  rw [hn.normalize hu]
  simp

/-- Each visible unit starts one behind the end of the unit before it, where a visible unit of
the chunk came before, and right at that end where none did. -/
def Seams (nfkc : List Char → List Char) : Bool → Option Int → List (Unit ρ) → Prop
  | _, _, [] => True
  | seen, stop, u :: us =>
    (visible nfkc u = true → u.start = stop.map (· + if seen then 1 else 0)) ∧
      Seams nfkc (seen || visible nfkc u) u.stop us

/-- The seams of a chunk, behind its first unit. -/
def Seamless (nfkc : List Char → List Char) : List (Unit ρ) → Prop
  | [] => True
  | u :: us => Seams nfkc (visible nfkc u) u.stop us

/-- The normalized chunk text stands in the normalized page at the offset of the first
unit. -/
def Located (nfkc : List Char → List Char) (page : List Char) (c : Packed ρ) : Prop :=
  ∃ k : Nat, c.units.head?.bind (·.start) = some (k : Int) ∧
    OccursAt (normalizeHighlightText nfkc c.text) (normalizeHighlightText nfkc page) k

/-- The normal forms of the visible texts, a blank between any two, and one in front where a
visible text came before. -/
def spread : Bool → List (List Char) → List Char
  | _, [] => []
  | seen, t :: ts =>
    if plain t = [] then spread seen ts
    else (if seen then [' '] else []) ++ plain t ++ spread true ts

theorem spread_cons (seen : Bool) (t : List Char) (ts : List (List Char)) :
    spread seen (t :: ts) =
      if plain t = [] then spread seen ts
      else (if seen then [' '] else []) ++ plain t ++ spread true ts := rfl

theorem spread_true (ts : List (List Char)) :
    spread true ts = if spread false ts = [] then [] else ' ' :: spread false ts := by
  induction ts with
  | nil => rfl
  | cons t ts ih =>
    rw [spread_cons, spread_cons]
    by_cases ht : plain t = []
    · rw [if_pos ht, if_pos ht]
      exact ih
    · simp [ht]

/-- A blank line between two texts becomes a blank where both leave something. -/
theorem plain_blankLine (x y : List Char) :
    plain (x ++ ['\n', '\n'] ++ y)
      = if plain x = [] then plain y else if plain y = [] then plain x
        else plain x ++ ' ' :: plain y := by
  have hline : bare id ['\n', '\n'] = ['\n', '\n'] := by decide
  have hgap : Blank ['\n', '\n'] := by
    intro c hc
    rcases List.mem_cons.mp hc with rfl | hc
    · decide
    · rw [List.mem_singleton.mp hc]
      decide
  by_cases hx : plain x = []
  · -- nothing but white space in front
    rw [if_pos hx]
    have hspaces : ∀ c ∈ bare id (x ++ ['\n', '\n']), isSpace c = true := by
      rw [plain_eq] at hx
      rw [bare_append, hline]
      intro c hc
      rcases List.mem_append.mp hc with hc | hc
      · exact squeezeFrom_eq_nil.mp hx c hc
      · exact hgap c hc
    rw [plain_eq, plain_eq, bare_append]
    unfold squeeze
    rw [squeezeFrom_append, squeezeFrom_eq_nil.mpr hspaces, gapAfter_eq_before.mpr hspaces,
      List.nil_append]
  · rw [if_neg hx]
    have hafter : gapAfter isSpace .before (bare id (x ++ ['\n', '\n'])) = .after '\n' := by
      have hne : gapAfter isSpace .before (bare id x) ≠ .before := by
        intro h
        rw [plain_eq] at hx
        exact hx (squeezeFrom_eq_nil.mpr (gapAfter_eq_before.mp h))
      rw [bare_append, hline, gapAfter_append]
      cases hg : gapAfter isSpace .before (bare id x) with
      | before => exact absurd hg hne
      | inside => rfl
      | after b => rfl
    have hfront : squeezeFrom isSpace (fun _ => ' ') .before (bare id (x ++ ['\n', '\n']))
        = plain x := by
      rw [← plain_blank x hgap, plain_eq]
      rfl
    rw [plain_eq, bare_append]
    unfold squeeze
    rw [squeezeFrom_append, hfront, hafter]
    by_cases hy : plain y = []
    · rw [if_pos hy]
      rw [plain_eq] at hy
      rw [squeezeFrom_eq_nil.mpr (squeezeFrom_eq_nil.mp hy), List.append_nil]
    · rw [if_neg hy]
      rw [plain_eq] at hy
      obtain ⟨b, hb⟩ := squeezeFrom_after_eq '\n' hy
      rw [hb, plain_eq y]
      rfl

/-- Line feeds between texts become blanks between what the texts leave. -/
theorem plain_joined (ts : List (List Char)) : plain (joined ts) = spread false ts := by
  induction ts with
  | nil => decide
  | cons t ts ih =>
    unfold joined at ih ⊢
    by_cases hts : ts = []
    · subst hts
      rw [List.intercalate_singleton, spread_cons]
      by_cases ht : plain t = []
      · rw [if_pos ht, ht]
        rfl
      · rw [if_neg ht]
        simp [spread]
    · rw [List.intercalate_cons_of_ne_nil hts, plain_blankLine, ih, spread_cons]
      by_cases ht : plain t = []
      · rw [if_pos ht, if_pos ht]
      · rw [if_neg ht, if_neg ht, spread_true]
        by_cases hs : spread false ts = []
        · rw [if_pos hs, if_pos hs]
          simp
        · rw [if_neg hs, if_neg hs]
          simp

theorem trimmed_joined {ts : List (List Char)} (hne : ts ≠ []) (ht : ∀ t ∈ ts, Trimmed t) :
    Trimmed (joined ts) := by
  induction ts with
  | nil => exact absurd rfl hne
  | cons t ts ih =>
    have hfirst := ht t (by simp)
    unfold joined at ih ⊢
    by_cases hts : ts = []
    · subst hts
      rwa [List.intercalate_singleton]
    · rw [List.intercalate_cons_of_ne_nil hts]
      exact hfirst.append _ (ih hts fun s hs => ht s (by simp [hs]))

theorem length_lead (x lead p : List Char) :
    (((x ++ lead ++ p).length : Int) - p.length) = ((x.length + lead.length : Nat) : Int) := by
  rw [List.length_append, List.length_append]
  push_cast
  omega

/-- The chunk goes on with what the page goes on with exactly if the seams are right. -/
theorem spread_prefix (hn : Settled nfkc page) (h : Laid before us after)
    (hpage : page = after ++ rest) (seen : Bool) :
    spread seen (us.map (·.text)) <+: (plain page).drop (plain before).length ↔
      Seams nfkc seen (some ((plain before).length : Int)) us := by
  induction us generalizing before seen with
  | nil => exact iff_of_true (List.nil_prefix) trivial
  | cons u us ih =>
    obtain ⟨gap, hgap, ht, hstop, hstart, h⟩ := h
    have hsome := ih h
    obtain ⟨lead, hlead, hplain, hnone⟩ := plain_append (before ++ gap) u.text
    rw [plain_blank before hgap] at hplain
    have hpart : u.text <:+: page :=
      (List.suffix_append _ _).isInfix.trans (h.isPrefix.trans ⟨rest, hpage.symm⟩).isInfix
    have hvis := visible_iff hn hpart
    -- what the page goes on with
    have hdrop : (plain page).drop (plain before).length
        = lead ++ plain u.text ++ (plain page).drop (plain (before ++ gap ++ u.text)).length := by
      obtain ⟨tail, htail⟩ : ∃ tail, plain page = plain (before ++ gap ++ u.text) ++ tail :=
        plain_prefix (h.isPrefix.trans ⟨rest, hpage.symm⟩)
      rw [htail, List.drop_left, hplain, List.append_assoc, List.append_assoc, List.drop_left,
        List.append_assoc]
    have hstarts : u.start = some (((plain before).length + lead.length : Nat) : Int) := by
      rw [hstart, hplain, length_lead]
    rw [List.map_cons, hdrop, spread_cons]
    unfold Seams
    by_cases hempty : plain u.text = []
    · have hlead0 := hnone hempty
      rw [hlead0, hempty] at hplain
      have hlen : (plain (before ++ gap ++ u.text)).length = (plain before).length := by
        rw [hplain]
        simp
      have hunseen : visible nfkc u = false := by
        by_contra hv
        exact hvis.mp (by simpa using hv) hempty
      have hrest := hsome seen
      rw [← hstop, hlen] at hrest
      rw [if_pos hempty, hlead0, hempty, hlen, hunseen, Bool.or_false]
      simpa using hrest
    · have hseen : visible nfkc u = true := hvis.mpr hempty
      have hwhere : u.start = (some ((plain before).length : Int)).map (· + if seen then 1 else 0) ↔
          lead = if seen then [' '] else [] := by
        rw [hstarts]
        rcases hlead with rfl | rfl <;> cases seen <;> simp
      rw [if_neg hempty, hseen, Bool.or_true, hwhere]
      by_cases hl : lead = if seen then [' '] else []
      · rw [← hl, List.append_assoc, List.append_assoc, List.prefix_append_right_inj,
          List.prefix_append_right_inj, hsome true, hstop]
        exact ⟨fun hs => ⟨fun _ => rfl, hs⟩, fun hs => hs.2⟩
      · refine iff_of_false ?_ fun hs => hl (hs.1 rfl)
        intro hpre
        -- one has a blank where the other has the first character of the unit
        rcases hlead with rfl | rfl
        · have hseen' : seen = true := by
            by_contra hs
            exact hl (by simp [hs])
          rw [hseen', if_pos rfl] at hpre
          cases hp : plain u.text with
          | nil => exact hempty hp
          | cons c cs =>
            rw [hp] at hpre
            have hc : ' ' = c := (List.cons_prefix_cons.mp hpre).1
            exact plain_head (by rw [hp]; rfl) hc.symm
        · have hseen' : seen = false := by
            by_contra hs
            exact hl (by simp [hs])
          rw [hseen', if_neg (by simp), List.nil_append] at hpre
          exact plain_not_blank hempty hpre

/-- **One chunk**: it stands in the page at the offset of its first unit exactly if its seams
are blanks of the page. -/
theorem located_iff (hn : Settled nfkc page) {c : Packed ρ} (hne : c.units ≠ [])
    (hc : c = render c.units) (h : Stretch page c.units) :
    Located nfkc page c ↔ Seamless nfkc c.units := by
  obtain ⟨before, after, rest, hlaid, hpage⟩ := h
  have htexts : ∀ u ∈ c.units, u.text <:+: page ∧ Trimmed u.text := by
    intro u hu
    obtain ⟨hpart, ht⟩ := hlaid.texts u hu
    exact ⟨hpart.trans ⟨[], rest, by rw [hpage]; rfl⟩, ht⟩
  have hnormal : normalizeHighlightText nfkc c.text = spread false (c.units.map (·.text)) := by
    have htrimmed : Trimmed (joined (c.units.map (·.text))) := by
      refine trimmed_joined (by simpa using hne) fun t ht => ?_
      obtain ⟨u, hu, rfl⟩ := List.mem_map.mp ht
      exact (htexts u hu).2
    have htext : c.text = joined (c.units.map (·.text)) := by
      rw [hc]
      exact stripped_eq htrimmed
    rw [htext, hn.normalize_joined, plain_joined]
    intro t ht
    obtain ⟨u, hu, rfl⟩ := List.mem_map.mp ht
    exact (htexts u hu).1
  unfold Located
  rw [hnormal, hn.normalize (List.infix_refl page)]
  cases hus : c.units with
  | nil => exact absurd hus hne
  | cons u us =>
    rw [hus] at hlaid htexts
    obtain ⟨gap, hgap, -, hstop, hstart, hrest⟩ := hlaid
    obtain ⟨lead, -, hplain, -⟩ := plain_append (before ++ gap) u.text
    rw [plain_blank before hgap] at hplain
    obtain ⟨tail, htail⟩ : ∃ tail, plain page = plain (before ++ gap ++ u.text) ++ tail :=
      plain_prefix (hrest.isPrefix.trans ⟨rest, hpage.symm⟩)
    have hk : u.start = some (((plain before).length + lead.length : Nat) : Int) := by
      rw [hstart, hplain, length_lead]
    -- the page from the first unit on
    have hdrop : (plain page).drop ((plain before).length + lead.length)
        = plain u.text ++ (plain page).drop (plain (before ++ gap ++ u.text)).length := by
      rw [htail, List.drop_left, hplain, ← List.length_append, List.append_assoc, List.drop_left]
    have hle : (plain before).length + lead.length ≤ (plain page).length := by
      rw [htail, hplain]
      simp only [List.length_append]
      omega
    have hseams := spread_prefix hn hrest hpage (visible nfkc u)
    rw [← hstop] at hseams
    have hvis := visible_iff hn (htexts u (by simp)).1
    show (∃ k : Nat, u.start = some (k : Int) ∧ _) ↔ Seams nfkc (visible nfkc u) u.stop us
    rw [← hseams, List.map_cons]
    have hspread : spread false (u.text :: us.map (·.text)) <+:
          (plain page).drop ((plain before).length + lead.length) ↔
        spread (visible nfkc u) (us.map (·.text)) <+:
          (plain page).drop (plain (before ++ gap ++ u.text)).length := by
      rw [hdrop, spread_cons]
      by_cases hempty : plain u.text = []
      · have hunseen : visible nfkc u = false := by
          by_contra hv
          exact hvis.mp (by simpa using hv) hempty
        rw [if_pos hempty, hempty, hunseen, List.nil_append]
      · rw [if_neg hempty, hvis.mpr hempty, if_neg (by simp), List.nil_append,
          List.prefix_append_right_inj]
    rw [← hspread]
    constructor
    · rintro ⟨k, hstart', hocc⟩
      rw [hk] at hstart'
      obtain rfl := Int.ofNat.inj (Option.some.inj hstart')
      exact (occursAt_iff.mp hocc).2
    · intro hpre
      exact ⟨_, hk, occursAt_iff.mpr ⟨hle, hpre⟩⟩

end LocalRag.Chunking
