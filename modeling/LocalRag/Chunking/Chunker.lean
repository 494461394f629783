import LocalRag.Chunking.Cut

/-!
# The chunker — from pages to drafts

Mirrors `DocumentChunker` (`app/services/chunking.py`): `_units` cuts a page into units and
finds each in the normalized page, `_pack` fills chunks with units, repeating the end
of one chunk at the start of the next (`_overlap`), `_render` joins the units with
blank lines, and `chunk` anchors every chunk in its page.

Mirroring notes.
* NFKC, SHA-256 and the name-based identifier are parameters, and so is the answer of
  `_validate_ocr_regions` on one rectangle, which is floating point.
* A page with blocks (OCR) has no offsets: its units carry the rectangle of the block.
-/

namespace LocalRag.Chunking

open LocalRag.Core Highlight

variable {ρ : Type}

structure ParsedBlock (ρ : Type) where
  text : List Char
  region : ρ

structure ParsedFragment (ρ : Type) where
  parseMethod : ParseMethod
  text : List Char
  blocks : List (ParsedBlock ρ)

structure ParsedPage (ρ : Type) where
  pageNumber : Nat
  text : List Char
  parseMethod : ParseMethod
  blocks : List (ParsedBlock ρ)
  fragments : List (ParsedFragment ρ)

/-- `_Unit`. -/
structure Unit (ρ : Type) where
  text : List Char
  sectionName : Option (List Char)
  regions : List ρ
  start : Option Int
  stop : Option Int

/-- The constructor's arguments, within the bounds it checks. -/
structure DocumentChunker where
  targetTokens : Nat
  maxTokens : Nat
  overlapTokens : Nat
  overlap_lt : overlapTokens < targetTokens
  target_le : targetTokens ≤ maxTokens
  parserVersion : String
  chunkingVersion : String
  embeddingVersion : String
  schemaVersion : String

/-- A packed chunk: its text, its section and its units. -/
structure Packed (ρ : Type) where
  text : List Char
  sectionName : Option (List Char)
  units : List (Unit ρ)

/-! ## `_units` -/

/-- `_fragment_pages`. -/
def fragmentPages (page : ParsedPage ρ) : List (ParsedPage ρ) :=
  if page.fragments = [] then [page]
  else (page.fragments.filter fun fragment => stripped fragment.text ≠ []).map fun fragment =>
    ⟨page.pageNumber, fragment.text, fragment.parseMethod, fragment.blocks, []⟩

/-- The heading a paragraph sets: `paragraph[2:].strip() or section`. -/
def sectionAfter (sectionName : Option (List Char)) (paragraph : List Char) :
    Option (List Char) :=
  if "# ".toList <+: paragraph ∧ stripped (paragraph.drop 2) ≠ [] then
    some (stripped (paragraph.drop 2))
  else sectionName

/-- The loop over the parts of a paragraph: each is found at or after the cursor, which moves
behind it. -/
def partUnits (nfkc : List Char → List Char) (normalizedPage : List Char) (hasBlocks : Bool)
    (sectionName : Option (List Char)) (regions : List ρ) :
    Nat → List (List Char) → Except String (List (Unit ρ) × Nat)
  | cursor, [] => .ok ([], cursor)
  | cursor, part :: parts =>
    if hasBlocks then
      (partUnits nfkc normalizedPage hasBlocks sectionName regions cursor parts).map fun r =>
        (⟨part, sectionName, regions, none, none⟩ :: r.1, r.2)
    else
      match findFrom (normalizeHighlightText nfkc part) normalizedPage cursor with
      | none => .error "chunk unit does not map to source page"
      | some start =>
        (partUnits nfkc normalizedPage hasBlocks sectionName regions
          (start + (normalizeHighlightText nfkc part).length) parts).map fun r =>
            (⟨part, sectionName, regions, some start,
              some (start + (normalizeHighlightText nfkc part).length)⟩ :: r.1, r.2)

/-- The loop over the paragraphs. -/
def paragraphUnits (w : WordClass) (nfkc : List Char → List Char) (maxTokens : Nat)
    (normalizedPage : List Char) (hasBlocks : Bool) :
    Option (List Char) → Nat → List (List Char × List ρ) → Except String (List (Unit ρ))
  | _, _, [] => .ok []
  | sectionName, cursor, (paragraph, regions) :: rest =>
    if stripped paragraph = [] then
      paragraphUnits w nfkc maxTokens normalizedPage hasBlocks sectionName cursor rest
    else
      (partUnits nfkc normalizedPage hasBlocks (sectionAfter sectionName (stripped paragraph))
        regions cursor
        ((sentences (stripped paragraph)).flatMap (splitOversized w maxTokens))).bind fun r =>
          (paragraphUnits w nfkc maxTokens normalizedPage hasBlocks
            (sectionAfter sectionName (stripped paragraph)) r.2 rest).map (r.1 ++ ·)

/-- `_units`. -/
def units (w : WordClass) (nfkc : List Char → List Char) (chunker : DocumentChunker)
    (page : ParsedPage ρ) : Except String (List (Unit ρ)) :=
  paragraphUnits w nfkc chunker.maxTokens (normalizeHighlightText nfkc page.text)
    (page.blocks ≠ []) none 0
    (if page.blocks ≠ [] then page.blocks.map fun block => (block.text, [block.region])
    else (reSplit paragraphBreak (stripped page.text)).map fun paragraph => (paragraph, []))

/-! ## `_pack` -/

/-- `"\n\n".join(…)`. -/
def joined (texts : List (List Char)) : List Char := ['\n', '\n'].intercalate texts

/-- `_render`. -/
def render (us : List (Unit ρ)) : Packed ρ where
  text := stripped (joined (us.map (·.text)))
  sectionName := us.reverse.findSome? (·.sectionName)
  units := us

/-- The end of a unit, from its last `overlapTokens` tokens on. -/
def suffixText (w : WordClass) (overlapTokens : Nat) (text : List Char) : List Char :=
  stripped (text.drop
    (((tokens w text).drop ((tokens w text).length - overlapTokens)).head?.map (·.1) |>.getD 0))

def suffixUnit (w : WordClass) (nfkc : List Char → List Char) (overlapTokens : Nat)
    (unit : Unit ρ) : Unit ρ where
  text := suffixText w overlapTokens unit.text
  sectionName := unit.sectionName
  regions := unit.regions
  start := unit.stop.map fun stop =>
    stop - (normalizeHighlightText nfkc (suffixText w overlapTokens unit.text)).length
  stop := unit.stop

/-- The loop of `_overlap`, over the units from the last one on. -/
def overlapLoop (w : WordClass) (nfkc : List Char → List Char) (overlapTokens : Nat) :
    List (Unit ρ) → List (Unit ρ) → Nat → List (Unit ρ)
  | [], selected, _ => selected
  | unit :: rest, selected, total =>
    if selected ≠ [] ∧ overlapTokens < total + countTokens w unit.text then selected
    else if overlapTokens < countTokens w unit.text then [suffixUnit w nfkc overlapTokens unit]
    else overlapLoop w nfkc overlapTokens rest (unit :: selected)
      (total + countTokens w unit.text)

/-- `_overlap`. -/
def overlap (w : WordClass) (nfkc : List Char → List Char) (overlapTokens : Nat)
    (us : List (Unit ρ)) : List (Unit ρ) :=
  if overlapTokens = 0 then [] else overlapLoop w nfkc overlapTokens us.reverse [] 0

/-- What the loop of `_pack` carries. -/
structure Packing (ρ : Type) where
  chunks : List (Packed ρ)
  current : List (Unit ρ)
  currentTokens : Nat

def Packing.start (ρ : Type) : Packing ρ := ⟨[], [], 0⟩

/-- After a chunk is full: the overlap, or nothing if it leaves no room for the unit. -/
def carried (w : WordClass) (nfkc : List Char → List Char) (chunker : DocumentChunker)
    (current : List (Unit ρ)) (unit : Unit ρ) : List (Unit ρ) :=
  if chunker.maxTokens <
      countTokens w (joined ((overlap w nfkc chunker.overlapTokens current).map (·.text))) +
        countTokens w unit.text then []
  else overlap w nfkc chunker.overlapTokens current

/-- One round of `_pack`. -/
def packStep (w : WordClass) (nfkc : List Char → List Char) (chunker : DocumentChunker)
    (s : Packing ρ) (unit : Unit ρ) : Packing ρ :=
  if s.current ≠ [] ∧ chunker.targetTokens < s.currentTokens + countTokens w unit.text then
    { chunks := s.chunks ++ [render s.current]
      current := carried w nfkc chunker s.current unit ++ [unit]
      currentTokens :=
        countTokens w (joined ((carried w nfkc chunker s.current unit).map (·.text))) +
          countTokens w unit.text }
  else
    { s with
      current := s.current ++ [unit]
      currentTokens := s.currentTokens + countTokens w unit.text }

/-- After the loop: the last chunk, unless it repeats the one before. -/
def Packing.finish (s : Packing ρ) : List (Packed ρ) :=
  if s.current ≠ [] ∧ s.chunks.getLast?.map (·.text) ≠ some (render s.current).text then
    s.chunks ++ [render s.current]
  else s.chunks

/-- `_pack`. -/
def pack (w : WordClass) (nfkc : List Char → List Char) (chunker : DocumentChunker)
    (us : List (Unit ρ)) : List (Packed ρ) :=
  (run (packStep w nfkc chunker) (Packing.start ρ) us).finish

/-! ## `chunk` -/

/-- The anchor of a chunk: a quotation, or the rectangles of an OCR page. -/
inductive ChunkAnchor (ρ : Type) where
  | textQuote (anchor : HighlightAnchor)
  | ocrRegions (page : Nat) (regions : List ρ)

/-- `MAX_REGIONS_PER_PAGE`. -/
def MAX_REGIONS_PER_PAGE : Nat := 256

/-- `ocr_regions_anchor`; `regionError` is what a rectangle is refused for. -/
def ocrRegionsAnchor [DecidableEq ρ] (regionError : ρ → Option String) (page : Nat)
    (regions : List ρ) : Except String (ChunkAnchor ρ) :=
  if regions.eraseDups = [] ∨ MAX_REGIONS_PER_PAGE < regions.eraseDups.length then
    .error "invalid OCR highlight regions"
  else
    match regions.eraseDups.findSome? regionError with
    | some error => .error error
    | none => .ok (.ocrRegions page regions.eraseDups)

structure ChunkDraft (ρ : Type) where
  id : ChunkId
  documentId : DocumentId
  ordinal : Nat
  filename : String
  pageStart : Nat
  pageEnd : Nat
  sectionName : Option (List Char)
  text : List Char
  tokenCount : Nat
  textSha256 : List Char
  sourceSha256 : List Char
  parseMethod : ParseMethod
  parserVersion : String
  chunkingVersion : String
  embeddingVersion : String
  schemaVersion : String
  citationLabel : String
  highlightAnchor : ChunkAnchor ρ

/-- What a chunking run asks of the libraries, and the document it is about. -/
structure ChunkContext (ρ : Type) where
  word : WordClass
  nfkc : List Char → List Char
  sha256 : List Char → List Char
  /-- `chunk_uuid`, for a document, an ordinal, a page, a digest and a schema version. -/
  chunkUuid : DocumentId → Nat → Nat → List Char → String → ChunkId
  regionError : ρ → Option String
  documentId : DocumentId
  filename : String
  sourceSha256 : List Char

variable [DecidableEq ρ]

def anchorOf (ctx : ChunkContext ρ) (page : ParsedPage ρ) (chunk : Packed ρ) :
    Except String (ChunkAnchor ρ) :=
  if page.parseMethod = .ocr then
    ocrRegionsAnchor ctx.regionError page.pageNumber (chunk.units.flatMap (·.regions))
  else
    (textQuoteAnchor ctx.nfkc ctx.sha256 page.pageNumber page.text chunk.text
      (chunk.units.head?.bind (·.start))).map .textQuote

def draftOf (ctx : ChunkContext ρ) (chunker : DocumentChunker) (page : ParsedPage ρ)
    (ordinal : Nat) (chunk : Packed ρ) (anchor : ChunkAnchor ρ) : ChunkDraft ρ where
  id := ctx.chunkUuid ctx.documentId ordinal page.pageNumber (ctx.sha256 chunk.text)
    chunker.schemaVersion
  documentId := ctx.documentId
  ordinal := ordinal
  filename := ctx.filename
  pageStart := page.pageNumber
  pageEnd := page.pageNumber
  sectionName := chunk.sectionName
  text := chunk.text
  tokenCount := countTokens ctx.word chunk.text
  textSha256 := ctx.sha256 chunk.text
  sourceSha256 := ctx.sourceSha256
  parseMethod := page.parseMethod
  parserVersion := chunker.parserVersion
  chunkingVersion := chunker.chunkingVersion
  embeddingVersion := chunker.embeddingVersion
  schemaVersion := chunker.schemaVersion
  citationLabel := s!"p{page.pageNumber}:c{ordinal}"
  highlightAnchor := anchor

/-- The chunks of one page, numbered from `ordinal` on. -/
def draftChunks (ctx : ChunkContext ρ) (chunker : DocumentChunker) (page : ParsedPage ρ) :
    Nat → List (Packed ρ) → Except String (List (ChunkDraft ρ))
  | _, [] => .ok []
  | ordinal, chunk :: rest =>
    (anchorOf ctx page chunk).bind fun anchor =>
      (draftChunks ctx chunker page (ordinal + 1) rest).map
        (draftOf ctx chunker page ordinal chunk anchor :: ·)

/-- The pages one after the other. -/
def chunkPages (ctx : ChunkContext ρ) (chunker : DocumentChunker) :
    Nat → List (ParsedPage ρ) → Except String (List (ChunkDraft ρ))
  | _, [] => .ok []
  | ordinal, page :: rest =>
    (units ctx.word ctx.nfkc chunker page).bind fun us =>
      (draftChunks ctx chunker page ordinal (pack ctx.word ctx.nfkc chunker us)).bind fun drafts =>
        (chunkPages ctx chunker (ordinal + drafts.length) rest).map (drafts ++ ·)

/-- `DocumentChunker.chunk`. -/
def chunk (ctx : ChunkContext ρ) (chunker : DocumentChunker) (pages : List (ParsedPage ρ)) :
    Except String (List (ChunkDraft ρ)) :=
  chunkPages ctx chunker 0 (pages.flatMap fragmentPages)

end LocalRag.Chunking
