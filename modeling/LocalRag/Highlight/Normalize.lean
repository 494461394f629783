import LocalRag.Core.Squeeze
import LocalRag.Core.Text

/-!
# Highlight text — one normal form, written twice

A citation is stored as a quotation of normalised page text and is looked up again
by the browser in text it normalised itself. Mirrors `normalize_highlight_text`
(`highlight_anchors.py`) and `normalizeHighlightText` (`pdf-highlight.ts`): NFKC,
soft hyphens out, every run of white space one blank, the ends trimmed.

Both are `normalizeBy`, applied to what each language calls white space. NFKC is
a parameter: it is the same table on both sides.

- `normalize_agree`: the two agree on a text exactly if its NFKC form has none
  of the six characters only one of the languages counts as white space. Python
  counts the four separators and the next-line control, JavaScript the byte
  order mark.
-/

namespace LocalRag.Highlight

open LocalRag.Core

/-- What `\s` and `trim` of JavaScript match. -/
def jsSpaces : List Nat :=
  [0x09, 0x0a, 0x0b, 0x0c, 0x0d, 0x20, 0xa0, 0x1680,
    0x2000, 0x2001, 0x2002, 0x2003, 0x2004, 0x2005, 0x2006, 0x2007, 0x2008, 0x2009, 0x200a,
    0x2028, 0x2029, 0x202f, 0x205f, 0x3000, 0xfeff]

def isJsSpace (c : Char) : Bool := c.toNat ∈ jsSpaces

/-- U+00AD. -/
def softHyphen : Char := Char.ofNat 0xad

/-- NFKC without its soft hyphens. -/
def bare (nfkc : List Char → List Char) (value : List Char) : List Char :=
  (nfkc value).filter (· ≠ softHyphen)

variable (space : Char → Bool) (nfkc : List Char → List Char)

/-- The normal form under a notion of white space. -/
def normalizeBy (value : List Char) : List Char :=
  trim space (collapse space false (bare nfkc value))

/-- `normalize_highlight_text`, with Python's white space. -/
def normalizeHighlightText : List Char → List Char := normalizeBy isSpace nfkc

/-- `normalizeHighlightText` of the web client, with JavaScript's. -/
def webNormalizeHighlightText : List Char → List Char := normalizeBy isJsSpace nfkc

variable {space nfkc}

/-- The normal form as one scan. -/
theorem normalizeBy_eq_squeeze (hblank : space ' ' = true) (value : List Char) :
    normalizeBy space nfkc value = squeeze space (bare nfkc value) :=
  squeeze_eq_trim_collapse hblank _

theorem normalizeHighlightText_eq (value : List Char) :
    normalizeHighlightText nfkc value = squeeze isSpace (bare nfkc value) :=
  normalizeBy_eq_squeeze (by decide) value

theorem webNormalizeHighlightText_eq (value : List Char) :
    webNormalizeHighlightText nfkc value = squeeze isJsSpace (bare nfkc value) :=
  normalizeBy_eq_squeeze (by decide) value

/-! ## The two notions of white space -/

/-- The characters one language counts as white space and the other does not: the
file, group, record and unit separators, the next-line control and the byte order
mark. -/
def disputedSpaces : List Nat := [0x1c, 0x1d, 0x1e, 0x1f, 0x85, 0xfeff]

/-- What a table says of each of its entries it says of a character in it. -/
theorem of_mem_table {table : List Nat} {P : Nat → Prop} {n : Nat}
    (hn : decide (n ∈ table) = true) (h : ∀ m ∈ table, P m) : P n :=
  h n (of_decide_eq_true hn)

/-- The languages differ on a character exactly if it is one of the six. -/
theorem isSpace_ne_isJsSpace {c : Char} :
    isSpace c ≠ isJsSpace c ↔ c.toNat ∈ disputedSpaces := by
  constructor
  · intro hne
    have hentry : isSpace (Char.ofNat c.toNat) = isJsSpace (Char.ofNat c.toNat) ∨
        c.toNat ∈ disputedSpaces := by
      by_cases hpy : isSpace c = true
      · exact of_mem_table (P := fun n => isSpace (Char.ofNat n) = isJsSpace (Char.ofNat n) ∨
          n ∈ disputedSpaces) hpy (by decide)
      · have hjs : isJsSpace c = true := by
          by_contra hjs
          exact hne (by simp [hpy, hjs])
        exact of_mem_table (P := fun n => isSpace (Char.ofNat n) = isJsSpace (Char.ofNat n) ∨
          n ∈ disputedSpaces) hjs (by decide)
    rw [Char.ofNat_toNat] at hentry
    exact hentry.resolve_left hne
  · intro hc
    have hentry : isSpace (Char.ofNat c.toNat) ≠ isJsSpace (Char.ofNat c.toNat) :=
      of_mem_table (P := fun n => isSpace (Char.ofNat n) ≠ isJsSpace (Char.ofNat n))
        (decide_eq_true hc) (by decide)
    rwa [Char.ofNat_toNat] at hentry

/-- A soft hyphen is none of them, so removing it does not matter here. -/
theorem mem_bare {value : List Char} {c : Char} (hc : c.toNat ∈ disputedSpaces) :
    c ∈ bare nfkc value ↔ c ∈ nfkc value := by
  have hne : c ≠ softHyphen := by
    rintro rfl
    exact absurd hc (by decide)
  simp [bare, hne]

theorem normalize_agree (nfkc : List Char → List Char) (value : List Char) :
    normalizeHighlightText nfkc value = webNormalizeHighlightText nfkc value ↔
      ∀ c ∈ nfkc value, c.toNat ∉ disputedSpaces := by
  rw [normalizeHighlightText_eq, webNormalizeHighlightText_eq]
  constructor
  · intro heq c hc hdisputed
    -- the character survives the scan that takes it for a letter, and only that one
    have hblank : c ≠ ' ' := by
      rintro rfl
      exact absurd hdisputed (by decide)
    have hmem : c ∈ bare nfkc value := (mem_bare hdisputed).mpr hc
    have hboth := @mem_squeeze isSpace (bare nfkc value) _ hblank
    rw [heq, mem_squeeze hblank] at hboth
    have hne := isSpace_ne_isJsSpace.mpr hdisputed
    cases hpy : isSpace c <;> cases hjs : isJsSpace c <;> simp_all
  · intro h
    apply squeezeFrom_congr
    intro c hc
    by_contra hne
    have hdisputed := isSpace_ne_isJsSpace.mp hne
    exact h c ((mem_bare hdisputed).mp hc) hdisputed

/-- A unit separator between two words: the server takes it for a blank, the browser
for a letter. -/
theorem normalize_disagree :
    normalizeHighlightText id ['a', Char.ofNat 0x1f, 'b']
      ≠ webNormalizeHighlightText id ['a', Char.ofNat 0x1f, 'b'] := by
  decide

end LocalRag.Highlight
