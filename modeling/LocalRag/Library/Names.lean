import LocalRag.Core.Text

/-!
# Names — one canonical form for a library name

`normalize_library_name` of `services/library.py`, the function every folder
name, rename and upload goes through: trim, compose, refuse what a path or a
terminal would misread, and derive the key the siblings are unique by.

Composition, folding and categories are Unicode's, so they are a parameter here,
`Unicode`, and what is asked of them is `Unicode.Lawful`: each field is a
sentence of the standard or a fact of its character database, none is about names.

The form is canonical (`normalizeLibraryName_idem`): composing leaves the ends of
a text alone as far as white space goes, so the trimmed name stays trimmed, and
every later check reads the name it already passed. The key identifies the names
whose case foldings are canonically equivalent. That is the standard's caseless
match for every name without the iota subscript, U+0345; with it, the standard
decomposes before it folds and the code does not, and two names it would match
keep two keys.

Mirroring notes. A text is a sequence of scalar values, so the category `Cs` of
lone surrogates is named but never met.
-/

namespace LocalRag.Library

open LocalRag.Core

/-- `unicodedata.category`, the three values the code names. -/
inductive Category where
  | control
  | format
  | surrogate
  | other
deriving Repr, DecidableEq

/-- The functions of `unicodedata` and `str.casefold`. -/
structure Unicode where
  nfc : String → String
  nfd : String → String
  casefold : String → String
  category : Char → Category

namespace Unicode

variable {u : Unicode}

/-- U+0345, the one character that folds to a starter. -/
def iotaSubscript : Char := Char.ofNat 0x345

/-- The iota subscript is in the text, on its own or inside a composed letter. -/
def hasIotaSubscript (u : Unicode) (s : String) : Bool := (u.nfd s).toList.contains iotaSubscript

/-- Canonically equivalent texts. -/
def Equivalent (u : Unicode) (s t : String) : Prop := u.nfd s = u.nfd t

/-- The canonical caseless match: equal up to canonical equivalence and case. -/
def Caseless (u : Unicode) (s t : String) : Prop :=
  u.Equivalent (u.casefold (u.nfd s)) (u.casefold (u.nfd t))

/-- What the standard promises of the four functions. -/
structure Lawful (u : Unicode) : Prop where
  nfc_nfc (s : String) : u.nfc (u.nfc s) = u.nfc s
  /-- Both forms decide canonical equivalence. -/
  nfc_eq_iff (s t : String) : u.nfc s = u.nfc t ↔ u.nfd s = u.nfd t
  nfd_nfd (s : String) : u.nfd (u.nfd s) = u.nfd s
  /-- White space decomposes to white space, nothing else does, and it neither
  composes nor moves. -/
  head_nfc (s : String) : (u.nfc s).toList.head?.map isSpace = s.toList.head?.map isSpace
  last_nfc (s : String) : (u.nfc s).toList.getLast?.map isSpace = s.toList.getLast?.map isSpace
  /-- Every character folds to at least one. -/
  casefold_ne (s : String) : s ≠ "" → u.casefold s ≠ ""
  /-- The null character is a control, and neither function makes or loses it. -/
  null_control : u.category (Char.ofNat 0) = .control
  null_nfc (s : String) : Char.ofNat 0 ∈ (u.nfc s).toList ↔ Char.ofNat 0 ∈ s.toList
  null_casefold (s : String) : Char.ofNat 0 ∈ (u.casefold s).toList ↔ Char.ofNat 0 ∈ s.toList
  /-- Decomposing first is only needed for the iota subscript. -/
  casefold_nfd (s : String) : u.hasIotaSubscript s = false →
    u.Equivalent (u.casefold (u.nfd s)) (u.casefold s)

end Unicode

/-! ## The code -/

/-- `InvalidLibraryName`. -/
structure InvalidLibraryName where
  message : String
deriving Repr, DecidableEq

/-- `normalize_library_name`: the name and its key. -/
def normalizeLibraryName (u : Unicode) (value : String) :
    Except InvalidLibraryName (String × String) :=
  let name := u.nfc (strip value)
  if name = "" ∨ name = "." ∨ name = ".." then
    .error ⟨"name must not be empty, '.' or '..'"⟩
  else if '/' ∈ name.toList ∨ '\\' ∈ name.toList then
    .error ⟨"name must not contain path separators"⟩
  else if 255 < name.length then
    .error ⟨"name exceeds 255 characters"⟩
  else if name.toList.any fun c =>
      u.category c = .control ∨ u.category c = .format ∨ u.category c = .surrogate then
    .error ⟨"name contains a control, format, or surrogate character"⟩
  else
    let nameKey := u.nfc (u.casefold name)
    if 1024 < nameKey.utf8ByteSize then
      .error ⟨"case-folded name exceeds 1024 UTF-8 bytes"⟩
    else
      .ok (name, nameKey)

/-! ## Trimming -/

/-- White space at neither end. -/
def Trimmed (s : String) : Prop :=
  s.toList.head?.map isSpace ≠ some true ∧ s.toList.getLast?.map isSpace ≠ some true

variable {p : α → Bool}

theorem dropWhile_of_head {as : List α} (h : as.head?.map p ≠ some true) : as.dropWhile p = as := by
  cases as with
  | nil => rfl
  | cons a as => exact List.dropWhile_cons_of_neg (by simpa using h)

theorem head_dropWhile (as : List α) : (as.dropWhile p).head?.map p ≠ some true := by
  intro h
  obtain ⟨a, ha, hp⟩ := Option.map_eq_some_iff.1 h
  have hfalse := List.head?_dropWhile_not p as
  rw [ha] at hfalse
  simp_all

/-- Nothing to trim: `strip` is the identity. -/
theorem strip_of_trimmed {s : String} (h : Trimmed s) : strip s = s := by
  obtain ⟨hhead, hlast⟩ := h
  unfold strip
  rw [dropWhile_of_head hhead, dropWhile_of_head (by rwa [List.head?_reverse]),
    List.reverse_reverse, String.ofList_toList]

/-- A prefix of a list with a clean head has a clean head. -/
theorem head_of_prefix {as bs : List α} (hpre : as <+: bs) (h : bs.head?.map p ≠ some true) :
    as.head?.map p ≠ some true := by
  obtain ⟨rest, rfl⟩ := hpre
  cases as with
  | nil => simp
  | cons a as => simpa using h

/-- What `strip` returns has white space at neither end. -/
theorem strip_trimmed (s : String) : Trimmed (strip s) := by
  have hsuffix := List.dropWhile_suffix isSpace (l := (s.toList.dropWhile isSpace).reverse)
  constructor
  · refine head_of_prefix ?_ (head_dropWhile (p := isSpace) s.toList)
    simpa [strip] using List.reverse_prefix.2 hsuffix
  · simpa [strip] using head_dropWhile (p := isSpace) (s.toList.dropWhile isSpace).reverse

/-- Composing a trimmed text leaves it trimmed. -/
theorem Unicode.Lawful.nfc_trimmed {u : Unicode} (hu : u.Lawful) {s : String} (h : Trimmed s) :
    Trimmed (u.nfc s) :=
  ⟨by rw [hu.head_nfc]; exact h.1, by rw [hu.last_nfc]; exact h.2⟩

/-! ## What is accepted -/

/-- The checks the accepted name passed, with what it and its key come from. -/
structure Normalized (u : Unicode) (value name nameKey : String) : Prop where
  name_eq : name = u.nfc (strip value)
  key_eq : nameKey = u.nfc (u.casefold name)
  not_reserved : ¬ (name = "" ∨ name = "." ∨ name = "..")
  no_separator : ¬ ('/' ∈ name.toList ∨ '\\' ∈ name.toList)
  length_le : name.length ≤ 255
  printable : ∀ c ∈ name.toList,
    u.category c ≠ .control ∧ u.category c ≠ .format ∧ u.category c ≠ .surrogate
  key_bytes : nameKey.utf8ByteSize ≤ 1024

/-- The function accepts exactly what passes its checks. -/
theorem normalizeLibraryName_ok_iff {u : Unicode} {value name nameKey : String} :
    normalizeLibraryName u value = .ok (name, nameKey) ↔ Normalized u value name nameKey := by
  constructor
  · intro h
    unfold normalizeLibraryName at h
    simp only at h
    split at h
    · cases h
    next hreserved =>
    split at h
    · cases h
    next hseparator =>
    split at h
    · cases h
    next hlength =>
    split at h
    · cases h
    next hcategory =>
    split at h
    · cases h
    next hbytes =>
    cases h
    exact
      { name_eq := rfl
        key_eq := rfl
        not_reserved := hreserved
        no_separator := hseparator
        length_le := by omega
        printable := by simpa [not_or] using hcategory
        key_bytes := by omega }
  · rintro ⟨rfl, rfl, hreserved, hseparator, hlength, hcategory, hbytes⟩
    have hprintable : ¬ ((u.nfc (strip value)).toList.any fun c =>
        u.category c = .control ∨ u.category c = .format ∨ u.category c = .surrogate) = true := by
      simpa [not_or] using hcategory
    unfold normalizeLibraryName
    simp only
    rw [if_neg hreserved, if_neg hseparator, if_neg (by omega), if_neg hprintable,
      if_neg (by omega)]

/-- An accepted name is its own canonical form, under the same key. -/
theorem normalizeLibraryName_idem {u : Unicode} (hu : u.Lawful) {value name nameKey : String}
    (h : normalizeLibraryName u value = .ok (name, nameKey)) :
    normalizeLibraryName u name = .ok (name, nameKey) := by
  rw [normalizeLibraryName_ok_iff] at h ⊢
  have htrimmed : Trimmed name := by
    rw [h.name_eq]
    exact hu.nfc_trimmed (strip_trimmed value)
  have hcomposed : u.nfc (strip name) = name := by
    rw [strip_of_trimmed htrimmed, h.name_eq]
    exact hu.nfc_nfc (strip value)
  exact { h with name_eq := hcomposed.symm }

/-! ## The key -/

section Keys

variable {u : Unicode} {value value' name name' nameKey nameKey' : String}

/-- Two keys are one when the case foldings are canonically equivalent. -/
theorem key_eq_iff_equivalent (hu : u.Lawful)
    (h : normalizeLibraryName u value = .ok (name, nameKey))
    (h' : normalizeLibraryName u value' = .ok (name', nameKey')) :
    nameKey = nameKey' ↔ u.Equivalent (u.casefold name) (u.casefold name') := by
  rw [(normalizeLibraryName_ok_iff.1 h).key_eq, (normalizeLibraryName_ok_iff.1 h').key_eq]
  exact hu.nfc_eq_iff _ _

/-- Without the iota subscript that is the standard's caseless match. -/
theorem equivalent_iff_caseless (hu : u.Lawful) (hname : u.hasIotaSubscript name = false)
    (hname' : u.hasIotaSubscript name' = false) :
    u.Equivalent (u.casefold name) (u.casefold name') ↔ u.Caseless name name' := by
  have hfold : u.Equivalent (u.casefold (u.nfd name)) (u.casefold name) :=
    hu.casefold_nfd name hname
  have hfold' : u.Equivalent (u.casefold (u.nfd name')) (u.casefold name') :=
    hu.casefold_nfd name' hname'
  unfold Unicode.Caseless Unicode.Equivalent at *
  rw [hfold, hfold']

end Keys

/-! ## A small repertoire

The functions as they are on ASCII and on one letter with an iota subscript and a
dot below, in its two canonical spellings. -/

/-- Alpha with iota subscript, dot below: the composed spelling. -/
def subscriptName : String := String.ofList [Char.ofNat 0x1fb3, Char.ofNat 0x323]

/-- The decomposed spelling; the marks stand in the order of their classes. -/
def subscriptNfd : String := String.ofList [Char.ofNat 0x3b1, Char.ofNat 0x323, Char.ofNat 0x345]

/-- The composed spelling folded: the iota becomes a letter before the dot. -/
def foldedName : String := String.ofList [Char.ofNat 0x3b1, Char.ofNat 0x3b9, Char.ofNat 0x323]

/-- The decomposed spelling folded: alpha, dot below, iota. -/
def foldedNfd : String := String.ofList [Char.ofNat 0x3b1, Char.ofNat 0x323, Char.ofNat 0x3b9]

/-- The repertoire's functions. -/
def repertoire : Unicode where
  nfc s := if s = subscriptNfd then subscriptName else s
  nfd s := if s = subscriptName then subscriptNfd else s
  casefold s :=
    if s = subscriptName then foldedName
    else if s = subscriptNfd then foldedNfd
    else String.ofList (s.toList.map Char.toLower)
  category c := if c.toNat < 0x20 ∨ c.toNat = 0x7f then .control else .other

/-- Lower-casing neither makes nor loses the null character. -/
theorem toLower_eq_null (c : Char) : c.toLower = Char.ofNat 0 ↔ c = Char.ofNat 0 := by
  unfold Char.toLower
  split
  next hupper =>
    -- an upper-case letter is not null, and 32 above one neither
    have hlow : 'A'.val ≤ c.val := hupper.1
    constructor
    · intro h
      have hval : c.val + ('a'.val - 'A'.val) = (Char.ofNat 0).val := congrArg Char.val h
      have hhigh : c.val ≤ 'Z'.val := hupper.2
      rw [UInt32.le_iff_toNat_le] at hlow hhigh
      have hnat := congrArg UInt32.toNat hval
      rw [UInt32.toNat_add] at hnat
      simp at hlow hhigh hnat
      omega
    · rintro rfl
      exact absurd hlow (by decide)
  next => rfl

theorem repertoire_nfc (s : String) :
    repertoire.nfc s = if s = subscriptNfd then subscriptName else s := rfl

theorem repertoire_nfd (s : String) :
    repertoire.nfd s = if s = subscriptName then subscriptNfd else s := rfl

theorem repertoire_casefold (s : String) :
    repertoire.casefold s =
      if s = subscriptName then foldedName
      else if s = subscriptNfd then foldedNfd
      else String.ofList (s.toList.map Char.toLower) := rfl

theorem subscriptName_ne_subscriptNfd : subscriptName ≠ subscriptNfd := by decide

theorem repertoire_lawful : repertoire.Lawful where
  nfc_nfc s := by
    have hne := subscriptName_ne_subscriptNfd
    simp only [repertoire_nfc]
    split <;> simp_all
  nfc_eq_iff s t := by
    have hne := subscriptName_ne_subscriptNfd
    simp only [repertoire_nfc, repertoire_nfd]
    grind
  nfd_nfd s := by
    have hne := subscriptName_ne_subscriptNfd
    simp only [repertoire_nfd]
    split <;> simp_all
  head_nfc s := by
    rw [repertoire_nfc]
    split
    next h => subst h; decide
    next => rfl
  last_nfc s := by
    rw [repertoire_nfc]
    split
    next h => subst h; decide
    next => rfl
  casefold_ne s hs := by
    rw [repertoire_casefold]
    split
    · decide
    · split
      · decide
      · intro hempty
        have hchars := congrArg String.toList hempty
        simp only [String.toList_ofList, String.toList_empty, List.map_eq_nil_iff] at hchars
        exact hs (String.toList_eq_nil_iff.1 hchars)
  null_control := by decide
  null_nfc s := by
    rw [repertoire_nfc]
    split
    next h => subst h; decide
    next => rfl
  null_casefold s := by
    rw [repertoire_casefold]
    split
    next h => subst h; decide
    next =>
      split
      next h => subst h; decide
      next => simp [toLower_eq_null]
  casefold_nfd s hs := by
    have hne : s ≠ subscriptName := by
      rintro rfl
      exact absurd hs (by decide)
    unfold Unicode.Equivalent
    rw [repertoire_nfd s, if_neg hne]

/-- A library name has one canonical form: an accepted name normalizes to itself
with the same key, two accepted texts get one key exactly when the case foldings
of their names are canonically equivalent, and where neither name has an iota
subscript, exactly when the names are a canonical caseless match. -/
theorem normalizeLibraryName_canonical {u : Unicode} (hu : u.Lawful) :
    (∀ {value name nameKey : String}, normalizeLibraryName u value = .ok (name, nameKey) →
      normalizeLibraryName u name = .ok (name, nameKey)) ∧
    ∀ {value value' name name' nameKey nameKey' : String},
      normalizeLibraryName u value = .ok (name, nameKey) →
      normalizeLibraryName u value' = .ok (name', nameKey') →
      (nameKey = nameKey' ↔ u.Equivalent (u.casefold name) (u.casefold name')) ∧
      (u.hasIotaSubscript name = false → u.hasIotaSubscript name' = false →
        (nameKey = nameKey' ↔ u.Caseless name name')) := by
  refine ⟨normalizeLibraryName_idem hu, fun {_ _ _ _ _ _} h h' => ?_⟩
  have hkey := key_eq_iff_equivalent hu h h'
  exact ⟨hkey, fun hn hn' => hkey.trans (equivalent_iff_caseless hu hn hn')⟩

/-- The name of a file, typed with blanks around it and in another case. -/
theorem normalizeLibraryName_canonical_report :
    normalizeLibraryName repertoire "Report.PDF" = .ok ("Report.PDF", "report.pdf") ∧
      ("report.pdf" = "report.pdf" ↔ repertoire.Caseless "Report.PDF" "REPORT.pdf") :=
  have htyped : normalizeLibraryName repertoire "  Report.PDF " =
      .ok ("Report.PDF", "report.pdf") := by decide +kernel
  have hother : normalizeLibraryName repertoire "REPORT.pdf" =
      .ok ("REPORT.pdf", "report.pdf") := by decide +kernel
  have hcanonical := normalizeLibraryName_canonical repertoire_lawful
  ⟨hcanonical.1 htyped, (hcanonical.2 htyped hother).2 (by decide) (by decide)⟩

/-- Two spellings the standard matches and the key does not: where the iota stands
after folding depends on whether the letter was decomposed first. -/
theorem subscriptName_two_keys :
    normalizeLibraryName repertoire subscriptName = .ok (subscriptName, foldedName) ∧
      normalizeLibraryName repertoire foldedNfd = .ok (foldedNfd, foldedNfd) ∧
      repertoire.Caseless subscriptName foldedNfd ∧ foldedName ≠ foldedNfd := by
  refine ⟨by decide +kernel, by decide +kernel, ?_, by decide⟩
  unfold Unicode.Caseless Unicode.Equivalent
  decide +kernel

end LocalRag.Library
