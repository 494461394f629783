import LocalRag.Core.Text

/-!
# Pure paths

`str.split` with a separator of one character, and what `PurePosixPath` makes of a
text: its components, whether it is absolute, how it is written back.
-/

namespace LocalRag.Core

/-- `str.split(sep)`. -/
def splitSep (sep : Char) : List Char → List (List Char)
  | [] => [[]]
  | c :: cs => if c = sep then [] :: splitSep sep cs else consLine c (splitSep sep cs)

/-- The separator ends a component and is in none; the other characters are those
of the text. -/
theorem splitSep_mem {sep c : Char} {text part : List Char} (hpart : part ∈ splitSep sep text)
    (hc : c ∈ part) : c ≠ sep ∧ c ∈ text := by
  induction text generalizing part with
  | nil =>
    rw [splitSep, List.mem_singleton] at hpart
    subst hpart
    cases hc
  | cons d text ih =>
    rw [splitSep] at hpart
    split at hpart
    next hsep =>
      rcases List.mem_cons.1 hpart with rfl | hpart
      · cases hc
      · exact ⟨(ih hpart hc).1, List.mem_cons_of_mem d (ih hpart hc).2⟩
    next hsep =>
      cases hrest : splitSep sep text with
      | nil =>
        rw [hrest, consLine, List.mem_singleton] at hpart
        subst hpart
        rw [List.mem_singleton] at hc
        subst hc
        exact ⟨hsep, List.mem_cons_self⟩
      | cons line lines =>
        rw [hrest] at ih
        rw [hrest, consLine] at hpart
        rcases List.mem_cons.1 hpart with rfl | hpart
        · -- the character went in front of the first component
          rcases List.mem_cons.1 hc with rfl | hc
          · exact ⟨hsep, List.mem_cons_self⟩
          · have hline := ih List.mem_cons_self hc
            exact ⟨hline.1, List.mem_cons_of_mem d hline.2⟩
        · have hline := ih (List.mem_cons_of_mem line hpart) hc
          exact ⟨hline.1, List.mem_cons_of_mem d hline.2⟩

/-- `PurePosixPath(text).parts` below the root: neither empty nor `.`. -/
def posixParts (text : String) : List String :=
  ((splitSep '/' text.toList).filter fun part => part ≠ [] ∧ part ≠ ['.']).map String.ofList

/-- `PurePosixPath(text).is_absolute()`. -/
def isAbsolute (text : String) : Bool := text.toList.head? = some '/'

/-- `PurePosixPath(text).as_posix()`. -/
def asPosix (text : String) : String :=
  let relative := "/".intercalate (posixParts text)
  if isAbsolute text then "/" ++ relative else if posixParts text = [] then "." else relative

theorem mem_posixParts {text part : String} (h : part ∈ posixParts text) :
    part ≠ "" ∧ part ≠ "." ∧ ∀ c ∈ part.toList, c ≠ '/' ∧ c ∈ text.toList := by
  obtain ⟨chars, hchars, rfl⟩ := List.mem_map.1 h
  obtain ⟨hsplit, hne⟩ := List.mem_filter.1 hchars
  obtain ⟨hempty, hdot⟩ := of_decide_eq_true hne
  refine ⟨?_, ?_, ?_⟩
  · intro he
    apply hempty
    rw [← String.toList_ofList (l := chars), he]
    rfl
  · intro he
    apply hdot
    rw [← String.toList_ofList (l := chars), he]
    rfl
  · intro c hc
    rw [String.toList_ofList] at hc
    exact splitSep_mem hsplit hc

end LocalRag.Core
