import Mathlib.Tactic.Common

/-!
# Python's `str` methods

What the services ask of a `str`: `strip`, `splitlines`, the class `\d` of `re`
and `join`, each with the characters Python documents for it. A `String` here is a
sequence of Unicode scalar values; `len` counts those.
-/

namespace LocalRag.Core

/-- `str.isspace`, one character. -/
def isSpace (c : Char) : Bool :=
  c.toNat ∈ [0x09, 0x0a, 0x0b, 0x0c, 0x0d, 0x1c, 0x1d, 0x1e, 0x1f, 0x20, 0x85, 0xa0, 0x1680,
    0x2000, 0x2001, 0x2002, 0x2003, 0x2004, 0x2005, 0x2006, 0x2007, 0x2008, 0x2009, 0x200a,
    0x2028, 0x2029, 0x202f, 0x205f, 0x3000]

/-- `str.strip()`. -/
def strip (s : String) : String :=
  String.ofList (((s.toList.dropWhile isSpace).reverse.dropWhile isSpace).reverse)

/-- The line boundaries of `str.splitlines`, one character each. -/
def isLineBreak (c : Char) : Bool :=
  c.toNat ∈ [0x0a, 0x0b, 0x0c, 0x0d, 0x1c, 0x1d, 0x1e, 0x85, 0x2028, 0x2029]

/-- Put a character in front of the first line. -/
def consLine (c : Char) : List (List Char) → List (List Char)
  | [] => [[c]]
  | line :: lines => (c :: line) :: lines

/-- `str.splitlines()`: `\r\n` is one boundary, and a final boundary starts no
line. -/
def splitlines : List Char → List (List Char)
  | [] => []
  | '\r' :: '\n' :: rest => [] :: splitlines rest
  | c :: rest => if isLineBreak c then [] :: splitlines rest else consLine c (splitlines rest)

/-- No line boundary in it. -/
def Quiet (s : List Char) : Prop := ∀ c ∈ s, isLineBreak c = false

@[simp] theorem quiet_nil : Quiet [] := by
  intro c hc
  exact absurd hc (by simp)

@[simp] theorem quiet_cons {c : Char} {s : List Char} :
    Quiet (c :: s) ↔ isLineBreak c = false ∧ Quiet s := by
  simp [Quiet]

@[simp] theorem quiet_append {s t : List Char} : Quiet (s ++ t) ↔ Quiet s ∧ Quiet t := by
  simp [Quiet, or_imp, forall_and]

/-- The first line ends at the first boundary. -/
theorem splitlines_append {line : List Char} (h : Quiet line) {b : Char}
    (hb : isLineBreak b = true) (hr : b ≠ '\r') (rest : List Char) :
    splitlines (line ++ b :: rest) = line :: splitlines rest := by
  have hstep : ∀ (c : Char) (s : List Char), c ≠ '\r' → splitlines (c :: s) =
      if isLineBreak c then [] :: splitlines s else consLine c (splitlines s) := by
    intro c s hc
    rw [splitlines.eq_def]
    split <;> simp_all
  induction line with
  | nil => rw [List.nil_append, hstep b rest hr, if_pos hb]
  | cons c line ih =>
    rw [quiet_cons] at h
    have hc : c ≠ '\r' := by
      rintro rfl
      exact absurd h.1 (by decide)
    rw [List.cons_append, hstep c _ hc, if_neg (by simp [h.1]), ih h.2]
    rfl

/-- The zeros of the decimal digits of Unicode: category `Nd` is these and the
nine characters after each. -/
def decimalZeros : List Nat :=
  [0x30, 0x660, 0x6f0, 0x7c0, 0x966, 0x9e6, 0xa66, 0xae6, 0xb66, 0xbe6, 0xc66, 0xce6, 0xd66,
    0xde6, 0xe50, 0xed0, 0xf20, 0x1040, 0x1090, 0x17e0, 0x1810, 0x1946, 0x19d0, 0x1a80, 0x1a90,
    0x1b50, 0x1bb0, 0x1c40, 0x1c50, 0xa620, 0xa8d0, 0xa900, 0xa9d0, 0xa9f0, 0xaa50, 0xabf0,
    0xff10, 0x104a0, 0x10d30, 0x11066, 0x110f0, 0x11136, 0x111d0, 0x112f0, 0x11450, 0x114d0,
    0x11650, 0x116c0, 0x11730, 0x118e0, 0x11950, 0x11c50, 0x11d50, 0x11da0, 0x11f50, 0x16a60,
    0x16ac0, 0x16b50, 0x1d7ce, 0x1d7d8, 0x1d7e2, 0x1d7ec, 0x1d7f6, 0x1e140, 0x1e2f0, 0x1e4f0,
    0x1e950, 0x1fbf0]

/-- `\d`. -/
def isDecimal (c : Char) : Bool := decimalZeros.any fun z => z ≤ c.toNat ∧ c.toNat < z + 10

/-- `sep.join(parts)`, for a separator of one character. -/
def joinWith (sep : Char) : List (List Char) → List Char
  | [] => []
  | [part] => part
  | part :: rest => part ++ sep :: joinWith sep rest

theorem joinWith_cons_append (sep : Char) (part : List Char) (parts : List (List Char))
    (last : List Char) :
    joinWith sep (part :: (parts ++ [last])) = part ++ sep :: joinWith sep (parts ++ [last]) := by
  cases parts <;> rfl

/-- What stands before the first separator. -/
theorem append_sep_inj {sep : Char} {part part' rest rest' : List Char} (h : sep ∉ part)
    (h' : sep ∉ part') (heq : part ++ sep :: rest = part' ++ sep :: rest') :
    part = part' ∧ rest = rest' := by
  induction part generalizing part' with
  | nil =>
    cases part' with
    | nil => exact ⟨rfl, (List.cons.inj heq).2⟩
    | cons c part' => exact absurd (List.cons.inj heq).1 fun hc => h' (by simp [hc])
  | cons c part ih =>
    cases part' with
    | nil => exact absurd (List.cons.inj heq).1.symm fun hc => h (by simp [hc])
    | cons c' part' =>
      obtain ⟨rfl, htail⟩ := List.cons.inj heq
      obtain ⟨rfl, hrest⟩ := ih (fun hc => h (by simp [hc])) (fun hc => h' (by simp [hc])) htail
      exact ⟨rfl, hrest⟩

/-- Parts without the separator are read back from the joined text; the last one may
contain it. -/
theorem joinWith_inj {sep : Char} {parts parts' : List (List Char)} {last last' : List Char}
    (hlen : parts.length = parts'.length) (h : ∀ p ∈ parts, sep ∉ p) (h' : ∀ p ∈ parts', sep ∉ p)
    (heq : joinWith sep (parts ++ [last]) = joinWith sep (parts' ++ [last'])) :
    parts = parts' ∧ last = last' := by
  induction parts generalizing parts' with
  | nil =>
    obtain rfl := List.length_eq_zero_iff.mp hlen.symm
    exact ⟨rfl, heq⟩
  | cons part parts ih =>
    cases parts' with
    | nil => cases hlen
    | cons part' parts' =>
      rw [List.cons_append, List.cons_append, joinWith_cons_append, joinWith_cons_append] at heq
      obtain ⟨rfl, hrest⟩ := append_sep_inj (h part (by simp)) (h' part' (by simp)) heq
      obtain ⟨rfl, hlast⟩ := ih (Nat.succ.inj hlen) (fun p hp => h p (by simp [hp]))
        (fun p hp => h' p (by simp [hp])) hrest
      exact ⟨rfl, hlast⟩

end LocalRag.Core
