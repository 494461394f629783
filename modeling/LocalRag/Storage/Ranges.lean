import LocalRag.Runtime.Pages
import Mathlib.Order.Interval.Finset.Nat

/-!
# Byte ranges — one interval of a stored document

`parse_single_range` of `app/services/document_content.py`, which reads the `Range` header of a
request, and `ResolvedRange`, which writes the header for the object store.

A header of one range selects bytes of the object (`Selects`); one that selects none is not
satisfiable. What the reader returns are the two ends of the selected interval
(`resolve_selects`), and the header it writes for them selects them again.

Mirroring notes. `last` is the `end` of the source. Sizes and positions are natural numbers, so
`max(size - suffix, 0)` is `size - suffix`. `int` and `str` refuse numbers of more than
`intMaxStrDigits` digits, and the class `\d` is that of all scripts.
-/

namespace LocalRag.Storage

open LocalRag.Core
open LocalRag.Ocr (intOf intOf_digits digitValue_digit)

/-! ## What a range selects -/

inductive ByteRange where
  | between (first last : Nat)
  | onward (first : Nat)
  | suffix (length : Nat)
deriving Repr, DecidableEq

/-- The byte at `i` of an object of this size is one of the range. -/
def Selects (size i : Nat) : ByteRange → Prop
  | .between first last => i < size ∧ first ≤ i ∧ i ≤ last
  | .onward first => i < size ∧ first ≤ i
  | .suffix length => i < size ∧ size ≤ i + length

/-- The number that is written with ASCII digits. -/
def Writes (text : List Char) (n : Nat) : Prop :=
  text ≠ [] ∧ (∀ c ∈ text, c.isDigit = true) ∧ Nat.ofDigitChars 10 text 0 = n

/-- The header of one range, whose numbers are written in this way. -/
inductive Spells (writes : List Char → Nat → Prop) : List Char → ByteRange → Prop
  | between {first last : List Char} {m n : Nat} : writes first m → writes last n →
      Spells writes ("bytes=".toList ++ (first ++ '-' :: last)) (.between m n)
  | onward {first : List Char} {m : Nat} : writes first m →
      Spells writes ("bytes=".toList ++ (first ++ ['-'])) (.onward m)
  | suffix {length : List Char} {k : Nat} : writes length k →
      Spells writes ("bytes=".toList ++ '-' :: length) (.suffix k)

/-! ## The reader -/

/-- `sys.int_info.default_max_str_digits`. -/
def intMaxStrDigits : Nat := 4300

/-- `int(text)` of decimal digits; `none` is a `ValueError`. -/
def intText (text : List Char) : Option Nat :=
  if text.length > intMaxStrDigits then none else some (intOf text)

/-- `int(text) if text else None`. -/
def numberText (text : List Char) : Option (Option Nat) :=
  if text = [] then some none else (intText text).map some

/-- `str(n)`; `none` is a `ValueError`. -/
def strNumber (n : Nat) : Option (List Char) :=
  if (Nat.toDigits 10 n).length > intMaxStrDigits then none else some (Nat.toDigits 10 n)

structure ResolvedRange where
  start : Nat
  last : Nat
  size : Nat
deriving Repr, DecidableEq

/-- A number that `int` reads and `str` writes. -/
def WritesShort (text : List Char) (n : Nat) : Prop :=
  Writes text n ∧ text.length ≤ intMaxStrDigits

def ResolvedRange.length (r : ResolvedRange) : Nat := r.last - r.start + 1

def ResolvedRange.requestHeader (r : ResolvedRange) : Option (List Char) :=
  (strNumber r.start).bind fun start => (strNumber r.last).map fun last =>
    "bytes=".toList ++ (start ++ '-' :: last)

inductive RangeError where
  /-- `InvalidDocumentRange`. -/
  | invalid (size : Nat)
  /-- An `assert` that does not hold. -/
  | assertion
deriving Repr, DecidableEq

/-- `_RANGE_PATTERN.fullmatch`, with the two groups. -/
def rangeGroups (value : List Char) : Option (List Char × List Char) :=
  if "bytes=".toList <+: value then
    match (value.drop 6).dropWhile isDecimal with
    | '-' :: endText =>
      if endText.all isDecimal then some ((value.drop 6).takeWhile isDecimal, endText) else none
    | _ => none
  else none

/-- What the two numbers say of an object of this size. -/
def resolve (size : Nat) : Option Nat → Option Nat → Except RangeError ResolvedRange
  | none, none => .error .assertion
  | none, some suffix =>
    if suffix = 0 then .error (.invalid size) else .ok ⟨size - suffix, size - 1, size⟩
  | some start, none =>
    if start ≥ size then .error (.invalid size) else .ok ⟨start, size - 1, size⟩
  | some start, some last =>
    if start ≥ size then .error (.invalid size)
    else if last < start then .error (.invalid size)
    else .ok ⟨start, min last (size - 1), size⟩

/-- `parse_single_range`. -/
def parseSingleRange (value : List Char) (size : Nat) : Except RangeError ResolvedRange :=
  if size = 0 ∨ ',' ∈ value then .error (.invalid size)
  else match rangeGroups value with
    | none => .error (.invalid size)
    | some (startText, endText) =>
      if startText = [] ∧ endText = [] then .error (.invalid size)
      else match numberText startText, numberText endText with
        | some startNumber, some endNumber => resolve size startNumber endNumber
        | _, _ => .error (.invalid size)

/-! ## The pattern -/

variable {value startText endText : List Char} {size : Nat}

theorem isDecimal_dash : isDecimal '-' = false := by decide

theorem rangeGroups_eq_some : rangeGroups value = some (startText, endText) ↔
    value = "bytes=".toList ++ (startText ++ '-' :: endText) ∧
      (∀ c ∈ startText, isDecimal c = true) ∧ ∀ c ∈ endText, isDecimal c = true := by
  constructor
  · intro h
    unfold rangeGroups at h
    split at h
    next hbegins =>
      obtain ⟨rest, rfl⟩ := hbegins
      have hrest : ("bytes=".toList ++ rest).drop 6 = rest := List.drop_left' rfl
      rw [hrest] at h
      split at h
      next last hdash =>
        split at h
        next hlast =>
          obtain ⟨rfl, rfl⟩ := Prod.mk.inj (Option.some.inj h)
          refine ⟨?_, fun c hc => List.mem_takeWhile_imp hc, List.all_eq_true.mp hlast⟩
          rw [← hdash, List.takeWhile_append_dropWhile]
        next => cases h
      next => cases h
    next => cases h
  · rintro ⟨rfl, hstart, hend⟩
    have hrest : ("bytes=".toList ++ (startText ++ '-' :: endText)).drop 6 =
        startText ++ '-' :: endText := List.drop_left' rfl
    unfold rangeGroups
    rw [if_pos (List.prefix_append _ _), hrest, List.dropWhile_append_of_pos hstart,
      List.takeWhile_append_of_pos hstart, List.dropWhile_cons_of_neg (by simp [isDecimal_dash]),
      List.takeWhile_cons_of_neg (by simp [isDecimal_dash]), List.append_nil]
    exact if_pos (List.all_eq_true.mpr hend)

/-! ## The interval -/

/-- The bytes that two numbers ask for, as the pattern reads them. -/
def rangeOf : Option Nat → Option Nat → Option ByteRange
  | none, none => none
  | none, some suffix => some (.suffix suffix)
  | some start, none => some (.onward start)
  | some start, some last => some (.between start last)

variable {last : Option Nat} {range : ByteRange}

variable {start : Option Nat}

/-- What is resolved is the interval that is selected, and nothing is refused but a range that
selects no byte. -/
theorem resolve_selects (hrange : rangeOf start last = some range) (hsize : 0 < size) :
    (∃ r, resolve size start last = .ok r ∧ r.size = size ∧ r.start ≤ r.last ∧ r.last < size ∧
      ∀ i, r.start ≤ i ∧ i ≤ r.last ↔ Selects size i range) ∨
    (resolve size start last = .error (.invalid size) ∧ ∀ i, ¬ Selects size i range) := by
  cases start with
  | none =>
    cases last with
    | none => cases hrange
    | some suffix =>
      obtain rfl := Option.some.inj hrange
      simp only [resolve, Selects]
      by_cases hzero : suffix = 0
      · rw [if_pos hzero]
        exact Or.inr ⟨rfl, fun i => by omega⟩
      · rw [if_neg hzero]
        refine Or.inl ⟨_, rfl, rfl, ?_, ?_, fun i => ?_⟩ <;> simp only <;> omega
  | some start =>
    cases last with
    | none =>
      obtain rfl := Option.some.inj hrange
      simp only [resolve, Selects]
      by_cases hend : start ≥ size
      · rw [if_pos hend]
        exact Or.inr ⟨rfl, fun i => by omega⟩
      · rw [if_neg hend]
        refine Or.inl ⟨_, rfl, rfl, ?_, ?_, fun i => ?_⟩ <;> simp only <;> omega
    | some last =>
      obtain rfl := Option.some.inj hrange
      simp only [resolve, Selects]
      by_cases hend : start ≥ size
      · rw [if_pos hend]
        exact Or.inr ⟨rfl, fun i => by omega⟩
      by_cases hempty : last < start
      · rw [if_neg hend, if_pos hempty]
        exact Or.inr ⟨rfl, fun i => by omega⟩
      · rw [if_neg hend, if_neg hempty]
        refine Or.inl ⟨_, rfl, rfl, ?_, ?_, fun i => ?_⟩ <;> simp only <;> omega

/-! ## The numbers -/

/-- A number, or nothing where there is none. -/
def WritesOption (writes : List Char → Nat → Prop) (text : List Char) : Option Nat → Prop
  | none => text = []
  | some n => writes text n

theorem spells_iff {writes : List Char → Nat → Prop} :
    Spells writes value range ↔ ∃ startText endText start last,
      value = "bytes=".toList ++ (startText ++ '-' :: endText) ∧
      WritesOption writes startText start ∧ WritesOption writes endText last ∧
      rangeOf start last = some range := by
  constructor
  · intro h
    cases h with
    | between hfirst hlast => exact ⟨_, _, some _, some _, rfl, hfirst, hlast, rfl⟩
    | onward hfirst => exact ⟨_, [], some _, none, rfl, hfirst, rfl, rfl⟩
    | suffix hlength => exact ⟨[], _, none, some _, rfl, rfl, hlength, rfl⟩
  · rintro ⟨startText, endText, start, last, rfl, hstart, hlast, hrange⟩
    cases start with
    | none =>
      cases last with
      | none => cases hrange
      | some suffix =>
        obtain rfl := Option.some.inj hrange
        obtain rfl : startText = [] := hstart
        exact .suffix hlast
    | some start =>
      cases last with
      | none =>
        obtain rfl := Option.some.inj hrange
        obtain rfl : endText = [] := hlast
        exact .onward hstart
      | some last =>
        obtain rfl := Option.some.inj hrange
        exact .between hstart hlast

variable {text : List Char}

variable {number : Option Nat}

theorem numberText_ascii (h : ∀ c ∈ text, c.isDigit = true) :
    numberText text = some number ↔ WritesOption WritesShort text number := by
  unfold numberText
  by_cases hempty : text = []
  · rw [if_pos hempty]
    cases number with
    | none => exact ⟨fun _ => hempty, fun _ => rfl⟩
    | some n => exact ⟨fun hnone => by simp at hnone, fun hn => absurd hempty hn.1.1⟩
  · rw [if_neg hempty]
    unfold intText intOf
    rw [intOf_digits h]
    by_cases hlong : text.length > intMaxStrDigits
    · rw [if_pos hlong]
      refine ⟨fun hnone => by simp at hnone, fun hwrites => ?_⟩
      cases number with
      | none => exact absurd hwrites hempty
      | some n => exact absurd hwrites.2 (by omega)
    · rw [if_neg hlong]
      cases number with
      | none => exact ⟨fun hsome => by simp at hsome, fun hnil => absurd hnil hempty⟩
      | some n =>
        constructor
        · intro hsome
          exact ⟨⟨hempty, h, Option.some.inj (Option.some.inj hsome)⟩, by omega⟩
        · intro hwrites
          rw [hwrites.1.2.2]
          rfl

/-! ## The reader as a whole -/

theorem isDecimal_comma : isDecimal ',' = false := by decide

/-- A header that spells two numbers, at least one of which is there, is resolved. -/
theorem parseSingleRange_eq (hsize : 0 < size)
    (hgroups : rangeGroups value = some (startText, endText))
    (htext : ¬ (startText = [] ∧ endText = [])) (hstart : numberText startText = some start)
    (hlast : numberText endText = some last) :
    parseSingleRange value size = resolve size start last := by
  obtain ⟨rfl, hdecimal, hdecimal'⟩ := rangeGroups_eq_some.mp hgroups
  have hcomma : ¬ (size = 0 ∨ ',' ∈ "bytes=".toList ++ (startText ++ '-' :: endText)) := by
    rintro (hzero | hmem)
    · omega
    · have hneither : ',' ∉ startText ∧ ',' ∉ endText :=
        ⟨fun hc => absurd (hdecimal _ hc) (by simp [isDecimal_comma]),
          fun hc => absurd (hdecimal' _ hc) (by simp [isDecimal_comma])⟩
      simp [hneither] at hmem
  unfold parseSingleRange
  rw [if_neg hcomma, hgroups]
  show (if startText = [] ∧ endText = [] then _ else _) = _
  rw [if_neg htext, hstart, hlast]

/-- Every other header is refused. -/
theorem parseSingleRange_error (h : ∀ startText endText start last,
      rangeGroups value = some (startText, endText) → ¬ (startText = [] ∧ endText = []) →
      numberText startText = some start → numberText endText = some last → False) :
    parseSingleRange value size = .error (.invalid size) := by
  unfold parseSingleRange
  split
  next => rfl
  next =>
    split
    next => rfl
    next startText endText hgroups =>
      split
      next => rfl
      next htext =>
        split
        next start last hstart hlast => exact (h _ _ _ _ hgroups htext hstart hlast).elim
        next => rfl

/-- The two numbers are written with digits of ASCII. -/
def AsciiNumbers (value : List Char) : Prop :=
  ∀ startText endText, value = "bytes=".toList ++ (startText ++ '-' :: endText) →
    (∀ c ∈ startText ++ endText, isDecimal c = true) → ∀ c ∈ startText ++ endText, c.isDigit = true

theorem eq_nil_of_numberText (h : numberText text = some none) : text = [] := by
  unfold numberText at h
  split at h
  next hempty => exact hempty
  next => simp at h

/-- The two outcomes: a header that spells a range, and one that is refused. -/
theorem parseSingleRange_cases (hsize : 0 < size) :
    (∃ startText endText start last range,
      rangeGroups value = some (startText, endText) ∧ numberText startText = some start ∧
      numberText endText = some last ∧ rangeOf start last = some range ∧
      parseSingleRange value size = resolve size start last) ∨
    parseSingleRange value size = .error (.invalid size) := by
  by_cases h : ∃ startText endText start last, rangeGroups value = some (startText, endText) ∧
      ¬ (startText = [] ∧ endText = []) ∧ numberText startText = some start ∧
      numberText endText = some last
  · obtain ⟨startText, endText, start, last, hgroups, htext, hstart, hlast⟩ := h
    have hrange : ∃ range, rangeOf start last = some range := by
      cases start with
      | some start => cases last <;> exact ⟨_, rfl⟩
      | none =>
        cases last with
        | some last => exact ⟨_, rfl⟩
        | none => exact absurd ⟨eq_nil_of_numberText hstart, eq_nil_of_numberText hlast⟩ htext
    obtain ⟨range, hrange⟩ := hrange
    exact Or.inl ⟨_, _, _, _, range, hgroups, hstart, hlast, hrange,
      parseSingleRange_eq hsize hgroups htext hstart hlast⟩
  · refine Or.inr (parseSingleRange_error fun startText endText start last hgroups htext hstart
      hlast => h ⟨startText, endText, start, last, hgroups, htext, hstart, hlast⟩)

/-- The digits that are written are decimal ones. -/
theorem WritesOption.digits (h : WritesOption Writes text number) :
    ∀ c ∈ text, c.isDigit = true := by
  cases number with
  | none =>
    obtain rfl : text = [] := h
    exact fun c hc => absurd hc List.not_mem_nil
  | some n => exact h.2.1

theorem WritesOption.long (h : WritesOption WritesShort text number) :
    WritesOption Writes text number := by
  cases number with
  | none => exact h
  | some n => exact h.1

theorem WritesOption.unique {m n : Option Nat} (hm : WritesOption Writes text m)
    (hn : WritesOption Writes text n) : m = n := by
  cases m with
  | none =>
    cases n with
    | none => rfl
    | some n => exact absurd hm hn.1
  | some m =>
    cases n with
    | none => exact absurd hn hm.1
    | some n => rw [← hm.2.2, ← hn.2.2]

/-- Of a spelled header the reader takes the texts of its two numbers. -/
theorem rangeGroups_spelled {start last : Option Nat} (hstart : WritesOption Writes startText start)
    (hlast : WritesOption Writes endText last) :
    rangeGroups ("bytes=".toList ++ (startText ++ '-' :: endText)) = some (startText, endText) :=
  rangeGroups_eq_some.mpr ⟨rfl, fun c hc => (digitValue_digit (hstart.digits c hc)).1,
    fun c hc => (digitValue_digit (hlast.digits c hc)).1⟩

/-- A spelled header whose numbers are short is resolved. -/
theorem parseSingleRange_spelled (hsize : 0 < size)
    (hstart : WritesOption WritesShort startText start)
    (hlast : WritesOption WritesShort endText last) (hrange : rangeOf start last = some range) :
    parseSingleRange ("bytes=".toList ++ (startText ++ '-' :: endText)) size =
      resolve size start last := by
  refine parseSingleRange_eq hsize (rangeGroups_spelled hstart.long hlast.long) ?_
    ((numberText_ascii hstart.long.digits).mpr hstart)
    ((numberText_ascii hlast.long.digits).mpr hlast)
  rintro ⟨rfl, rfl⟩
  cases start with
  | some start => exact hstart.1.1 rfl
  | none =>
    cases last with
    | some last => exact hlast.1.1 rfl
    | none => cases hrange

/-- What is returned lies in the object, and is what the header selects if it spells a range. -/
theorem parseSingleRange_ok {r : ResolvedRange} (hsize : 0 < size)
    (h : parseSingleRange value size = .ok r) :
    r.size = size ∧ r.start ≤ r.last ∧ r.last < size ∧
      ∀ range, Spells Writes value range → ∀ i, r.start ≤ i ∧ i ≤ r.last ↔ Selects size i range := by
  obtain ⟨startText, endText, start, last, range, hgroups, hstart, hlast, hrange, hparse⟩ | herror :=
    parseSingleRange_cases hsize
  · rw [hparse] at h
    obtain ⟨r', hr', hspec⟩ | ⟨herror, -⟩ := resolve_selects hrange hsize
    · obtain rfl : r' = r := Except.ok.inj (hr'.symm.trans h)
      refine ⟨hspec.1, hspec.2.1, hspec.2.2.1, fun range' hspells => ?_⟩
      obtain ⟨startText', endText', start', last', rfl, hstart', hlast', hrange'⟩ :=
        spells_iff.mp hspells
      -- the two readings of the header are one
      rw [rangeGroups_spelled hstart' hlast'] at hgroups
      obtain ⟨rfl, rfl⟩ := Prod.mk.inj (Option.some.inj hgroups)
      have hnumber := ((numberText_ascii hstart'.digits).mp hstart).long
      have hnumber' := ((numberText_ascii hlast'.digits).mp hlast).long
      obtain rfl := hnumber.unique hstart'
      obtain rfl := hnumber'.unique hlast'
      obtain rfl := Option.some.inj (hrange.symm.trans hrange')
      exact hspec.2.2.2
    · rw [herror] at h
      cases h
  · rw [herror] at h
    cases h

/-- With ASCII digits: exactly the ranges with short numbers that select a byte. -/
theorem parseSingleRange_accepts (hsize : 0 < size) (hascii : AsciiNumbers value) :
    (∃ r, parseSingleRange value size = .ok r) ↔
      ∃ range, Spells WritesShort value range ∧ ∃ i, Selects size i range := by
  constructor
  · rintro ⟨r, h⟩
    obtain ⟨startText, endText, start, last, range, hgroups, hstart, hlast, hrange, hparse⟩ |
      herror := parseSingleRange_cases hsize
    · obtain ⟨hvalue, hdecimal, hdecimal'⟩ := rangeGroups_eq_some.mp hgroups
      have hdigits := hascii startText endText hvalue
        (List.forall_mem_append.mpr ⟨hdecimal, hdecimal'⟩)
      rw [List.forall_mem_append] at hdigits
      refine ⟨range, spells_iff.mpr ⟨_, _, start, last, hvalue,
        (numberText_ascii hdigits.1).mp hstart, (numberText_ascii hdigits.2).mp hlast, hrange⟩, ?_⟩
      rw [hparse] at h
      obtain ⟨r', hr', -, horder, -, hselects⟩ | ⟨herror, -⟩ := resolve_selects hrange hsize
      · exact ⟨r'.start, (hselects r'.start).mp ⟨le_rfl, horder⟩⟩
      · rw [herror] at h
        cases h
    · rw [herror] at h
      cases h
  · rintro ⟨range, hspells, i, hi⟩
    obtain ⟨startText, endText, start, last, rfl, hstart, hlast, hrange⟩ := spells_iff.mp hspells
    rw [parseSingleRange_spelled hsize hstart hlast hrange]
    obtain ⟨r, hr, -⟩ | ⟨-, hnone⟩ := resolve_selects hrange hsize
    · exact ⟨r, hr⟩
    · exact absurd hi (hnone i)

theorem intMaxStrDigits_pos : 0 < intMaxStrDigits := Nat.succ_pos 4299

theorem strNumber_eq {n : Nat} (h : n < 10 ^ intMaxStrDigits) :
    strNumber n = some (Nat.toDigits 10 n) ∧ WritesShort (Nat.toDigits 10 n) n := by
  have hlength : (Nat.toDigits 10 n).length ≤ intMaxStrDigits :=
    (Nat.length_toDigits_le_iff (Nat.succ_lt_succ (Nat.succ_pos 8)) intMaxStrDigits_pos).mpr h
  unfold strNumber
  rw [if_neg hlength.not_gt]
  refine ⟨rfl, ⟨Nat.toDigits_ne_nil, fun c hc => ?_, Nat.ofDigitChars_ten_toDigits⟩, hlength⟩
  exact Nat.isDigit_of_mem_toDigits (Nat.succ_pos 9) le_rfl hc

/-- The header for the object store is read as the same range. -/
theorem parseSingleRange_requestHeader {r : ResolvedRange} (horder : r.start ≤ r.last)
    (hlast : r.last < r.size) (hshort : r.last < 10 ^ intMaxStrDigits) :
    ∃ header, r.requestHeader = some header ∧ parseSingleRange header r.size = .ok r := by
  obtain ⟨hstart, hwrites⟩ := strNumber_eq (horder.trans_lt hshort)
  obtain ⟨hend, hwrites'⟩ := strNumber_eq hshort
  have hheader : r.requestHeader = some ("bytes=".toList ++
      (Nat.toDigits 10 r.start ++ '-' :: Nat.toDigits 10 r.last)) := by
    unfold ResolvedRange.requestHeader
    rw [hstart, hend]
    rfl
  refine ⟨_, hheader, ?_⟩
  have hparse : parseSingleRange _ r.size = resolve r.size (some r.start) (some r.last) :=
    parseSingleRange_spelled (Nat.zero_lt_of_lt hlast) hwrites hwrites' rfl
  rw [hparse]
  simp only [resolve]
  rw [if_neg (horder.trans_lt hlast).not_ge, if_neg horder.not_gt,
    min_eq_left (Nat.le_sub_one_of_lt hlast)]

/-- What `parse_single_range` does with a header for an object that is not empty. -/
theorem parseSingleRange_spec (hsize : 0 < size) :
    ((∃ r, parseSingleRange value size = .ok r) ∨
      parseSingleRange value size = .error (.invalid size)) ∧
    (AsciiNumbers value → ((∃ r, parseSingleRange value size = .ok r) ↔
      ∃ range, Spells WritesShort value range ∧ ∃ i, Selects size i range)) ∧
    ∀ r, parseSingleRange value size = .ok r →
      r.start ≤ r.last ∧ r.last < size ∧ r.length = (Finset.Icc r.start r.last).card ∧
      (∀ range, Spells Writes value range →
        ∀ i, r.start ≤ i ∧ i ≤ r.last ↔ Selects size i range) ∧
      (r.last < 10 ^ intMaxStrDigits →
        ∃ header, r.requestHeader = some header ∧ parseSingleRange header size = .ok r) := by
  refine ⟨?_, parseSingleRange_accepts hsize, fun r h => ?_⟩
  · obtain ⟨_, _, start, last, range, -, -, -, hrange, hparse⟩ | herror :=
      @parseSingleRange_cases value size hsize
    · rw [hparse]
      obtain ⟨r, hr, -⟩ | ⟨herror, -⟩ := resolve_selects hrange hsize
      · exact Or.inl ⟨r, hr⟩
      · exact Or.inr herror
    · exact Or.inr herror
  · obtain ⟨rfl, horder, hlast, hselects⟩ := parseSingleRange_ok hsize h
    refine ⟨horder, hlast, ?_, hselects, parseSingleRange_requestHeader horder hlast⟩
    rw [Nat.card_Icc]
    unfold ResolvedRange.length
    omega

/-- A range that is clipped at the end of the object. -/
theorem parseSingleRange_spec_clipped :
    parseSingleRange "bytes=2-99".toList 10 = .ok ⟨2, 9, 10⟩ ∧
      (∀ range, Spells Writes "bytes=2-99".toList range →
        ∀ i, 2 ≤ i ∧ i ≤ 9 ↔ Selects 10 i range) ∧
      ∃ header, (ResolvedRange.mk 2 9 10).requestHeader = some header ∧
        parseSingleRange header 10 = .ok ⟨2, 9, 10⟩ := by
  have hparse : parseSingleRange "bytes=2-99".toList 10 = .ok ⟨2, 9, 10⟩ := rfl
  obtain ⟨-, -, -, hselects, hheader⟩ := (parseSingleRange_spec (by omega)).2.2 _ hparse
  refine ⟨hparse, hselects, hheader ?_⟩
  exact (Nat.lt_succ_self 9).trans_le (Nat.le_self_pow intMaxStrDigits_pos.ne' 10)

/-- A range whose last position is written with one digit too many selects every byte, and is
refused. -/
theorem long_number_refused :
    ¬ ∀ value size, 0 < size → ((∃ r, parseSingleRange value size = .ok r) ↔
      ∃ range, Spells Writes value range ∧ ∃ i, Selects size i range) := by
  intro h
  have hlong : Writes (List.replicate 4301 '9') _ :=
    ⟨List.ne_nil_of_length_pos (by rw [List.length_replicate]; omega),
      fun c hc => by rw [List.eq_of_mem_replicate hc]; rfl, rfl⟩
  have hzero : Writes ['0'] 0 := ⟨List.cons_ne_nil _ _, by simp, rfl⟩
  obtain ⟨r, hr⟩ := (h _ 10 (by omega)).mpr
    ⟨_, .between hzero hlong, 0, by omega, le_rfl, Nat.zero_le _⟩
  obtain ⟨startText, endText, start, last, range, hgroups, -, hlast, -⟩ | herror :=
    @parseSingleRange_cases ("bytes=".toList ++ (['0'] ++ '-' :: List.replicate 4301 '9')) 10
      (by omega)
  · have hspelled : rangeGroups _ = some (['0'], List.replicate 4301 '9') :=
      @rangeGroups_spelled _ _ (some 0) (some _) hzero hlong
    rw [hspelled] at hgroups
    obtain ⟨-, rfl⟩ := Prod.mk.inj (Option.some.inj hgroups)
    have hshort := (numberText_ascii hlong.2.1).mp hlast
    cases last with
    | none => exact absurd hshort hlong.1
    | some n =>
      have hlength := hshort.2
      rw [List.length_replicate] at hlength
      exact absurd hlength (Nat.lt_irrefl 4300)
  · rw [herror] at hr
    cases hr

end LocalRag.Storage
