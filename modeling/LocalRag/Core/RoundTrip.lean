import LocalRag.Core.Json
import LocalRag.Core.Text

/-!
# `json.loads` undoes `json.dumps`

The scanner is followed over the text of a value, from the inside out: a character
from its escape, a number from its digits, and a value from its text by recursion
over it (`loads_dumps`). The same steps over a text that ends inside a string end in
nothing (`loads_cut`). The last section says which line boundaries a text keeps:
with `ensure_ascii` none, without it the three that no escape covers
(`isSeparator`).
-/

namespace LocalRag.Core

/-! ## Strings -/

theorem hexValue_digitChar : ∀ n < 16, hexValue (Nat.digitChar n) = some n := by decide

variable {n : Nat}

/-- A code unit below `2^16` is read back from its four digits. -/
theorem decodeHex_digits (h : n < 0x10000) :
    decodeHex (Nat.digitChar (n / 4096 % 16)) (Nat.digitChar (n / 256 % 16))
      (Nat.digitChar (n / 16 % 16)) (Nat.digitChar (n % 16)) = some n := by
  unfold decodeHex
  rw [hexValue_digitChar _ (Nat.mod_lt _ (by decide)), hexValue_digitChar _ (Nat.mod_lt _ (by decide)),
    hexValue_digitChar _ (Nat.mod_lt _ (by decide)), hexValue_digitChar _ (Nat.mod_lt _ (by decide))]
  show some _ = some n
  congr 1
  omega

theorem scanString_unicodeEscape (h : n < 0x10000) (hs : n < 0xd800 ∨ 0xe000 ≤ n)
    (rest : List Char) :
    scanString (unicodeEscape n ++ rest) = (scanString rest).map (consText (Char.ofNat n)) := by
  simp only [unicodeEscape, List.cons_append, List.nil_append, scanString, decodeHex_digits h]
  rw [if_neg (by omega), if_neg (by omega)]

/-- The two halves of a character beyond the first plane. -/
theorem scanString_pair (h : n < 0x100000) (rest : List Char) :
    scanString (unicodeEscape (0xd800 + n / 0x400) ++ unicodeEscape (0xdc00 + n % 0x400) ++ rest) =
      (scanString rest).map (consText (Char.ofNat (0x10000 + n))) := by
  have hhigh : 0xd800 + n / 0x400 < 0x10000 := by omega
  have hlow : 0xdc00 + n % 0x400 < 0x10000 := by omega
  simp only [unicodeEscape, List.cons_append, List.nil_append, scanString, decodeHex_digits hhigh,
    decodeHex_digits hlow]
  rw [if_pos (by omega), if_pos (by omega)]
  have hvalue : 0x10000 + (0xd800 + n / 0x400 - 0xd800) * 0x400 + (0xdc00 + n % 0x400 - 0xdc00) =
      0x10000 + n := by omega
  rw [hvalue]

theorem scanString_plain {c : Char} (hshort : shortEscape c = none) (hc : ¬ c.toNat < 0x20)
    (rest : List Char) : scanString (c :: rest) = (scanString rest).map (consText c) := by
  have hquote : c ≠ '"' := by
    rintro rfl
    exact absurd hshort (by decide)
  have hslash : c ≠ '\\' := by
    rintro rfl
    exact absurd hshort (by decide)
  rw [scanString.eq_def]
  split
  next heq => cases heq
  next heq => exact absurd (List.cons.inj heq).1 hquote
  next heq => exact absurd (List.cons.inj heq).1 hslash
  next heq => exact absurd (List.cons.inj heq).1 hslash
  next heq => exact absurd (List.cons.inj heq).1 hslash
  next heq =>
    obtain ⟨rfl, rfl⟩ := List.cons.inj heq
    rw [if_neg hc]

theorem scanString_short {c e : Char} (h : shortEscape c = some e) (rest : List Char) :
    scanString ('\\' :: e :: rest) = (scanString rest).map (consText c) := by
  unfold shortEscape at h
  repeat' split at h
  all_goals
    first
    | obtain rfl := Option.some.inj h
      subst c
      rw [scanString.eq_def]
      simp [unescapeChar]
    | exact absurd h (by simp)

/-- A character is read back from its escape. -/
theorem scanString_escapeChar (ensureAscii : Bool) (c : Char) (rest : List Char) :
    scanString (escapeChar ensureAscii c ++ rest) = (scanString rest).map (consText c) := by
  have hvalid := c.valid
  have hchar : Char.ofNat c.toNat = c := Char.ofNat_toNat c
  unfold escapeChar
  split
  next e he => exact scanString_short he rest
  next hshort =>
    split
    next hescaped =>
      split
      next hplane =>
        have hsurrogate : c.toNat < 0xd800 ∨ 0xe000 ≤ c.toNat := by
          rcases hvalid with hlow | hhigh
          · exact Or.inl hlow
          · exact Or.inr (Nat.succ_le_of_lt hhigh.1)
        rw [scanString_unicodeEscape hplane hsurrogate, hchar]
      next hplane =>
        have hbound : c.toNat < 0x110000 := by
          rcases hvalid with hlow | hhigh
          · exact Nat.lt_trans hlow (by decide)
          · exact hhigh.2
        rw [scanString_pair (by omega), show 0x10000 + (c.toNat - 0x10000) = c.toNat by omega,
          hchar]
    next hraw => exact scanString_plain hshort (fun hlt => hraw (Or.inl hlt)) rest

theorem escape_cons (ensureAscii : Bool) (c : Char) (s : List Char) :
    escape ensureAscii (c :: s) = escapeChar ensureAscii c ++ escape ensureAscii s := rfl

theorem escape_append (ensureAscii : Bool) (s t : List Char) :
    escape ensureAscii (s ++ t) = escape ensureAscii s ++ escape ensureAscii t :=
  List.flatMap_append

/-- A literal is read to its closing quote. -/
theorem scanString_escape (ensureAscii : Bool) (s rest : List Char) :
    scanString (escape ensureAscii s ++ '"' :: rest) = some (s, rest) := by
  induction s with
  | nil => rfl
  | cons c s ih =>
    rw [escape_cons, List.append_assoc, scanString_escapeChar, ih]
    rfl

/-- A literal without its closing quote is no string. -/
theorem scanString_cut (ensureAscii : Bool) (s : List Char) :
    scanString (escape ensureAscii s) = none := by
  induction s with
  | nil => rfl
  | cons c s ih =>
    rw [escape_cons, scanString_escapeChar, ih]
    rfl

/-! ## Numbers -/

/-- What may stand after a value: the end, or a character that continues none. -/
def Follows (rest : List Char) : Prop :=
  rest = [] ∨ ∃ c tail, rest = c :: tail ∧ (c = ',' ∨ c = '}' ∨ c = ']')

theorem follows_nil : Follows [] := Or.inl rfl

theorem follows_cons {c : Char} (h : c = ',' ∨ c = '}' ∨ c = ']') (tail : List Char) :
    Follows (c :: tail) := Or.inr ⟨c, tail, rfl, h⟩

theorem isDigit_toDigits (n : Nat) : ∀ c ∈ Nat.toDigits 10 n, c.isDigit = true := by
  intro c hc
  exact Nat.isDigit_of_mem_toDigits (by decide) (by decide) hc

/-- No digit stands first. -/
def NoDigit (rest : List Char) : Prop :=
  rest.takeWhile Char.isDigit = [] ∧ rest.dropWhile Char.isDigit = rest

variable {rest : List Char}

theorem Follows.noDigit (h : Follows rest) : NoDigit rest := by
  rcases h with rfl | ⟨c, tail, rfl, hc⟩
  · exact ⟨rfl, rfl⟩
  · rcases hc with rfl | rfl | rfl <;> exact ⟨rfl, rfl⟩

/-- Digits, cut off where they end. -/
theorem takeWhile_digits {digits : List Char} (hdigits : ∀ c ∈ digits, c.isDigit = true)
    (h : NoDigit rest) :
    (digits ++ rest).takeWhile Char.isDigit = digits ∧
      (digits ++ rest).dropWhile Char.isDigit = rest := by
  rw [List.takeWhile_append_of_pos hdigits, h.1, List.append_nil,
    List.dropWhile_append_of_pos hdigits, h.2]
  exact ⟨rfl, rfl⟩

theorem head_toDigits (h : n ≠ 0) : ∀ c tail, Nat.toDigits 10 n = c :: tail → c ≠ '0' := by
  induction n using Nat.strongRecOn with
  | ind n ih =>
    intro c tail hdigits
    rcases Nat.lt_or_ge n 10 with hlt | hge
    · rw [Nat.toDigits_of_lt_base hlt] at hdigits
      obtain ⟨rfl, -⟩ := List.cons.inj hdigits
      exact (show ∀ n < 10, n ≠ 0 → Nat.digitChar n ≠ '0' by decide) n hlt h
    · -- the first digit is that of the tenth part
      rw [Nat.toDigits_of_base_le (by decide) hge] at hdigits
      cases hfirst : Nat.toDigits 10 (n / 10) with
      | nil => exact absurd hfirst Nat.toDigits_ne_nil
      | cons d digits =>
        rw [hfirst, List.cons_append] at hdigits
        obtain ⟨rfl, -⟩ := List.cons.inj hdigits
        exact ih (n / 10) (by omega) (by omega) d digits hfirst

theorem scanNatural_toDigits (n : Nat) (h : NoDigit rest) :
    scanNatural (Nat.toDigits 10 n ++ rest) = some (Nat.toDigits 10 n, rest) := by
  obtain ⟨htake, hdrop⟩ := takeWhile_digits (isDigit_toDigits n) h
  by_cases hn : n = 0
  · subst hn
    rfl
  · cases hdigits : Nat.toDigits 10 n with
    | nil => exact absurd hdigits Nat.toDigits_ne_nil
    | cons c digits =>
      have hc := head_toDigits hn c digits hdigits
      rw [hdigits] at htake hdrop
      rw [List.cons_append, scanNatural.eq_def]
      split
      next heq => exact absurd (List.cons.inj heq).1 hc
      next =>
        rw [← List.cons_append]
        unfold scanDigits
        rw [htake, hdrop, if_neg (by simp)]
        rfl

theorem scanNumber_toDigits (negative : Bool) (n : Nat) (h : Follows rest) :
    scanNumber negative (Nat.toDigits 10 n ++ rest) =
      some (.int (if negative then -(n : Int) else n), rest) := by
  have hfraction : scanFraction rest = ([], rest) ∧ scanExponent rest = ([], rest) := by
    rcases h with rfl | ⟨c, tail, rfl, hc⟩
    · exact ⟨rfl, rfl⟩
    · rcases hc with rfl | rfl | rfl <;> exact ⟨rfl, rfl⟩
  unfold scanNumber
  rw [scanNatural_toDigits n h.noDigit, Option.map_some]
  simp [hfraction.1, hfraction.2, Nat.ofDigitChars_ten_toDigits]

/-- A number with a fraction. -/
theorem scanNumber_fraction (n : Nat) {fraction : List Char} (hne : fraction ≠ [])
    (hdigits : ∀ c ∈ fraction, c.isDigit = true) (h : Follows rest) :
    scanNumber false (Nat.toDigits 10 n ++ '.' :: (fraction ++ rest)) =
      some (.float (Nat.toDigits 10 n ++ '.' :: fraction), rest) := by
  obtain ⟨htake, hdrop⟩ := takeWhile_digits hdigits h.noDigit
  have hfraction : scanFraction ('.' :: (fraction ++ rest)) = ('.' :: fraction, rest) := by
    show (scanDigits ['.'] (fraction ++ rest)).getD _ = _
    unfold scanDigits
    rw [htake, hdrop, if_neg hne]
    rfl
  have hexponent : scanExponent rest = ([], rest) := by
    rcases h with rfl | ⟨c, tail, rfl, hc⟩
    · rfl
    · rcases hc with rfl | rfl | rfl <;> rfl
  unfold scanNumber
  rw [scanNatural_toDigits n ⟨rfl, rfl⟩, Option.map_some]
  simp [hfraction, hexponent]

/-! ## Values -/

theorem scanOnce_digit {c : Char} (hc : c.isDigit = true) (fuel : Nat) (rest : List Char) :
    scanOnce (fuel + 1) (c :: rest) = scanNumber false (c :: rest) ∧
      scanOnce (fuel + 1) ('-' :: c :: rest) = scanNumber true (c :: rest) := by
  have hne : ∀ d : Char, d.isDigit = false → c ≠ d := by
    intro d hd hcd
    rw [hcd, hd] at hc
    exact absurd hc (by decide)
  have hI := hne 'I' (by decide)
  refine ⟨?_, ?_⟩
  · rw [scanOnce.eq_def]
    have := hne '"' (by decide)
    have := hne '\x7b' (by decide)
    have := hne '[' (by decide)
    have := hne 'n' (by decide)
    have := hne 't' (by decide)
    have := hne 'f' (by decide)
    have := hne 'N' (by decide)
    have := hne '-' (by decide)
    simp only
    split <;> simp_all
  · rw [scanOnce.eq_def]
    simp only
    split <;> simp_all

theorem scanOnce_dumpsInt (n : Int) (fuel : Nat) (h : Follows rest) :
    scanOnce (fuel + 1) (dumpsInt n ++ rest) = some (.int n, rest) := by
  cases hdigits : Nat.toDigits 10 n.natAbs with
  | nil => exact absurd hdigits Nat.toDigits_ne_nil
  | cons c digits =>
    have hc := isDigit_toDigits n.natAbs c (by simp [hdigits])
    have hscan := scanOnce_digit hc fuel (digits ++ rest)
    unfold dumpsInt
    split
    next hneg =>
      rw [hdigits, List.cons_append, List.cons_append, hscan.2, ← List.cons_append, ← hdigits,
        scanNumber_toDigits true _ h, if_pos rfl]
      congr 3
      omega
    next hpos =>
      rw [hdigits, List.cons_append, hscan.1, ← List.cons_append, ← hdigits,
        scanNumber_toDigits false _ h, if_neg (by decide)]
      congr 3
      omega

mutual
/-- No `float` in it. -/
def Json.plain : Json → Bool
  | .float _ => false
  | .arr elements => plainElements elements
  | .obj members => plainMembers members
  | .null | .bool _ | .int _ | .str _ => true

def plainElements : List Json → Bool
  | [] => true
  | x :: rest => x.plain && plainElements rest

def plainMembers : List (String × Json) → Bool
  | [] => true
  | (_, value) :: rest => value.plain && plainMembers rest
end

variable {j : Json}

/-- A value starts with no space and no closing bracket. -/
theorem head_dumps (ensureAscii : Bool) (hj : j.plain = true) (rest : List Char) :
    skipSpace (dumps ensureAscii j ++ rest) = dumps ensureAscii j ++ rest ∧
      ∀ tail, dumps ensureAscii j ++ rest ≠ ']' :: tail := by
  cases j with
  | null => exact ⟨rfl, by simp [dumps]⟩
  | bool b => cases b <;> exact ⟨rfl, by simp [dumps]⟩
  | int n =>
    cases hdigits : Nat.toDigits 10 n.natAbs with
    | nil => exact absurd hdigits Nat.toDigits_ne_nil
    | cons c digits =>
      have hc := isDigit_toDigits n.natAbs c (by simp [hdigits])
      have hne : ∀ d : Char, d.isDigit = false → c ≠ d := by
        intro d hd hcd
        rw [hcd, hd] at hc
        exact absurd hc (by decide)
      rw [dumps, dumpsInt]
      split
      · exact ⟨rfl, by simp⟩
      · rw [hdigits]
        refine ⟨?_, ?_⟩
        · have := hne ' ' (by decide)
          have := hne '\t' (by decide)
          have := hne '\n' (by decide)
          have := hne '\r' (by decide)
          simp_all [skipSpace]
        · intro tail heq
          exact hne ']' (by decide) (List.cons.inj heq).1
  | float literal => exact absurd hj (by simp [Json.plain])
  | str s => exact ⟨rfl, by simp [dumps, dumpsString]⟩
  | arr elements => cases elements <;> exact ⟨rfl, by simp [dumps]⟩
  | obj members => rcases members with _ | ⟨⟨_, _⟩, _⟩ <;> exact ⟨rfl, by simp [dumps]⟩

theorem length_dumps_pos (ensureAscii : Bool) (hj : j.plain = true) :
    0 < (dumps ensureAscii j).length := by
  cases hdumps : dumps ensureAscii j with
  | cons c rest => exact Nat.succ_pos _
  | nil =>
    have hhead := (head_dumps ensureAscii hj [']']).2 []
    rw [hdumps] at hhead
    exact absurd rfl hhead

/-- A member, up to what stands behind its value. -/
theorem scanMembers_member (ensureAscii : Bool) (fuel : Nat) (key : String) (text : List Char) :
    scanMembers (fuel + 1) (escape ensureAscii key.toList ++ '"' :: ':' :: text) =
      match scanOnce fuel (skipSpace text) with
      | none => none
      | some (value, rest) => closeMember (scanMembers fuel) key value rest := by
  rw [scanMembers, scanString_escape]
  show (match scanOnce fuel (skipSpace text) with
    | none => none
    | some (value, rest) => closeMember (scanMembers fuel) (String.ofList key.toList) value rest) = _
  rw [String.ofList_toList]

/-- The same with the blank of the default separators. -/
theorem scanMembers_value (ensureAscii : Bool) (fuel : Nat) (key : String) {text : List Char}
    (hspace : skipSpace text = text) :
    scanMembers (fuel + 1) (escape ensureAscii key.toList ++ '"' :: ':' :: ' ' :: text) =
      match scanOnce fuel text with
      | none => none
      | some (value, rest) => closeMember (scanMembers fuel) key value rest := by
  rw [scanMembers_member, show skipSpace (' ' :: text) = skipSpace text from rfl, hspace]

theorem scanOnce_object (fuel : Nat) {rest tail : List Char} (h : skipSpace rest = '"' :: tail) :
    scanOnce (fuel + 1) ('\x7b' :: rest) =
      (scanMembers fuel tail).map fun scanned => (.obj scanned.1, scanned.2) := by
  rw [scanOnce]
  simp only [h]

theorem scanOnce_array (fuel : Nat) {rest : List Char} (h : skipSpace rest = rest)
    (hne : ∀ tail, rest ≠ ']' :: tail) :
    scanOnce (fuel + 1) ('[' :: rest) =
      (scanElements fuel rest).map fun scanned => (.arr scanned.1, scanned.2) := by
  rw [scanOnce]
  simp only [h]

theorem follows_dumpsElements (ensureAscii : Bool) (elements : List Json) (rest : List Char) :
    Follows (dumpsElements ensureAscii elements ++ rest) := by
  cases elements with
  | nil => exact follows_cons (Or.inr (Or.inr rfl)) _
  | cons x elements => exact follows_cons (Or.inl rfl) _

theorem follows_dumpsMembers (ensureAscii : Bool) (members : List (String × Json))
    (rest : List Char) : Follows (dumpsMembers ensureAscii members ++ rest) := by
  rcases members with _ | ⟨⟨key, value⟩, members⟩
  · exact follows_cons (Or.inr (Or.inl rfl)) _
  · exact follows_cons (Or.inl rfl) _

/-! ## The round trip

By recursion over the value, with the elements and members that follow the first
one; the text is never shorter than the fuel it takes. -/

mutual
theorem scanOnce_dumps (ensureAscii : Bool) : ∀ (j : Json), j.plain = true → ∀ (fuel : Nat),
    (dumps ensureAscii j).length ≤ fuel → ∀ {rest : List Char}, Follows rest →
      scanOnce fuel (dumps ensureAscii j ++ rest) = some (j, rest)
  | j, hj, 0, hfuel, rest, hrest => by
    have := length_dumps_pos ensureAscii hj
    omega
  | .null, hj, fuel + 1, hfuel, rest, hrest => rfl
  | .bool true, hj, fuel + 1, hfuel, rest, hrest => rfl
  | .bool false, hj, fuel + 1, hfuel, rest, hrest => rfl
  | .int n, hj, fuel + 1, hfuel, rest, hrest => scanOnce_dumpsInt n fuel hrest
  | .float literal, hj, fuel + 1, hfuel, rest, hrest => absurd hj (by simp [Json.plain])
  | .str s, hj, fuel + 1, hfuel, rest, hrest => by
    show scanOnce (fuel + 1) ('"' :: (escape ensureAscii s.toList ++ ['"']) ++ rest) = _
    rw [List.cons_append, scanOnce, List.append_assoc, List.singleton_append, scanString_escape]
    simp
  | .arr [], hj, fuel + 1, hfuel, rest, hrest => rfl
  | .arr (x :: elements), hj, fuel + 1, hfuel, rest, hrest => by
    have hplain : x.plain = true ∧ plainElements elements = true := by
      simpa [Json.plain, plainElements] using hj
    have hhead := head_dumps ensureAscii hplain.1 (dumpsElements ensureAscii elements ++ rest)
    have hlength : (dumps ensureAscii x ++ dumpsElements ensureAscii elements).length ≤ fuel := by
      simpa [dumps] using hfuel
    show scanOnce (fuel + 1) ('[' :: (dumps ensureAscii x ++ dumpsElements ensureAscii elements) ++
      rest) = _
    rw [List.cons_append, List.append_assoc, scanOnce_array fuel hhead.1 hhead.2,
      scanElements_dumps ensureAscii x elements hplain.1 hplain.2 fuel hlength, Option.map_some]
  | .obj [], hj, fuel + 1, hfuel, rest, hrest => rfl
  | .obj ((key, value) :: members), hj, fuel + 1, hfuel, rest, hrest => by
    have hplain : value.plain = true ∧ plainMembers members = true := by
      simpa [Json.plain, plainMembers] using hj
    have hlength : (escape ensureAscii key.toList).length + 1 +
        (dumps ensureAscii value ++ dumpsMembers ensureAscii members).length ≤ fuel := by
      simp only [dumps, dumpsString, List.length_cons, List.length_append] at hfuel ⊢
      omega
    have htext : dumps ensureAscii (.obj ((key, value) :: members)) ++ rest =
        '\x7b' :: '"' :: (escape ensureAscii key.toList ++ '"' :: ':' :: ' ' ::
          (dumps ensureAscii value ++ (dumpsMembers ensureAscii members ++ rest))) := by
      simp [dumps, dumpsString]
    rw [htext, scanOnce_object fuel rfl,
      scanMembers_dumps ensureAscii key value members hplain.1 hplain.2 fuel hlength,
      Option.map_some]

theorem scanElements_dumps (ensureAscii : Bool) : ∀ (x : Json) (elements : List Json),
    x.plain = true → plainElements elements = true → ∀ (fuel : Nat),
    (dumps ensureAscii x ++ dumpsElements ensureAscii elements).length ≤ fuel →
    ∀ {rest : List Char},
      scanElements fuel (dumps ensureAscii x ++ (dumpsElements ensureAscii elements ++ rest)) =
        some (x :: elements, rest)
  | x, elements, hx, helements, 0, hfuel, rest => by
    have := length_dumps_pos ensureAscii hx
    rw [List.length_append] at hfuel
    omega
  | x, elements, hx, helements, fuel + 1, hfuel, rest => by
    have hlength : (dumps ensureAscii x).length ≤ fuel := by
      have hpos : 0 < (dumpsElements ensureAscii elements).length := by
        cases elements <;> simp [dumpsElements]
      rw [List.length_append] at hfuel
      omega
    rw [scanElements, scanOnce_dumps ensureAscii x hx fuel hlength
      (follows_dumpsElements ensureAscii elements rest)]
    cases elements with
    | nil => rfl
    | cons y elements =>
      have hplain : y.plain = true ∧ plainElements elements = true := by
        simpa [plainElements] using helements
      have hrest : (dumps ensureAscii y ++ dumpsElements ensureAscii elements).length ≤ fuel := by
        simp only [dumpsElements, List.length_append, List.length_cons] at hfuel ⊢
        omega
      have hhead := head_dumps ensureAscii hplain.1 (dumpsElements ensureAscii elements ++ rest)
      show (scanElements fuel (skipSpace ((dumps ensureAscii y ++
        dumpsElements ensureAscii elements) ++ rest))).map _ = _
      rw [List.append_assoc, hhead.1,
        scanElements_dumps ensureAscii y elements hplain.1 hplain.2 fuel hrest, Option.map_some]

theorem scanMembers_dumps (ensureAscii : Bool) : ∀ (key : String) (value : Json)
    (members : List (String × Json)), value.plain = true → plainMembers members = true →
    ∀ (fuel : Nat), (escape ensureAscii key.toList).length + 1 +
      (dumps ensureAscii value ++ dumpsMembers ensureAscii members).length ≤ fuel →
    ∀ {rest : List Char},
      scanMembers fuel (escape ensureAscii key.toList ++ '"' :: ':' :: ' ' ::
        (dumps ensureAscii value ++ (dumpsMembers ensureAscii members ++ rest))) =
        some ((key, value) :: members, rest)
  | key, value, members, hvalue, hmembers, 0, hfuel, rest => by
    omega
  | key, value, members, hvalue, hmembers, fuel + 1, hfuel, rest => by
    have hlength : (dumps ensureAscii value).length ≤ fuel := by
      rw [List.length_append] at hfuel
      omega
    rw [scanMembers_value ensureAscii fuel key (head_dumps ensureAscii hvalue _).1,
      scanOnce_dumps ensureAscii value hvalue fuel hlength
        (follows_dumpsMembers ensureAscii members rest)]
    rcases members with _ | ⟨⟨key', value'⟩, members⟩
    · rfl
    · have hplain : value'.plain = true ∧ plainMembers members = true := by
        simpa [plainMembers] using hmembers
      have hrest : (escape ensureAscii key'.toList).length + 1 +
          (dumps ensureAscii value' ++ dumpsMembers ensureAscii members).length ≤ fuel := by
        simp only [dumpsMembers, dumpsString, List.length_append, List.length_cons] at hfuel ⊢
        omega
      have htext : dumpsMembers ensureAscii ((key', value') :: members) ++ rest =
          ',' :: ' ' :: '"' :: (escape ensureAscii key'.toList ++ '"' :: ':' :: ' ' ::
            (dumps ensureAscii value' ++ (dumpsMembers ensureAscii members ++ rest))) := by
        simp [dumpsMembers, dumpsString]
      rw [htext]
      show (scanMembers fuel _).map _ = _
      rw [scanMembers_dumps ensureAscii key' value' members hplain.1 hplain.2 fuel hrest,
        Option.map_some]
end

/-- `json.loads` undoes `json.dumps`. -/
theorem loads_dumps (ensureAscii : Bool) (hj : j.plain = true) :
    loads (dumps ensureAscii j) = some j := by
  have hhead := head_dumps ensureAscii hj []
  have hscan := scanOnce_dumps ensureAscii j hj ((dumps ensureAscii j).length + 1)
    (Nat.le_succ _) follows_nil
  rw [List.append_nil] at hhead hscan
  have hbom : (dumps ensureAscii j).head? ≠ some '\ufeff' := by
    intro hmark
    obtain ⟨tail, htail⟩ : ∃ tail, dumps ensureAscii j = '\ufeff' :: tail := by
      cases hdumps : dumps ensureAscii j with
      | nil => simp [hdumps] at hmark
      | cons c tail => exact ⟨tail, by simpa [hdumps] using hmark⟩
    -- no value starts with the mark
    rw [htail] at hscan
    exact absurd hscan (by simp [scanOnce, scanNumber, scanNatural, scanDigits])
  unfold loads
  rw [if_neg hbom, hhead.1, hscan]
  rfl

/-! ## A text that ends inside a string -/

/-- The members of an object, from inside the quotes of the first key, cut off
inside the string of the last one. -/
def cutMembers (ensureAscii : Bool) (key : String) (s : List Char) :
    List (String × Json) → List Char
  | [] => escape ensureAscii key.toList ++ '"' :: ':' :: ' ' :: '"' :: escape ensureAscii s
  | (first, value) :: rest =>
    escape ensureAscii first.toList ++ '"' :: ':' :: ' ' :: (dumps ensureAscii value ++
      ',' :: ' ' :: '"' :: cutMembers ensureAscii key s rest)

theorem cutMembers_append (ensureAscii : Bool) (key : String) (s t : List Char)
    (members : List (String × Json)) :
    cutMembers ensureAscii key (s ++ t) members =
      cutMembers ensureAscii key s members ++ escape ensureAscii t := by
  induction members with
  | nil => simp [cutMembers, escape_append]
  | cons member members ih => simp [cutMembers, ih]

theorem scanMembers_cut (ensureAscii : Bool) (key : String) (s : List Char) :
    ∀ (members : List (String × Json)), plainMembers members = true → ∀ fuel,
      (cutMembers ensureAscii key s members).length ≤ fuel →
      scanMembers fuel (cutMembers ensureAscii key s members) = none
  | _, _, 0, _ => by rw [scanMembers]
  | [], _, fuel + 1, _ => by
    rw [cutMembers, scanMembers_value ensureAscii fuel key rfl]
    cases fuel with
    | zero => rw [scanOnce]
    | succ fuel => rw [scanOnce, scanString_cut, Option.map_none]
  | (first, value) :: rest, hplain, fuel + 1, hfuel => by
    have hplain : value.plain = true ∧ plainMembers rest = true := by
      simpa [plainMembers] using hplain
    simp only [cutMembers, List.length_append, List.length_cons] at hfuel
    have hrest := scanMembers_cut ensureAscii key s rest hplain.2 fuel (by omega)
    rw [cutMembers, scanMembers_value ensureAscii fuel first
      (head_dumps ensureAscii hplain.1 _).1,
      scanOnce_dumps ensureAscii value hplain.1 fuel (by omega) (follows_cons (Or.inl rfl) _)]
    show (scanMembers fuel _).map _ = _
    rw [hrest, Option.map_none]

/-- Such a text is no JSON. -/
theorem loads_cut (ensureAscii : Bool) (key : String) (s : List Char)
    {members : List (String × Json)} (hplain : plainMembers members = true) :
    loads ('\x7b' :: '"' :: cutMembers ensureAscii key s members) = none := by
  have hscan := scanMembers_cut ensureAscii key s members hplain
    ('\x7b' :: '"' :: cutMembers ensureAscii key s members).length
    (by simp only [List.length_cons]; omega)
  unfold loads
  rw [if_neg (by simp), show skipSpace ('\x7b' :: '"' :: cutMembers ensureAscii key s members) =
    '\x7b' :: '"' :: cutMembers ensureAscii key s members from rfl, scanOnce_object _ rfl, hscan]
  rfl

/-! ## The line boundaries in a text -/

/-- The line boundaries that `json.dumps` does not escape. -/
def isSeparator (c : Char) : Bool := c.toNat ∈ [0x85, 0x2028, 0x2029]

theorem isLineBreak_digitChar : ∀ n < 16, isLineBreak (Nat.digitChar n) = false := by decide

theorem quiet_unicodeEscape (n : Nat) : Quiet (unicodeEscape n) := by
  have hdigit : ∀ m, isLineBreak (Nat.digitChar (m % 16)) = false := fun m =>
    isLineBreak_digitChar _ (Nat.mod_lt _ (by decide))
  simp only [unicodeEscape, quiet_cons, quiet_nil, hdigit]
  decide

theorem quiet_shortEscape {c e : Char} (h : shortEscape c = some e) : isLineBreak e = false := by
  unfold shortEscape at h
  repeat' split at h
  all_goals
    first
    | obtain rfl := Option.some.inj h
      decide
    | exact absurd h (by simp)

/-- A line boundary that no escape covers is a separator. -/
theorem isSeparator_of_isLineBreak {c : Char} (h : isLineBreak c = true) (hc : ¬ c.toNat < 0x20) :
    isSeparator c = true := by
  simp only [isLineBreak, List.mem_cons, List.not_mem_nil, or_false, decide_eq_true_eq] at h
  simp only [isSeparator, List.mem_cons, List.not_mem_nil, or_false, decide_eq_true_eq]
  omega

theorem quiet_escapeChar (ensureAscii : Bool) {c : Char} (h : isSeparator c = false) :
    Quiet (escapeChar ensureAscii c) := by
  unfold escapeChar
  split
  next e he =>
    rw [quiet_cons, quiet_cons]
    exact ⟨by decide, quiet_shortEscape he, quiet_nil⟩
  next =>
    split
    · split
      · exact quiet_unicodeEscape _
      · exact quiet_append.mpr ⟨quiet_unicodeEscape _, quiet_unicodeEscape _⟩
    next hraw =>
      rw [quiet_cons]
      refine ⟨?_, quiet_nil⟩
      by_contra hbreak
      have hsep := isSeparator_of_isLineBreak (by simpa using hbreak) fun hlt => hraw (Or.inl hlt)
      rw [h] at hsep
      exact absurd hsep (by decide)

theorem quiet_escape (ensureAscii : Bool) {s : List Char} (h : ∀ c ∈ s, isSeparator c = false) :
    Quiet (escape ensureAscii s) := by
  induction s with
  | nil => exact quiet_nil
  | cons c s ih =>
    rw [escape_cons, quiet_append]
    exact ⟨quiet_escapeChar ensureAscii (h c (by simp)), ih fun d hd => h d (by simp [hd])⟩

theorem escapeChar_separator {c : Char} (h : isSeparator c = true) :
    escapeChar false c = [c] ∧ isLineBreak c = true ∧ c ≠ '\r' := by
  simp only [isSeparator, List.mem_cons, List.not_mem_nil, or_false, decide_eq_true_eq] at h
  have hchar : c = Char.ofNat c.toNat := (Char.ofNat_toNat c).symm
  rcases h with h | h | h <;> rw [h] at hchar <;> subst hchar <;> decide

/-- With `ensure_ascii` the separators are escaped too. -/
theorem quiet_escape_ascii (s : List Char) : Quiet (escape true s) := by
  induction s with
  | nil => exact quiet_nil
  | cons c s ih =>
    rw [escape_cons, quiet_append]
    refine ⟨?_, ih⟩
    by_cases hsep : isSeparator c = true
    · have hbig : 0x7f ≤ c.toNat ∧ c.toNat < 0x10000 := by
        simp only [isSeparator, List.mem_cons, List.not_mem_nil, or_false, decide_eq_true_eq] at hsep
        omega
      unfold escapeChar
      split
      next e he =>
        rw [quiet_cons, quiet_cons]
        exact ⟨by decide, quiet_shortEscape he, quiet_nil⟩
      next =>
        rw [if_pos (Or.inr ⟨rfl, hbig.1⟩), if_pos hbig.2]
        exact quiet_unicodeEscape _
    · exact quiet_escapeChar true (by simpa using hsep)

/-! ## What is true of every character of a text -/

section Printed

variable {P : Char → Prop} {ensureAscii : Bool}

theorem word_forall (hprint : ∀ c : Char, 0x20 ≤ c.toNat → c.toNat < 0x7f → P c) {s : List Char}
    (hs : (s.all fun c => 0x20 ≤ c.toNat ∧ c.toNat < 0x7f) = true) : ∀ c ∈ s, P c := by
  intro c hc
  have hrange := of_decide_eq_true (List.all_eq_true.mp hs c hc)
  exact hprint c hrange.1 hrange.2

theorem toDigits_forall (hprint : ∀ c : Char, 0x20 ≤ c.toNat → c.toNat < 0x7f → P c) (n : Nat) :
    ∀ c ∈ Nat.toDigits 10 n, P c := by
  intro c hc
  have hdigit := isDigit_toDigits n c hc
  simp only [Char.isDigit, Bool.and_eq_true, decide_eq_true_eq] at hdigit
  have hlow : 48 ≤ c.toNat := hdigit.1
  have hhigh : c.toNat ≤ 57 := hdigit.2
  exact hprint c (by omega) (by omega)

theorem dumpsInt_forall (hprint : ∀ c : Char, 0x20 ≤ c.toNat → c.toNat < 0x7f → P c) (n : Int) :
    ∀ c ∈ dumpsInt n, P c := by
  unfold dumpsInt
  split
  · exact List.forall_mem_cons.mpr ⟨hprint _ (by decide) (by decide), toDigits_forall hprint _⟩
  · exact toDigits_forall hprint _

theorem dumpsString_forall (hprint : ∀ c : Char, 0x20 ≤ c.toNat → c.toNat < 0x7f → P c)
    (hescape : ∀ s, ∀ c ∈ escape ensureAscii s, P c) (s : String) :
    ∀ c ∈ dumpsString ensureAscii s, P c := by
  have hquote : P '"' := hprint _ (by decide) (by decide)
  intro c hc
  rcases List.mem_cons.mp hc with rfl | hc
  · exact hquote
  rcases List.mem_append.mp hc with hc | hc
  · exact hescape _ c hc
  · rw [List.mem_singleton.mp hc]
    exact hquote

mutual
/-- A text is the characters its strings are escaped to, and printable ASCII. -/
theorem dumps_forall (hprint : ∀ c : Char, 0x20 ≤ c.toNat → c.toNat < 0x7f → P c)
    (hescape : ∀ s, ∀ c ∈ escape ensureAscii s, P c) :
    ∀ (j : Json), j.plain = true → ∀ c ∈ dumps ensureAscii j, P c
  | .null, _ => by
    simp only [dumps]
    exact word_forall hprint (by decide)
  | .bool true, _ => by
    simp only [dumps]
    exact word_forall hprint (by decide)
  | .bool false, _ => by
    simp only [dumps]
    exact word_forall hprint (by decide)
  | .arr [], _ => by
    simp only [dumps]
    exact word_forall hprint (by decide)
  | .obj [], _ => by
    simp only [dumps]
    exact word_forall hprint (by decide)
  | .int n, _ => dumpsInt_forall hprint n
  | .float literal, hj => absurd hj (by simp [Json.plain])
  | .str s, _ => dumpsString_forall hprint hescape s
  | .arr (x :: elements), hj => by
    have hplain : x.plain = true ∧ plainElements elements = true := by
      simpa [Json.plain, plainElements] using hj
    simp only [dumps, List.forall_mem_append, List.forall_mem_cons, and_assoc]
    exact ⟨hprint _ (by decide) (by decide), dumps_forall hprint hescape x hplain.1,
      dumpsElements_forall hprint hescape elements hplain.2⟩
  | .obj ((key, value) :: members), hj => by
    have hplain : value.plain = true ∧ plainMembers members = true := by
      simpa [Json.plain, plainMembers] using hj
    simp only [dumps, List.forall_mem_append, List.forall_mem_cons, and_assoc]
    exact ⟨hprint _ (by decide) (by decide), dumpsString_forall hprint hescape key,
      hprint _ (by decide) (by decide), hprint _ (by decide) (by decide),
      dumps_forall hprint hescape value hplain.1,
      dumpsMembers_forall hprint hescape members hplain.2⟩

theorem dumpsElements_forall (hprint : ∀ c : Char, 0x20 ≤ c.toNat → c.toNat < 0x7f → P c)
    (hescape : ∀ s, ∀ c ∈ escape ensureAscii s, P c) :
    ∀ (elements : List Json), plainElements elements = true →
      ∀ c ∈ dumpsElements ensureAscii elements, P c
  | [], _ => by
    simp only [dumpsElements, List.forall_mem_cons]
    exact ⟨hprint _ (by decide) (by decide), List.forall_mem_nil _⟩
  | x :: elements, hplain => by
    have hplain : x.plain = true ∧ plainElements elements = true := by
      simpa [plainElements] using hplain
    simp only [dumpsElements, List.forall_mem_append, List.forall_mem_cons, and_assoc]
    exact ⟨hprint _ (by decide) (by decide), hprint _ (by decide) (by decide),
      dumps_forall hprint hescape x hplain.1,
      dumpsElements_forall hprint hescape elements hplain.2⟩

theorem dumpsMembers_forall (hprint : ∀ c : Char, 0x20 ≤ c.toNat → c.toNat < 0x7f → P c)
    (hescape : ∀ s, ∀ c ∈ escape ensureAscii s, P c) :
    ∀ (members : List (String × Json)), plainMembers members = true →
      ∀ c ∈ dumpsMembers ensureAscii members, P c
  | [], _ => by
    simp only [dumpsMembers, List.forall_mem_cons]
    exact ⟨hprint _ (by decide) (by decide), List.forall_mem_nil _⟩
  | (key, value) :: members, hplain => by
    have hplain : value.plain = true ∧ plainMembers members = true := by
      simpa [plainMembers] using hplain
    simp only [dumpsMembers, List.forall_mem_append, List.forall_mem_cons, and_assoc]
    exact ⟨hprint _ (by decide) (by decide), hprint _ (by decide) (by decide),
      dumpsString_forall hprint hescape key, hprint _ (by decide) (by decide),
      hprint _ (by decide) (by decide), dumps_forall hprint hescape value hplain.1,
      dumpsMembers_forall hprint hescape members hplain.2⟩
end

end Printed

/-- With `ensure_ascii` a value is one line. -/
theorem quiet_dumps_ascii (j : Json) (hj : j.plain = true) : Quiet (dumps true j) := by
  refine dumps_forall (fun c hlow hhigh => ?_) quiet_escape_ascii j hj
  simp only [isLineBreak, List.mem_cons, List.not_mem_nil, or_false, decide_eq_false_iff_not]
  omega

/-! ## Line ends -/

/-- `\r` or `\n`. -/
def isLineEnd (c : Char) : Bool := c = '\r' ∨ c = '\n'

theorem isLineEnd_isLineBreak {c : Char} (h : isLineBreak c = false) : isLineEnd c = false := by
  refine decide_eq_false fun hend => ?_
  rcases hend with rfl | rfl <;> exact absurd h (by decide)

/-- Every control character is escaped, so no line of a string ends. -/
theorem escape_lineEnd (ensureAscii : Bool) (s : List Char) :
    ∀ c ∈ escape ensureAscii s, isLineEnd c = false := by
  induction s with
  | nil => exact List.forall_mem_nil _
  | cons c s ih =>
    rw [escape_cons]
    refine List.forall_mem_append.mpr ⟨?_, ih⟩
    by_cases hsep : isSeparator c = true
    · intro d hd
      cases ensureAscii with
      | true =>
        have hquiet := quiet_escape_ascii [c] d (by simpa [escape] using hd)
        exact isLineEnd_isLineBreak hquiet
      | false =>
        obtain ⟨hraw, -, hcr⟩ := escapeChar_separator hsep
        rw [hraw, List.mem_singleton] at hd
        subst hd
        have hlf : d ≠ '\n' := by
          intro hlf
          rw [hlf] at hsep
          exact absurd hsep (by decide)
        simp [isLineEnd, hcr, hlf]
    · intro d hd
      exact isLineEnd_isLineBreak (quiet_escapeChar ensureAscii (by simpa using hsep) d hd)

/-- A value is one line to a reader that knows no other line ends. -/
theorem dumps_lineEnd (ensureAscii : Bool) (j : Json) (hj : j.plain = true) :
    ∀ c ∈ dumps ensureAscii j, isLineEnd c = false := by
  refine dumps_forall (fun c hlow hhigh => isLineEnd_isLineBreak ?_) (escape_lineEnd ensureAscii) j hj
  simp only [isLineBreak, List.mem_cons, List.not_mem_nil, or_false, decide_eq_false_iff_not]
  omega

end LocalRag.Core
