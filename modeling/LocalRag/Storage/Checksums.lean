import LocalRag.Storage.Archive

/-!
# Three readers of one key — `canonical_object_key` and the two that take a key apart

Mirrors `checksum_from_object_key` (`app/services/object_deletions.py`) beside the two readers
`Transfer.lean` has already. Each leans on `int(text, 16)` where it means "hexadecimal digits",
and `int` reads more: a sign, `0x`, underscores, white space at the ends and the decimal digits of
every script.

The three agree with each other on every string (`checksumFromObjectKey_eq_ok`,
`isCanonicalObjectKey_iff`: both read `keyText digest` for a lower-case `digest` that parses); what
is wrong is the language. `keysAgree_iff` says for which inputs nothing of it is seen.

Mirroring note. `lower` knows the letters of ASCII only. No other letter becomes one that `int` reads
in base 16, whatever it does to the length, so the same texts are refused.
-/

namespace LocalRag.Transfer

open LocalRag.Core

/-! ## The reader of the outbox -/

def checksumFromObjectKey (key : String) : Except TransferError String :=
  match splitSlash key.toList with
  | [first, second, third] =>
    if first ≠ "originals".toList ∨ ¬ ".pdf".toList <:+ third then
      .error (.value "outbox object key is not canonical")
    else
      let checksum := String.ofList (third.take (third.length - 4))
      if checksum.length ≠ 64 ∨ second ≠ checksum.toList.take 2 then
        .error (.value "outbox object key is not canonical")
      else if ¬ parsesBase16 checksum.toList then
        .error (.value "outbox object key is not canonical")
      else if checksum ≠ lower checksum then
        .error (.value "outbox object key is not canonical")
      else .ok checksum
  | _ => .error (.value "outbox object key is not canonical")

/-! ## Parts between slashes -/

theorem splitSlash_ne_nil (text : List Char) : splitSlash text ≠ [] := by
  induction text with
  | nil => simp [splitSlash]
  | cons c rest ih =>
    unfold splitSlash
    split
    · simp
    · cases hrest : splitSlash rest with
      | nil => exact absurd hrest ih
      | cons part parts => simp [consLine]

theorem join_splitSlash (text : List Char) : joinWith '/' (splitSlash text) = text := by
  induction text with
  | nil => rfl
  | cons c rest ih =>
    unfold splitSlash
    cases hrest : splitSlash rest with
    | nil => exact absurd hrest (splitSlash_ne_nil rest)
    | cons part parts =>
      rw [hrest] at ih
      split
      · next hc =>
        show '/' :: joinWith '/' (part :: parts) = c :: rest
        rw [ih, hc]
      · -- the character goes to the front of the first part, whatever follows it
        have hfirst : joinWith '/' ((c :: part) :: parts) = c :: joinWith '/' (part :: parts) := by
          cases parts <;> rfl
        show joinWith '/' ((c :: part) :: parts) = c :: rest
        rw [hfirst, ih]

variable {text : List Char}

theorem slash_not_mem_part : ∀ part ∈ splitSlash text, '/' ∉ part := by
  induction text with
  | nil => simp [splitSlash]
  | cons c rest ih =>
    unfold splitSlash
    split
    · intro part hpart
      rcases List.mem_cons.mp hpart with heq | hin
      · simp [heq]
      · exact ih part hin
    · next hc =>
      cases hrest : splitSlash rest with
      | nil => exact absurd hrest (splitSlash_ne_nil rest)
      | cons first parts =>
        rw [hrest] at ih
        intro part hpart
        rcases List.mem_cons.mp hpart with heq | hin
        · subst heq
          have hfirst := ih first List.mem_cons_self
          simp [hfirst, Ne.symm hc]
        · exact ih part (List.mem_cons_of_mem _ hin)

theorem splitSlash_quiet {part : List Char} (h : '/' ∉ part) : splitSlash part = [part] := by
  induction part with
  | nil => rfl
  | cons c rest ih =>
    have hc : c ≠ '/' := fun heq => h (by simp [heq])
    unfold splitSlash
    rw [if_neg hc, ih fun hin => h (List.mem_cons_of_mem _ hin)]
    rfl

theorem splitSlash_append {part : List Char} (rest : List Char) (h : '/' ∉ part) :
    splitSlash (part ++ '/' :: rest) = part :: splitSlash rest := by
  induction part with
  | nil => rfl
  | cons c part ih =>
    have hc : c ≠ '/' := fun heq => h (by simp [heq])
    have hrest := ih fun hin => h (List.mem_cons_of_mem _ hin)
    rw [List.cons_append, splitSlash, if_neg hc, hrest]
    rfl

/-- Three parts are the text between two slashes. -/
theorem splitSlash_eq_three {first second third : List Char} :
    splitSlash text = [first, second, third] ↔
      text = first ++ '/' :: (second ++ '/' :: third) ∧
        '/' ∉ first ∧ '/' ∉ second ∧ '/' ∉ third := by
  refine ⟨fun h => ?_, fun ⟨htext, hfirst, hsecond, hthird⟩ => ?_⟩
  · have hjoin := join_splitSlash text
    have hparts : ∀ part ∈ splitSlash text, '/' ∉ part := slash_not_mem_part
    rw [h] at hjoin hparts
    exact ⟨hjoin.symm, hparts first (by simp), hparts second (by simp), hparts third (by simp)⟩
  · rw [htext, splitSlash_append _ hfirst, splitSlash_append _ hsecond, splitSlash_quiet hthird]

/-! ## Characters that `int` reads -/

/-- What `int(text, 16)` reads and is no hexadecimal digit of ASCII. -/
def isOddChar (c : Char) : Bool :=
  isIntSpace c ∨ c ∈ ['+', '-', '_', 'x', 'X'] ∨ (isDecimal c ∧ 0x39 < c.toNat)

def isHexDigit (c : Char) : Bool := isLowerHex c ∨ ('A' ≤ c ∧ c ≤ 'F')

/-- The digits of the scripts start with those of ASCII. -/
theorem isDecimal_toNat {c : Char} (h : isDecimal c = true) :
    (48 ≤ c.toNat ∧ c.toNat ≤ 57) ∨ 0x660 ≤ c.toNat := by
  obtain ⟨z, hz, hrange⟩ := List.any_eq_true.mp h
  have hzero : z = 48 ∨ 0x660 ≤ z := by
    simp only [decimalZeros, List.mem_cons, List.not_mem_nil, or_false] at hz
    omega
  have hdigit := of_decide_eq_true hrange
  omega

theorem isIntSpace_toNat {c : Char} (h : isIntSpace c = true) : c.toNat ≤ 32 ∨ 0x85 ≤ c.toNat := by
  have hmem := of_decide_eq_true (of_decide_eq_true h).1
  simp only [List.mem_cons, List.not_mem_nil, or_false] at hmem
  omega

theorem isHexDigit_iff {c : Char} : isHexDigit c = true ↔
    (48 ≤ c.toNat ∧ c.toNat ≤ 57) ∨ (97 ≤ c.toNat ∧ c.toNat ≤ 102) ∨
      (65 ≤ c.toNat ∧ c.toNat ≤ 70) := by
  unfold isHexDigit
  rw [decide_eq_true_iff, isLowerHex_iff, or_assoc]
  exact Iff.rfl

/-- Between `A` and `z` only three characters are odd. -/
theorem isOddChar_toNat {c : Char} (h : isOddChar c = true) :
    c.toNat ≤ 47 ∨ c = 'X' ∨ c = '_' ∨ c = 'x' ∨ 0x85 ≤ c.toNat := by
  rcases of_decide_eq_true h with hspace | hsign | ⟨hdecimal, hbig⟩
  · have hrange := isIntSpace_toNat hspace
    omega
  · simp only [List.mem_cons, List.not_mem_nil, or_false] at hsign
    rcases hsign with rfl | rfl | hrest
    · exact Or.inl (by decide)
    · exact Or.inl (by decide)
    · tauto
  · have hrange := isDecimal_toNat hdecimal
    omega

theorem not_hex_of_odd {c : Char} (h : isOddChar c = true) : isHexDigit c = false := by
  refine Bool.eq_false_iff.mpr fun hhex => ?_
  have hrange := isHexDigit_iff.mp hhex
  rcases isOddChar_toNat h with hlow | rfl | rfl | rfl | hhigh
  · omega
  · exact absurd hhex (by decide)
  · exact absurd hhex (by decide)
  · exact absurd hhex (by decide)
  · omega

theorem base16_cases {c : Char} (h : isBase16Digit c = true) :
    isHexDigit c = true ∨ isOddChar c = true := by
  rcases of_decide_eq_true h with hdecimal | hlow | hhigh
  · by_cases hbig : 0x39 < c.toNat
    · exact Or.inr (decide_eq_true (Or.inr (Or.inr ⟨hdecimal, hbig⟩)))
    · have hrange := isDecimal_toNat hdecimal
      exact Or.inl (isHexDigit_iff.mpr (by omega))
  · exact Or.inl (decide_eq_true (Or.inl (decide_eq_true (Or.inr hlow))))
  · exact Or.inl (decide_eq_true (Or.inr hhigh))

theorem odd_of_mem {c : Char} (h : c ∈ ['+', '-', '_', 'x', 'X']) : isOddChar c = true :=
  decide_eq_true (Or.inr (Or.inl h))

/-- Hexadecimal digits and odd characters. -/
def Readable (text : List Char) : Prop := ∀ c ∈ text, isHexDigit c = true ∨ isOddChar c = true

theorem Readable.cons {c : Char} {text : List Char} (hc : isHexDigit c = true ∨ isOddChar c = true)
    (h : Readable text) : Readable (c :: text) := by
  intro e he
  rcases List.mem_cons.mp he with heq | hin
  · rw [heq]
    exact hc
  · exact h e hin

theorem readable_digitGroups : ∀ {text : List Char}, digitGroups text = true → Readable text
  | [], h => by simp [digitGroups] at h
  | [c], h => Readable.cons (base16_cases h) (by simp [Readable])
  | c :: d :: rest, h => by
    unfold digitGroups at h
    rw [Bool.and_eq_true] at h
    refine Readable.cons (base16_cases h.1) ?_
    by_cases hd : d = '_'
    · rw [if_pos hd] at h
      refine Readable.cons (Or.inr (odd_of_mem (by simp [hd]))) (readable_digitGroups h.2)
    · rw [if_neg hd] at h
      exact readable_digitGroups h.2

theorem readable_dropRadix (h : Readable (dropRadix text)) : Readable text := by
  unfold dropRadix at h
  split at h
  · next c d rest =>
    split at h
    · next hradix =>
      have hzero : isBase16Digit c = true :=
        decide_eq_true (Or.inl (List.any_eq_true.mpr ⟨c.toNat, hradix.1, by simp⟩))
      have hx : d ∈ ['+', '-', '_', 'x', 'X'] := by
        rcases hradix.2 with rfl | rfl <;> simp
      refine Readable.cons (base16_cases hzero) (Readable.cons (Or.inr (odd_of_mem hx)) ?_)
      cases rest with
      | nil => simp [Readable]
      | cons e rest =>
        by_cases he : e = '_'
        · subst he
          exact Readable.cons (Or.inr (odd_of_mem (by simp))) h
        · rw [if_neg (by simpa using he)] at h
          exact h
    · exact h
  · exact h

theorem readable_dropSign (h : Readable (dropSign text)) : Readable text := by
  cases text with
  | nil => exact h
  | cons c rest =>
    by_cases hc : c = '+' ∨ c = '-'
    · rw [dropSign, if_pos hc] at h
      refine Readable.cons (Or.inr (odd_of_mem ?_)) h
      rcases hc with rfl | rfl <;> simp
    · rw [dropSign, if_neg hc] at h
      exact h

theorem readable_trim (h : Readable (trim isIntSpace text)) : Readable text := by
  intro c hc
  have hblank : isIntSpace c = true → isHexDigit c = true ∨ isOddChar c = true :=
    fun hspace => Or.inr (decide_eq_true (Or.inl hspace))
  rw [← @List.takeWhile_append_dropWhile _ isIntSpace text,
    ← @List.rdropWhile_append_rtakeWhile _ isIntSpace (text.dropWhile isIntSpace)] at hc
  rcases List.mem_append.mp hc with hfront | hrest
  · exact hblank (List.mem_takeWhile_imp hfront)
  · rcases List.mem_append.mp hrest with hmiddle | hback
    · exact h c hmiddle
    · exact hblank (List.mem_rtakeWhile_imp hback)

/-- `int` reads a text of hexadecimal digits and odd characters. -/
theorem readable_of_parses (h : parsesBase16 text = true) : Readable text :=
  readable_trim (readable_dropSign (readable_dropRadix (readable_digitGroups h)))

theorem slash_not_mem (h : parsesBase16 text = true) : '/' ∉ text := by
  intro hslash
  rcases readable_of_parses h '/' hslash with hhex | hodd
  · exact absurd hhex (by decide)
  · exact absurd hodd (by decide)

/-! ## Lower case -/

section Lower

variable {c : Char}

theorem toNat_toLower_upper (h : 65 ≤ c.toNat ∧ c.toNat ≤ 90) :
    c.toLower.toNat = c.toNat + 32 := by
  unfold Char.toLower
  rw [dif_pos ⟨UInt32.le_iff_toNat_le.mpr h.1, UInt32.le_iff_toNat_le.mpr h.2⟩]
  show (c.val + ('a'.val - 'A'.val)).toNat = c.toNat + 32
  rw [UInt32.toNat_add]
  refine Nat.mod_eq_of_lt ?_
  show c.toNat + 32 < 4294967296
  omega

theorem toLower_other (h : ¬(65 ≤ c.toNat ∧ c.toNat ≤ 90)) : c.toLower = c := by
  unfold Char.toLower
  refine dif_neg fun hupper => h ?_
  exact ⟨UInt32.le_iff_toNat_le.mp hupper.1, UInt32.le_iff_toNat_le.mp hupper.2⟩

theorem toLower_toLower (c : Char) : c.toLower.toLower = c.toLower := by
  by_cases h : 65 ≤ c.toNat ∧ c.toNat ≤ 90
  · have hlow := toNat_toLower_upper h
    exact toLower_other (by omega)
  · rw [toLower_other h, toLower_other h]

theorem isHexDigit_toLower (c : Char) : isHexDigit c.toLower = true ↔ isHexDigit c = true := by
  by_cases h : 65 ≤ c.toNat ∧ c.toNat ≤ 90
  · rw [isHexDigit_iff, isHexDigit_iff, toNat_toLower_upper h]
    omega
  · rw [toLower_other h]

theorem isLowerHex_toLower (h : isHexDigit c = true) : isLowerHex c.toLower = true := by
  have hrange := isHexDigit_iff.mp h
  rw [isLowerHex_iff]
  by_cases hupper : 65 ≤ c.toNat ∧ c.toNat ≤ 90
  · rw [toNat_toLower_upper hupper]
    omega
  · rw [toLower_other hupper]
    omega

/-- The one letter among them is `x`. -/
theorem isOddChar_toLower (c : Char) : isOddChar c.toLower = true ↔ isOddChar c = true := by
  by_cases h : 65 ≤ c.toNat ∧ c.toNat ≤ 90
  · have hlow := toNat_toLower_upper h
    refine ⟨fun hodd => ?_, fun hodd => ?_⟩
    · have hx : c.toLower = 'x' := by
        rcases isOddChar_toNat hodd with hrest | hrest | hrest | hrest | hrest
        · omega
        · rw [hrest] at hlow
          have hX : ('X').toNat = 88 := rfl
          omega
        · rw [hrest] at hlow
          have hbar : ('_').toNat = 95 := rfl
          omega
        · exact hrest
        · omega
      have hX : c = 'X' := by
        rw [hx] at hlow
        have hnat : ('x').toNat = 120 := rfl
        apply Char.toNat_inj.mp
        show c.toNat = 88
        omega
      exact odd_of_mem (by simp [hX])
    · have hX : c = 'X' := by
        rcases isOddChar_toNat hodd with hrest | hrest | hrest | hrest | hrest
        · omega
        · exact hrest
        · rw [hrest] at h
          exact absurd h.2 (by decide)
        · rw [hrest] at h
          exact absurd h.2 (by decide)
        · omega
      rw [hX]
      exact odd_of_mem (by decide)
  · rw [toLower_other h]

end Lower

theorem toList_lower (text : String) : (lower text).toList = text.toList.map Char.toLower :=
  String.toList_ofList

theorem length_lower (text : String) : (lower text).length = text.length := by
  rw [← String.length_toList, toList_lower, List.length_map, String.length_toList]

theorem lower_lower (text : String) : lower (lower text) = lower text := by
  apply String.toList_inj.mp
  rw [toList_lower, toList_lower, List.map_map]
  exact List.map_congr_left fun c _ => toLower_toLower c

/-! ## The keys the three read -/

/-- `f"originals/{digest[:2]}/{digest}.pdf"`. -/
def keyText (digest : List Char) : List Char :=
  "originals".toList ++ '/' :: (digest.take 2 ++ '/' :: (digest ++ ".pdf".toList))

/-- 64 characters that `int` reads. -/
def Parses (digest : String) : Prop := digest.length = 64 ∧ parsesBase16 digest.toList = true

/-- As the source puts it together. -/
theorem toList_formatted (digest : String) :
    ("originals/" ++ String.ofList (digest.toList.take 2) ++ "/" ++ digest ++ ".pdf" :
      String).toList = keyText digest.toList := by
  have horiginals : "originals/".toList = "originals".toList ++ ['/'] := by decide
  have hslash : "/".toList = ['/'] := by decide
  have htake : (String.ofList (digest.toList.take 2)).toList = digest.toList.take 2 :=
    String.toList_ofList
  unfold keyText
  rw [String.toList_append, String.toList_append, String.toList_append, String.toList_append,
    htake, horiginals, hslash, List.append_assoc, List.append_assoc, List.append_assoc,
    List.append_assoc]
  rfl

theorem canonicalObjectKey_eq_ok {sha256 key : String} : canonicalObjectKey sha256 = .ok key ↔
    Parses (lower sha256) ∧ key.toList = keyText (lower sha256).toList := by
  unfold canonicalObjectKey Parses
  rw [← toList_formatted, String.toList_inj]
  by_cases hlength : (lower sha256).length = 64
  · by_cases hparses : parsesBase16 (lower sha256).toList = true
    · simp only [hlength, hparses, ne_eq, not_true_eq_false, if_false, Except.ok.injEq, true_and]
      exact eq_comm
    · simp [hlength, hparses]
  · simp [hlength]

/-- The digest of a key text. -/
theorem keyText_inj {digest digest' : List Char} (hlength : digest.length = digest'.length)
    (h : keyText digest = keyText digest') : digest = digest' := by
  have hrest := List.append_cancel_left h
  have htake : (digest.take 2).length = (digest'.take 2).length := by
    rw [List.length_take, List.length_take, hlength]
  have hsecond := (List.append_inj (List.cons.inj hrest).2 htake).2
  exact List.append_cancel_right (List.cons.inj hsecond).2

/-- The parts of a key, whichever reader takes it apart. -/
theorem splitSlash_keyText {digest : List Char} (hslash : '/' ∉ digest) :
    splitSlash text = ["originals".toList, digest.take 2, digest ++ ".pdf".toList] ↔
      text = keyText digest := by
  have horiginals : '/' ∉ "originals".toList := by decide
  have hpdf : '/' ∉ ".pdf".toList := by decide
  rw [splitSlash_eq_three]
  refine ⟨fun h => h.1, fun h => ⟨h, horiginals, ?_, ?_⟩⟩
  · exact fun hin => hslash (List.mem_of_mem_take hin)
  · intro hin
    rcases List.mem_append.mp hin with hfront | hback
    · exact hslash hfront
    · exact hpdf hback

/-- What either reader has seen before it looks at the digest. -/
theorem keyText_of_parts {first second third : List Char}
    (hparts : splitSlash text = [first, second, third]) (hfirst : first = "originals".toList)
    (hends : ".pdf".toList <:+ third) (hsecond : second = (third.take (third.length - 4)).take 2) :
    text = keyText (third.take (third.length - 4)) := by
  obtain ⟨htext, -, -, -⟩ := splitSlash_eq_three.mp hparts
  obtain ⟨front, rfl⟩ := hends
  have hpdf : ".pdf".toList.length = 4 := by decide
  have hfront : (front ++ ".pdf".toList).take ((front ++ ".pdf".toList).length - 4) = front := by
    rw [List.length_append, hpdf, Nat.add_sub_cancel, List.take_left']
    rfl
  rw [hfront] at hsecond ⊢
  rw [htext, hfirst, hsecond]
  rfl

theorem take_keyText (digest : List Char) :
    (digest ++ ".pdf".toList).take ((digest ++ ".pdf".toList).length - 4) = digest := by
  have hpdf : ".pdf".toList.length = 4 := by decide
  rw [List.length_append, hpdf, Nat.add_sub_cancel, List.take_left']
  rfl

theorem checksumFromObjectKey_eq_ok {key checksum : String} :
    checksumFromObjectKey key = .ok checksum ↔
      Parses checksum ∧ lower checksum = checksum ∧ key.toList = keyText checksum.toList := by
  refine ⟨fun h => ?_, fun ⟨⟨hlength, hparses⟩, hlower, hkey⟩ => ?_⟩
  · unfold checksumFromObjectKey at h
    split at h
    · next first second third hparts =>
      dsimp only at h
      split at h
      · cases h
      · next hends =>
        rw [not_or, Decidable.not_not, Decidable.not_not] at hends
        split at h
        · cases h
        · next hsecond =>
          rw [not_or, Decidable.not_not, Decidable.not_not] at hsecond
          split at h
          · cases h
          · next hparses =>
            split at h
            · cases h
            · next hlower =>
              rw [String.toList_ofList] at hsecond
              have hkey := keyText_of_parts hparts hends.1 hends.2 hsecond.2
              rw [← Except.ok.inj h]
              refine ⟨⟨hsecond.1, Decidable.not_not.mp hparses⟩, ?_, ?_⟩
              · exact (Decidable.not_not.mp hlower).symm
              · rw [hkey, String.toList_ofList]
    · cases h
  · have hparts := (splitSlash_keyText (slash_not_mem hparses)).mpr hkey
    unfold checksumFromObjectKey
    rw [hparts]
    dsimp only
    rw [take_keyText, String.ofList_toList, hlower]
    simp [hlength, hparses]

theorem isCanonicalObjectKey_iff {key : String} : isCanonicalObjectKey key = true ↔
    ∃ checksum, Parses checksum ∧ lower checksum = checksum ∧
      key.toList = keyText checksum.toList := by
  refine ⟨fun h => ?_, fun ⟨checksum, ⟨hlength, hparses⟩, hlower, hkey⟩ => ?_⟩
  · unfold isCanonicalObjectKey at h
    split at h
    · next first second third hparts =>
      dsimp only at h
      split at h
      · cases h
      · next hends =>
        rw [not_or, Decidable.not_not, Decidable.not_not] at hends
        split at h
        · cases h
        · next hsecond =>
          have hkey := keyText_of_parts hparts hends.1 hends.2 (Decidable.not_not.mp hsecond)
          generalize third.take (third.length - 4) = front at h hkey
          have hfront : (String.ofList front).toList = front := String.toList_ofList
          split at h
          · next formatted hcanonical =>
            obtain ⟨hparses, hformatted⟩ := canonicalObjectKey_eq_ok.mp hcanonical
            -- the formatted key is the lower case of the text that was read
            have hlength : front.length = (lower (String.ofList front)).toList.length := by
              rw [toList_lower, List.length_map, hfront]
            rw [of_decide_eq_true h, hkey] at hformatted
            have hlower : lower (String.ofList front) = String.ofList front := by
              apply String.toList_inj.mp
              rw [← keyText_inj hlength hformatted, hfront]
            rw [hlower] at hparses
            exact ⟨_, hparses, hlower, by rw [hkey, hfront]⟩
          · cases h
    · cases h
  · have hparts := (splitSlash_keyText (slash_not_mem hparses)).mpr hkey
    have hcanonical : canonicalObjectKey checksum = .ok key := by
      rw [canonicalObjectKey_eq_ok, hlower]
      exact ⟨⟨hlength, hparses⟩, hkey⟩
    unfold isCanonicalObjectKey
    rw [hparts]
    dsimp only
    rw [take_keyText, String.ofList_toList, hcanonical]
    simp

/-! ## Which inputs show it -/

/-- Read by `int`, and not as hexadecimal digits alone. -/
def OddlyWritten (text : String) : Prop :=
  Parses (lower text) ∧ ∃ c ∈ text.toList, isOddChar c = true

/-- The key of such a text in lower case. -/
def OddKey (key : String) : Prop :=
  ∃ text, OddlyWritten text ∧ lower text = text ∧ key.toList = keyText text.toList

/-- The three on a checksum and on a key. -/
structure KeysAgree (sha256 key : String) : Prop where
  digits : (∃ made, canonicalObjectKey sha256 = .ok made) ↔
    sha256.length = 64 ∧ ∀ c ∈ sha256.toList, isHexDigit c = true
  checksum : ∀ made, canonicalObjectKey sha256 = .ok made →
    checksumFromObjectKey made = .ok (lower sha256)
  back : ∀ checksum, checksumFromObjectKey key = .ok checksum →
    canonicalObjectKey checksum = .ok key
  same : (∃ checksum, checksumFromObjectKey key = .ok checksum) ↔ isCanonicalObjectKey key = true
  form : isCanonicalObjectKey key = true ↔ ∃ digest, isHexDigest digest = true ∧
    key = "originals/" ++ String.ofList (digest.toList.take 2) ++ "/" ++ digest ++ ".pdf"

theorem canonicalObjectKey_isOk {sha256 : String} :
    (∃ made, canonicalObjectKey sha256 = .ok made) ↔ Parses (lower sha256) := by
  refine ⟨fun ⟨made, h⟩ => (canonicalObjectKey_eq_ok.mp h).1, fun h => ?_⟩
  exact ⟨_, canonicalObjectKey_eq_ok.mpr ⟨h, String.toList_ofList⟩⟩

/-- A text that `int` reads is 64 hexadecimal digits, or is odd. -/
theorem hex_of_not_odd {text : String} (hparses : Parses (lower text))
    (hodd : ¬OddlyWritten text) : ∀ c ∈ text.toList, isHexDigit c = true := by
  intro c hc
  have hlow : c.toLower ∈ (lower text).toList := by
    rw [toList_lower]
    exact List.mem_map_of_mem hc
  rcases readable_of_parses hparses.2 _ hlow with hhex | hodd'
  · exact (isHexDigit_toLower c).mp hhex
  · exact absurd ⟨hparses, c, hc, (isOddChar_toLower c).mp hodd'⟩ hodd

theorem parses_of_hex {text : String} (hlength : text.length = 64)
    (h : ∀ c ∈ text.toList, isHexDigit c = true) : Parses (lower text) := by
  have hlength' : (lower text).length = 64 := by rw [length_lower, hlength]
  refine ⟨hlength', parsesBase16_of_lowerHex (fun hempty => ?_) fun c hc => ?_⟩
  · rw [← String.length_toList, hempty] at hlength'
    cases hlength'
  · rw [toList_lower] at hc
    obtain ⟨d, hd, rfl⟩ := List.mem_map.mp hc
    exact isLowerHex_toLower (h d hd)

theorem digits_iff (sha256 : String) :
    ((∃ made, canonicalObjectKey sha256 = .ok made) ↔
      sha256.length = 64 ∧ ∀ c ∈ sha256.toList, isHexDigit c = true) ↔ ¬OddlyWritten sha256 := by
  rw [canonicalObjectKey_isOk]
  refine ⟨fun h ⟨hparses, c, hc, hodd⟩ => ?_, fun hodd => ⟨fun hparses => ?_, fun h => ?_⟩⟩
  · have hhex := (h.mp hparses).2 c hc
    rw [not_hex_of_odd hodd] at hhex
    cases hhex
  · exact ⟨by rw [← length_lower, hparses.1], hex_of_not_odd hparses hodd⟩
  · exact parses_of_hex h.1 h.2

/-- Lower-case hexadecimal digits, seen as those of `isHexDigit` that `lower` leaves. -/
theorem isHexDigest_iff {digest : String} : isHexDigest digest = true ↔
    digest.length = 64 ∧ lower digest = digest ∧ ∀ c ∈ digest.toList, isHexDigit c = true := by
  unfold isHexDigest
  rw [decide_eq_true_iff, List.all_eq_true]
  refine ⟨fun ⟨hlength, h⟩ => ⟨hlength, ?_, fun c hc => ?_⟩,
    fun ⟨hlength, hlower, h⟩ => ⟨hlength, ?_⟩⟩
  · apply String.toList_inj.mp
    rw [toList_lower]
    have hsame : digest.toList.map Char.toLower = digest.toList.map id :=
      List.map_congr_left fun c hc => by
        have hrange := isLowerHex_iff.mp (h c hc)
        exact toLower_other (by omega)
    rw [hsame, List.map_id]
  · exact decide_eq_true (Or.inl (h c hc))
  · rw [← hlower, toList_lower]
    intro c hc
    obtain ⟨d, hd, rfl⟩ := List.mem_map.mp hc
    exact isLowerHex_toLower (h d hd)

theorem form_iff (key : String) :
    (isCanonicalObjectKey key = true ↔ ∃ digest, isHexDigest digest = true ∧
      key = "originals/" ++ String.ofList (digest.toList.take 2) ++ "/" ++ digest ++ ".pdf") ↔
      ¬OddKey key := by
  rw [isCanonicalObjectKey_iff]
  refine ⟨fun h ⟨text, hodd, hlower, hkey⟩ => ?_, fun hodd => ⟨?_, ?_⟩⟩
  · have hparses : Parses text := hlower ▸ hodd.1
    obtain ⟨digest, hdigest, hmade⟩ := h.mp ⟨text, hparses, hlower, hkey⟩
    obtain ⟨hlength, -, hhex⟩ := isHexDigest_iff.mp hdigest
    rw [hmade, toList_formatted] at hkey
    have hlengths : digest.toList.length = text.toList.length := by
      rw [String.length_toList, String.length_toList, hlength, hparses.1]
    obtain ⟨c, hc, hoddc⟩ := hodd.2
    have hdigit := hhex c (keyText_inj hlengths hkey ▸ hc)
    rw [not_hex_of_odd hoddc] at hdigit
    cases hdigit
  · rintro ⟨checksum, hparses, hlower, hkey⟩
    have hwritten : ¬OddlyWritten checksum := fun h => hodd ⟨checksum, h, hlower, hkey⟩
    have hhex := hex_of_not_odd (hlower.symm ▸ hparses) hwritten
    refine ⟨checksum, isHexDigest_iff.mpr ⟨hparses.1, hlower, hhex⟩, ?_⟩
    apply String.toList_inj.mp
    rw [toList_formatted, hkey]
  · rintro ⟨digest, hdigest, hkey⟩
    obtain ⟨hlength, hlower, hhex⟩ := isHexDigest_iff.mp hdigest
    have hparses := parses_of_hex hlength hhex
    rw [hlower] at hparses
    exact ⟨digest, hparses, hlower, by rw [hkey, toList_formatted]⟩

theorem keysAgree_iff (sha256 key : String) :
    KeysAgree sha256 key ↔ ¬OddlyWritten sha256 ∧ ¬OddKey key := by
  refine ⟨fun h => ⟨(digits_iff sha256).mp h.digits, (form_iff key).mp h.form⟩,
    fun ⟨hs, hk⟩ => ?_⟩
  refine ⟨(digits_iff sha256).mpr hs, fun made hmade => ?_, fun checksum hchecksum => ?_, ?_,
    (form_iff key).mpr hk⟩
  · obtain ⟨hparses, hmade⟩ := canonicalObjectKey_eq_ok.mp hmade
    exact checksumFromObjectKey_eq_ok.mpr ⟨hparses, lower_lower sha256, hmade⟩
  · obtain ⟨hparses, hlower, hkey⟩ := checksumFromObjectKey_eq_ok.mp hchecksum
    rw [canonicalObjectKey_eq_ok, hlower]
    exact ⟨hparses, hkey⟩
  · rw [isCanonicalObjectKey_iff]
    exact exists_congr fun checksum => checksumFromObjectKey_eq_ok

/-- A `0x` in front of 62 digits is made into a key. -/
theorem canonicalObjectKey_radix : ¬∀ sha256 key, KeysAgree sha256 key := by
  intro h
  have hmade : canonicalObjectKey
      "0x000000000000000000000000000000000000000000000000000000000000ff" =
        .ok "originals/0x/0x000000000000000000000000000000000000000000000000000000000000ff.pdf" := by
    decide +kernel
  have hx := ((h _ "").digits.mp ⟨_, hmade⟩).2 'x' (by decide +kernel)
  exact absurd hx (by decide)

end LocalRag.Transfer
