import LocalRag.Stream.Reader
import Mathlib.Data.List.TakeWhile

/-!
# Citations — two regular expressions over one answer

`_validated_source_ranks` of `app/services/chats.py` scans an answer twice: once for
everything that looks like a source (`_SOURCE_LIKE`), which must be one of the labels it
supplied, and once for the labels (`_SOURCE_LABEL`), which it cites. The scans are leftmost
and skip what they matched, so they could cut one text differently. They do not on an
accepted answer: a label is something that looks like a source (`findAll_congr`), and once
every match is a supplied label no match has a bracket inside it, so nothing is
hidden in one (`mem_findAll_of_infix`).

`validatedSourceRanks_spec` says which answers are accepted, and that the value is the named
sources in the order in which they are first named.
-/

namespace LocalRag.Stream

open LocalRag.Core

/-! ## Scanning -/

section FindAll

variable {f g : List Char → Option (List Char)}

variable {s : List Char}

theorem findAll_some {c : Char} {m : List Char} (h : f (c :: s) = some m) :
    findAll f 0 (c :: s) = m :: findAll f (m.length - 1) s := by
  rw [findAll, h]

theorem findAll_none {c : Char} (h : f (c :: s) = none) : findAll f 0 (c :: s) = findAll f 0 s := by
  rw [findAll, h]

/-- Where the matches of a narrower expression are matches of the wider one, and all that the
wider one finds is in the narrower one, the two find the same. -/
theorem findAll_congr (hsub : ∀ s m, g s = some m → f s = some m) {skip : Nat}
    (h : ∀ m ∈ findAll f skip s, ∀ s', f s' = some m → g s' = some m) :
    findAll g skip s = findAll f skip s := by
  induction s generalizing skip with
  | nil =>
    cases skip <;> rfl
  | cons c s ih =>
    cases skip with
    | succ skip => exact ih h
    | zero =>
      cases hm : f (c :: s) with
      | none =>
        have hg : g (c :: s) = none := by
          cases hg : g (c :: s) with
          | none => rfl
          | some m =>
            rw [hsub _ _ hg] at hm
            exact absurd hm (by simp)
        rw [findAll_none hm] at h
        rw [findAll_none hm, findAll_none hg]
        exact ih h
      | some m =>
        rw [findAll_some hm] at h
        rw [findAll_some hm, findAll_some (h m List.mem_cons_self _ hm)]
        rw [ih fun m' hm' => h m' (List.mem_cons_of_mem _ hm')]

/-- Where no match has the character `b` after its first, whatever begins with `b` and
matches where it stands is found. -/
theorem mem_findAll_of_infix {b : Char} {t x y : List Char}
    (hbegins : ∀ s m, f s = some m → m <+: s) (hmatch : f (b :: t ++ y) = some (b :: t))
    {skip : Nat} (hclean : ∀ m ∈ findAll f skip (x ++ (b :: t ++ y)), b ∉ m.tail)
    (hskip : b ∉ (x ++ (b :: t ++ y)).take skip) :
    b :: t ∈ findAll f skip (x ++ (b :: t ++ y)) := by
  induction x generalizing skip with
  | nil =>
    cases skip with
    | zero =>
      rw [List.cons_append] at hmatch
      rw [List.nil_append, List.cons_append, findAll_some hmatch]
      exact List.mem_cons_self
    | succ skip => exact absurd List.mem_cons_self hskip
  | cons c x ih =>
    rw [List.cons_append] at hclean hskip ⊢
    cases skip with
    | succ skip =>
      rw [List.take_succ_cons] at hskip
      exact ih hclean fun hb => hskip (List.mem_cons_of_mem _ hb)
    | zero =>
      cases hm : f (c :: (x ++ (b :: t ++ y))) with
      | none =>
        rw [findAll_none hm] at hclean ⊢
        exact ih hclean (by simp)
      | some m =>
        rw [findAll_some hm] at hclean ⊢
        refine List.mem_cons_of_mem _ (ih (fun m' hm' => hclean m' (List.mem_cons_of_mem _ hm')) ?_)
        -- what is skipped is the rest of the match
        have htail := hclean m List.mem_cons_self
        obtain ⟨rest, hrest⟩ := hbegins _ _ hm
        cases m with
        | nil => simp
        | cons d m =>
          have hsplit : m ++ rest = x ++ (b :: t ++ y) := (List.cons.inj hrest).2
          rw [← hsplit, List.length_cons, Nat.add_sub_cancel, List.take_left]
          exact htail

end FindAll

/-! ## The two expressions -/

/-- `\[S`, a run in the class and `\]`. -/
theorem bracketed_eq_some {inClass : Char → Bool} (hclose : inClass ']' = false)
    {s m : List Char} :
    bracketed inClass s = some m ↔ ∃ body rest, s = '[' :: 'S' :: (body ++ ']' :: rest) ∧
      m = '[' :: 'S' :: (body ++ [']']) ∧ ∀ c ∈ body, inClass c = true := by
  constructor
  · intro h
    unfold bracketed at h
    split at h
    next text =>
      have hdrop : text.drop (text.takeWhile inClass).length = text.dropWhile inClass :=
        calc text.drop (text.takeWhile inClass).length
            = (text.takeWhile inClass ++ text.dropWhile inClass).drop
                (text.takeWhile inClass).length := by rw [List.takeWhile_append_dropWhile]
          _ = text.dropWhile inClass := List.drop_left
      rw [hdrop] at h
      split at h
      next hhead =>
        obtain ⟨rest, hrest⟩ := List.head?_eq_some_iff.mp hhead
        refine ⟨text.takeWhile inClass, rest, ?_, (Option.some.inj h).symm, ?_⟩
        · rw [← hrest, List.takeWhile_append_dropWhile]
        · intro c hc
          exact List.mem_takeWhile_imp hc
      next => exact absurd h (by simp)
    next => exact absurd h (by simp)
  · intro h
    obtain ⟨body, rest, rfl, rfl, hbody⟩ := h
    have htake : (body ++ ']' :: rest).takeWhile inClass = body := by
      rw [List.takeWhile_append_of_pos hbody, List.takeWhile_cons_of_neg (by simp [hclose]),
        List.append_nil]
    unfold bracketed
    simp only [htake, List.drop_left, List.head?_cons, if_true]
    rfl

/-- The class between `[S` and `]` of `_SOURCE_LIKE`. -/
def inSource (c : Char) : Bool := c ≠ ']' ∧ c ≠ '\r' ∧ c ≠ '\n'

/-- `_SOURCE_LABEL` at a position. -/
def labelAt (s : List Char) : Option (List Char) :=
  (bracketed isDecimal s).filter fun found => 3 < found.length

/-- A text that `_SOURCE_LIKE` matches. -/
def SourceToken (token : List Char) : Prop :=
  ∃ body, token = '[' :: 'S' :: (body ++ [']']) ∧ ∀ c ∈ body, inSource c = true

/-- A text that `_SOURCE_LABEL` matches. -/
def LabelToken (token : List Char) : Prop :=
  ∃ digits, token = '[' :: 'S' :: (digits ++ [']']) ∧ digits ≠ [] ∧
    ∀ c ∈ digits, isDecimal c = true

theorem sourceLike_eq (answer : String) :
    sourceLike answer = (findAll (bracketed inSource) 0 answer.toList).map String.ofList := rfl

theorem sourceLabels_eq (answer : String) :
    sourceLabels answer = (findAll labelAt 0 answer.toList).map
      fun found => String.ofList ((found.drop 1).dropLast) := rfl

theorem inSource_decimal {c : Char} (h : isDecimal c = true) : inSource c = true := by
  unfold inSource
  refine decide_eq_true ⟨?_, ?_, ?_⟩
  · rintro rfl
    exact absurd h (by decide)
  · rintro rfl
    exact absurd h (by decide)
  · rintro rfl
    exact absurd h (by decide)

theorem labelAt_eq_some {s m : List Char} :
    labelAt s = some m ↔ bracketed isDecimal s = some m ∧ 3 < m.length := by
  unfold labelAt
  rw [Option.filter_eq_some_iff, decide_eq_true_eq]

/-- A label looks like a source. -/
theorem bracketed_of_labelAt {s m : List Char} (h : labelAt s = some m) :
    bracketed inSource s = some m := by
  obtain ⟨hmatch, -⟩ := labelAt_eq_some.mp h
  obtain ⟨body, rest, hs, hm, hbody⟩ := (bracketed_eq_some (by decide)).mp hmatch
  exact (bracketed_eq_some (by decide)).mpr
    ⟨body, rest, hs, hm, fun c hc => inSource_decimal (hbody c hc)⟩

/-- What looks like a source and has only digits in it is a label. -/
theorem labelAt_of_bracketed {s m : List Char} (h : bracketed inSource s = some m)
    (hm : LabelToken m) : labelAt s = some m := by
  obtain ⟨body, rest, hs, rfl, -⟩ := (bracketed_eq_some (by decide)).mp h
  obtain ⟨digits, heq, hne, hdigits⟩ := hm
  have hbody : body = digits := by
    have htails : body ++ [']'] = digits ++ [']'] := (List.cons.inj (List.cons.inj heq).2).2
    exact List.append_cancel_right htails
  subst hbody
  refine labelAt_eq_some.mpr
    ⟨(bracketed_eq_some (by decide)).mpr ⟨body, rest, hs, rfl, hdigits⟩, ?_⟩
  have hpos := List.length_pos_iff.mpr hne
  simp only [List.length_cons, List.length_append, List.length_nil]
  omega

theorem bracketed_prefix {s m : List Char} (h : bracketed inSource s = some m) : m <+: s := by
  obtain ⟨body, rest, rfl, rfl, -⟩ := (bracketed_eq_some (by decide)).mp h
  refine ⟨rest, ?_⟩
  simp

/-- Where all that looks like a source is a label, the labels are all that looks like a
source. -/
theorem findAll_labels {s : List Char}
    (h : ∀ m ∈ findAll (bracketed inSource) 0 s, LabelToken m) :
    findAll labelAt 0 s = findAll (bracketed inSource) 0 s :=
  findAll_congr (fun _ _ => bracketed_of_labelAt) fun m hm _ hmatch =>
    labelAt_of_bracketed hmatch (h m hm)

/-- And none is hidden in another. -/
theorem mem_findAll_token {s token : List Char}
    (h : ∀ m ∈ findAll (bracketed inSource) 0 s, LabelToken m) (htoken : SourceToken token)
    (hinside : token <:+: s) : token ∈ findAll (bracketed inSource) 0 s := by
  obtain ⟨body, rfl, hbody⟩ := htoken
  obtain ⟨x, y, rfl⟩ := hinside
  rw [List.append_assoc] at h ⊢
  refine mem_findAll_of_infix (fun _ _ => bracketed_prefix) ?_ (fun m hm => ?_) (by simp)
  · refine (bracketed_eq_some (by decide)).mpr ⟨body, y, ?_, rfl, hbody⟩
    simp
  · obtain ⟨digits, rfl, -, hdigits⟩ := h m hm
    intro hb
    rw [List.tail_cons, List.mem_cons, List.mem_append, List.mem_singleton] at hb
    obtain hb | hb | hb := hb
    · exact absurd hb (by decide)
    · exact absurd (hdigits _ hb) (by decide)
    · exact absurd hb (by decide)

/-! ## The supplied labels -/

/-- `[S1]`, … as an answer cites them. -/
def citation (label : String) : String := "[" ++ label ++ "]"

theorem toList_citation (rank : Nat) :
    (citation (rankLabel rank)).toList = '[' :: 'S' :: (Nat.toDigits 10 rank ++ [']']) := by
  unfold citation rankLabel
  rw [String.toList_append, String.toList_append, String.toList_append, ← Nat.toList_repr]
  rfl

theorem rankLabel_injective {rank rank' : Nat} (h : rankLabel rank = rankLabel rank') :
    rank = rank' := by
  have hlists := congrArg (fun label => (citation label).toList) h
  simp only [toList_citation] at hlists
  have hdigits := List.append_cancel_right (List.cons.inj (List.cons.inj hlists).2).2
  have hread := congrArg (fun cs => Nat.ofDigitChars 10 cs 0) hdigits
  simpa only [Nat.ofDigitChars_ten_toDigits] using hread

theorem citation_injective {label label' : String} (h : citation label = citation label') :
    label = label' := by
  have hlists := congrArg String.toList h
  unfold citation at hlists
  rw [String.toList_append, String.toList_append, String.toList_append, String.toList_append]
    at hlists
  have hlabels := List.append_cancel_left (List.append_cancel_right hlists)
  exact String.toList_inj.mp hlabels

theorem isDecimal_digit {c : Char} (h : c.isDigit = true) : isDecimal c = true := by
  unfold Char.isDigit at h
  rw [Bool.and_eq_true, decide_eq_true_eq, decide_eq_true_eq] at h
  have hlow : 48 ≤ c.toNat := h.1
  have hhigh : c.toNat ≤ 57 := h.2
  unfold isDecimal
  refine List.any_eq_true.mpr ⟨0x30, List.mem_cons_self, ?_⟩
  exact decide_eq_true ⟨hlow, by omega⟩

/-- What cites a supplied source is a label. -/
theorem labelToken_citation (rank : Nat) : LabelToken (citation (rankLabel rank)).toList := by
  rw [toList_citation]
  refine ⟨Nat.toDigits 10 rank, rfl, Nat.toDigits_ne_nil, fun c hc => ?_⟩
  exact isDecimal_digit (Nat.isDigit_of_mem_toDigits (by decide) (by decide) hc)

/-! ## First occurrences -/

section First

variable {α : Type} [BEq α] [LawfulBEq α]

theorem idxOf_cons_of_ne {x y : α} (h : x ≠ y) (xs : List α) :
    (x :: xs).idxOf y = xs.idxOf y + 1 := by
  rw [List.idxOf_cons, beq_false_of_ne h, cond_false]

/-- Leaving elements out keeps the order of the others. -/
theorem idxOf_lt_of_filter {p : α → Bool} {a b : α} (ha : p a = true) (hb : p b = true)
    {xs : List α} (h : (xs.filter p).idxOf a < (xs.filter p).idxOf b) :
    xs.idxOf a < xs.idxOf b := by
  induction xs with
  | nil => exact absurd h (Nat.lt_irrefl _)
  | cons x xs ih =>
    by_cases hx : p x = true
    · rw [List.filter_cons_of_pos hx] at h
      by_cases hxb : x = b
      · rw [hxb, List.idxOf_cons_self] at h
        exact absurd h (Nat.not_lt_zero _)
      by_cases hxa : x = a
      · rw [hxa, List.idxOf_cons_self, ← hxa, idxOf_cons_of_ne hxb]
        exact Nat.succ_pos _
      · rw [idxOf_cons_of_ne hxa, idxOf_cons_of_ne hxb] at h ⊢
        have hrest := ih (by omega)
        omega
    · rw [List.filter_cons_of_neg hx] at h
      have hxa : x ≠ a := by
        rintro rfl
        exact hx ha
      have hxb : x ≠ b := by
        rintro rfl
        exact hx hb
      rw [idxOf_cons_of_ne hxa, idxOf_cons_of_ne hxb]
      have hrest := ih h
      omega

/-- `dict.fromkeys` keeps the order of the first occurrences. -/
theorem pairwise_eraseDups (xs : List α) :
    xs.eraseDups.Pairwise fun a b => xs.idxOf a < xs.idxOf b := by
  generalize hn : xs.length = n
  induction n using Nat.strong_induction_on generalizing xs with
  | _ n ih =>
    cases xs with
    | nil => exact List.Pairwise.nil
    | cons x xs =>
      have hshort : (xs.filter fun b => !b == x).length < n := by
        rw [← hn]
        exact Nat.lt_succ_of_le (List.length_filter_le _ _)
      have hmem : ∀ b ∈ (xs.filter fun b => !b == x).eraseDups, (!b == x) = true := by
        intro b hb
        rw [List.mem_eraseDups] at hb
        exact (List.mem_filter.mp hb).2
      have hne : ∀ b, (!b == x) = true → x ≠ b := by
        rintro b hb rfl
        simp at hb
      rw [List.eraseDups_cons, List.pairwise_cons]
      constructor
      · intro b hb
        rw [List.idxOf_cons_self, idxOf_cons_of_ne (hne b (hmem b hb))]
        exact Nat.succ_pos _
      · refine (ih _ hshort _ rfl).imp_of_mem fun {a b} ha hb hlt => ?_
        rw [idxOf_cons_of_ne (hne a (hmem a ha)), idxOf_cons_of_ne (hne b (hmem b hb))]
        have hfirst := idxOf_lt_of_filter (p := fun b => !b == x) (hmem a ha) (hmem b hb) hlt
        omega

theorem idxOf_map_injective {β : Type} [BEq β] [LawfulBEq β] {f : α → β}
    (hf : ∀ a b, f a = f b → a = b) (a : α) (xs : List α) :
    (xs.map f).idxOf (f a) = xs.idxOf a := by
  induction xs with
  | nil => rfl
  | cons x xs ih =>
    rw [List.map_cons]
    by_cases hx : x = a
    · rw [hx, List.idxOf_cons_self, List.idxOf_cons_self]
    · rw [idxOf_cons_of_ne fun h => hx (hf x a h), idxOf_cons_of_ne hx, ih]

end First

/-! ## What is accepted, and what is cited -/

section Accepted

variable {answer : String} {sources cited : List ChatSourceSnapshot}

theorem validatedSourceRanks_eq_some :
    validatedSourceRanks answer sources = some cited ↔
      answer ≠ "" ∧ isExplicitInsufficientContext answer = false ∧
        (∀ token ∈ sourceLike answer, token ∈ sources.map fun s => citation s.label) ∧
        sourceLabels answer ≠ [] ∧
        (∀ label ∈ sourceLabels answer, label ∈ sources.map (·.label)) ∧
        cited = (sourceLabels answer).eraseDups.filterMap (supplied sources) := by
  have hany : ∀ xs ys : List String, (xs.any fun x => x ∉ ys) = true ↔ ¬ ∀ x ∈ xs, x ∈ ys := by
    intro xs ys
    rw [List.any_eq_true]
    constructor
    · rintro ⟨x, hx, hout⟩ hall
      exact of_decide_eq_true hout (hall x hx)
    · intro hnot
      obtain ⟨x, hx⟩ := not_forall.mp hnot
      obtain ⟨hmem, hout⟩ := Classical.not_imp.mp hx
      exact ⟨x, hmem, decide_eq_true hout⟩
  unfold validatedSourceRanks
  split
  next hnone =>
    refine iff_of_false (by simp) fun h => ?_
    cases hnone with
    | inl hempty => exact h.1 hempty
    | inr hexplicit => exact absurd h.2.1 (by simp [hexplicit])
  next hsome =>
    split
    next hlike => exact iff_of_false (by simp) fun h => (hany _ _).mp hlike h.2.2.1
    next hlike =>
      have hlike' := not_not.mp ((not_congr (hany _ _)).mp hlike)
      split
      next hlabels =>
        refine iff_of_false (by simp) fun h => ?_
        cases hlabels with
        | inl hempty => exact h.2.2.2.1 hempty
        | inr hout => exact (hany _ _).mp hout h.2.2.2.2.1
      next hlabels =>
        rw [Option.some.injEq]
        constructor
        · intro h
          have hexplicit : isExplicitInsufficientContext answer = false := by
            simpa using fun he => hsome (Or.inr he)
          have hsupplied := not_not.mp fun he => hlabels (Or.inr ((hany _ _).mpr he))
          exact ⟨fun he => hsome (Or.inl he), hexplicit, hlike', fun he => hlabels (Or.inl he),
            hsupplied, h.symm⟩
        · intro h
          exact h.2.2.2.2.2.symm

/-- The labels are what looks like a source, without its brackets. -/
theorem map_citation_sourceLabels
    (h : ∀ m ∈ findAll (bracketed inSource) 0 answer.toList, LabelToken m) :
    (sourceLabels answer).map citation = sourceLike answer := by
  rw [sourceLabels_eq, sourceLike_eq, findAll_labels h, List.map_map]
  refine List.map_congr_left fun m hm => ?_
  obtain ⟨digits, rfl, -, -⟩ := h m hm
  have hinner : ((('[' :: 'S' :: (digits ++ [']'])).drop 1).dropLast) = 'S' :: digits := by
    rw [List.drop_succ_cons, List.drop_zero, ← List.cons_append, List.dropLast_concat]
  rw [Function.comp_apply, hinner]
  refine String.toList_inj.mp ?_
  unfold citation
  simp only [String.toList_append, String.toList_ofList]
  rfl

variable (hlabels : sources.map (·.label) = (List.range sources.length).map fun i => rankLabel (i + 1))
include hlabels

theorem mem_citations_iff (token : String) :
    (token ∈ sources.map fun s => citation s.label) ↔
      ∃ rank, 1 ≤ rank ∧ rank ≤ sources.length ∧ token = citation (rankLabel rank) := by
  have hmap : (sources.map fun s => citation s.label)
      = (List.range sources.length).map fun i => citation (rankLabel (i + 1)) := by
    have hboth := congrArg (List.map citation) hlabels
    rwa [List.map_map, List.map_map] at hboth
  rw [hmap, List.mem_map]
  constructor
  · rintro ⟨i, hi, rfl⟩
    exact ⟨i + 1, Nat.succ_pos i, List.mem_range.mp hi, rfl⟩
  · rintro ⟨rank, hpos, hle, rfl⟩
    refine ⟨rank - 1, List.mem_range.mpr (by omega), ?_⟩
    rw [Nat.sub_add_cancel hpos]

/-- All that looks like a source is a label, when it is a supplied one. -/
theorem labelToken_of_supplied
    (h : ∀ token ∈ sourceLike answer, token ∈ sources.map fun s => citation s.label) :
    ∀ m ∈ findAll (bracketed inSource) 0 answer.toList, LabelToken m := by
  intro m hm
  have hmem : String.ofList m ∈ sourceLike answer := List.mem_map_of_mem hm
  obtain ⟨rank, -, -, hrank⟩ := (mem_citations_iff hlabels _).mp (h _ hmem)
  have hlist := congrArg String.toList hrank
  rw [String.toList_ofList] at hlist
  rw [hlist]
  exact labelToken_citation rank

/-- A label has one source. -/
theorem supplied_eq_some_iff (label : String) (s : ChatSourceSnapshot) :
    supplied sources label = some s ↔ s ∈ sources ∧ s.label = label := by
  have hnodup : (sources.map (·.label)).Nodup := by
    rw [hlabels]
    refine List.Nodup.map (fun i j hij => ?_) List.nodup_range
    exact Nat.succ.inj (rankLabel_injective hij)
  have hreads : ∀ t, supplied sources label = some t → t ∈ sources ∧ t.label = label := by
    intro t ht
    exact ⟨List.mem_reverse.mp (List.mem_of_find?_eq_some ht), by simpa using List.find?_some ht⟩
  constructor
  · exact hreads s
  · rintro ⟨hs, rfl⟩
    cases hfound : supplied sources s.label with
    | none =>
      have hnone := List.find?_eq_none.mp hfound s (List.mem_reverse.mpr hs)
      simp at hnone
    | some t =>
      obtain ⟨ht, hlabel⟩ := hreads t hfound
      exact congrArg some (List.inj_on_of_nodup_map hnodup ht hs hlabel)

end Accepted

/-- An answer is accepted if something in it looks like a source and all that does is a supplied
label, and it does not end in the sentinel; the value is the sources so named, in the order in
which they come first, and the two expressions find the same. -/
theorem validatedSourceRanks_spec (answer : String) (sources : List ChatSourceSnapshot)
    (hlabels : sources.map (·.label)
      = (List.range sources.length).map fun i => rankLabel (i + 1)) :
    ((validatedSourceRanks answer sources).isSome = true ↔
      answer ≠ "" ∧ isExplicitInsufficientContext answer = false ∧
        (∀ token ∈ sourceLike answer, ∃ rank, 1 ≤ rank ∧ rank ≤ sources.length ∧
          token = citation (rankLabel rank)) ∧
        sourceLike answer ≠ []) ∧
      ∀ cited, validatedSourceRanks answer sources = some cited →
        (∀ s, s ∈ cited ↔ s ∈ sources ∧ citation s.label ∈ sourceLike answer) ∧
          (cited.Pairwise fun s t => (sourceLike answer).idxOf (citation s.label)
            < (sourceLike answer).idxOf (citation t.label)) ∧
          (sourceLabels answer).map citation = sourceLike answer ∧
          ∀ token, SourceToken token → token <:+: answer.toList →
            String.ofList token ∈ sourceLike answer := by
  constructor
  · rw [Option.isSome_iff_exists]
    constructor
    · intro h
      obtain ⟨cited, h⟩ := h
      obtain ⟨hne, hexplicit, hlike, hsome, -, -⟩ := validatedSourceRanks_eq_some.mp h
      have hsame := map_citation_sourceLabels (labelToken_of_supplied hlabels hlike)
      refine ⟨hne, hexplicit, fun token ht => (mem_citations_iff hlabels token).mp (hlike token ht),
        fun hnil => hsome ?_⟩
      rw [hnil] at hsame
      exact List.map_eq_nil_iff.mp hsame
    · intro h
      obtain ⟨hne, hexplicit, hlike, hsome⟩ := h
      have hlike' : ∀ token ∈ sourceLike answer, token ∈ sources.map fun s => citation s.label :=
        fun token ht => (mem_citations_iff hlabels token).mpr (hlike token ht)
      have hsame := map_citation_sourceLabels (labelToken_of_supplied hlabels hlike')
      refine ⟨_, validatedSourceRanks_eq_some.mpr ⟨hne, hexplicit, hlike', ?_, ?_, rfl⟩⟩
      · intro hnil
        rw [hnil] at hsame
        exact hsome hsame.symm
      · intro label hlabel
        have htoken : citation label ∈ sourceLike answer := by
          rw [← hsame]
          exact List.mem_map_of_mem hlabel
        obtain ⟨s, hs, hcite⟩ := List.mem_map.mp (hlike' _ htoken)
        rw [← citation_injective hcite]
        exact List.mem_map_of_mem hs
  · intro cited h
    obtain ⟨-, -, hlike, -, -, rfl⟩ := validatedSourceRanks_eq_some.mp h
    have htokens := labelToken_of_supplied hlabels hlike
    have hsame := map_citation_sourceLabels htokens
    refine ⟨fun s => ?_, ?_, hsame, fun token htoken hinside => ?_⟩
    · rw [List.mem_filterMap, ← hsame]
      constructor
      · rintro ⟨label, hlabel, hs⟩
        obtain ⟨hmem, rfl⟩ := (supplied_eq_some_iff hlabels label s).mp hs
        rw [List.mem_eraseDups] at hlabel
        exact ⟨hmem, List.mem_map_of_mem hlabel⟩
      · rintro ⟨hmem, hcite⟩
        obtain ⟨label, hlabel, heq⟩ := List.mem_map.mp hcite
        rw [citation_injective heq] at hlabel
        exact ⟨s.label, List.mem_eraseDups.mpr hlabel,
          (supplied_eq_some_iff hlabels _ s).mpr ⟨hmem, rfl⟩⟩
    · rw [List.pairwise_filterMap]
      refine (pairwise_eraseDups (sourceLabels answer)).imp fun {label label'} hlt s hs t ht => ?_
      obtain ⟨-, rfl⟩ := (supplied_eq_some_iff hlabels label s).mp hs
      obtain ⟨-, rfl⟩ := (supplied_eq_some_iff hlabels label' t).mp ht
      rw [← hsame, idxOf_map_injective fun _ _ => citation_injective,
        idxOf_map_injective fun _ _ => citation_injective]
      exact hlt
    · exact List.mem_map_of_mem (mem_findAll_token htokens htoken hinside)

/-- Two sources, cited out of order and twice. -/
def labelledSources : List ChatSourceSnapshot :=
  [⟨1, "S1", none, none, 1, 1, "a.pdf", "a.pdf", "/a.pdf", 1, 1, none⟩,
    ⟨2, "S2", none, none, 2, 2, "b.pdf", "b.pdf", "/b.pdf", 1, 1, none⟩]

theorem validatedSourceRanks_twice :
    (validatedSourceRanks "As [S2] and [S\n[S1] say, [S2]." labelledSources).isSome = true := by
  have htokens : sourceLike "As [S2] and [S\n[S1] say, [S2]." = ["[S2]", "[S1]", "[S2]"] := by
    decide +kernel
  refine (validatedSourceRanks_spec _ labelledSources rfl).1.mpr
    ⟨by decide, by decide +kernel, ?_, by rw [htokens]; simp⟩
  rw [htokens]
  intro token ht
  obtain rfl | rfl | rfl : token = "[S2]" ∨ token = "[S1]" ∨ token = "[S2]" := by simpa using ht
  · exact ⟨2, by decide, by decide, by decide⟩
  · exact ⟨1, by decide, by decide, by decide⟩
  · exact ⟨2, by decide, by decide, by decide⟩

end LocalRag.Stream
