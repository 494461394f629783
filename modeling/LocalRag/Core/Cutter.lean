import Mathlib.Tactic.Common

/-!
# Cutting a stream — where the reads fall does not matter

A reader appends what it was given to a buffer and takes frames off the front while it finds
one. A `Cutter` says where the first frame of a buffer ends; `stable` is the law a reader
rests on: what is found in a buffer is found, the same, in every longer one.

`drain` is the inner loop, with a consumer that may raise, and `readAll` the outer one.
`Separators` are the alternatives of a regular expression without repetition, and make a
cutter if none of them ends inside another: the leftmost match is then the leftmost match of
every longer text.

Theorems:
- `frames_append`: the frames of a text are those of its front and then those of what the
  front leaves with the rest behind it.
- `readAll_eq`: reading a text in pieces consumes the frames of the whole text, and leaves what
  the whole text leaves.
- `frames_cuts`: each frame ends where the first separator begins, and none is left.
-/

namespace LocalRag.Core

/-- The first frame of a buffer and what stands behind its separator. -/
structure Cutter (α : Type*) where
  next : List α → Option (List α × List α)
  /-- A separator is not empty. -/
  shorter : ∀ {x f r}, next x = some (f, r) → r.length < x.length
  /-- More text changes nothing about a frame that was found. -/
  stable : ∀ {x f r} (y), next x = some (f, r) → next (x ++ y) = some (f, r ++ y)

namespace Cutter

variable {α σ ε : Type*} (C : Cutter α) (consume : σ → List α → Except ε σ)

/-- `while (boundary) { consume(…); buffer = …; }`: the state and the buffer it leaves. -/
def drain (s : σ) (buffer : List α) : Except ε (σ × List α) :=
  match _ : C.next buffer with
  | none => .ok (s, buffer)
  | some (frame, rest) =>
    match consume s frame with
    | .error e => .error e
    | .ok s' => drain s' rest
termination_by buffer.length
decreasing_by exact C.shorter ‹_›

/-- The reads, one after the other, each behind what the last one left. -/
def readAll (held : σ × List α) (pieces : List (List α)) : Except ε (σ × List α) :=
  pieces.foldlM (fun held piece => C.drain consume held.1 (held.2 ++ piece)) held

/-- The frames of a text and what stands behind the last one. -/
def frames (text : List α) : List (List α) × List α :=
  match _ : C.next text with
  | none => ([], text)
  | some (frame, rest) => (frame :: (frames rest).1, (frames rest).2)
termination_by text.length
decreasing_by all_goals exact C.shorter ‹_›

variable {C} {x f r : List α}

theorem frames_none (h : C.next x = none) : C.frames x = ([], x) := by
  rw [frames]
  split
  · rfl
  next hsome => exact absurd (h.symm.trans hsome) (by simp)

theorem frames_some (h : C.next x = some (f, r)) :
    C.frames x = (f :: (C.frames r).1, (C.frames r).2) := by
  rw [frames]
  split
  next hnone => exact absurd (h.symm.trans hnone) (by simp)
  next f' r' hsome =>
    obtain ⟨rfl, rfl⟩ := Prod.mk.inj (Option.some.inj (h.symm.trans hsome))
    rfl

/-- Cutting the front first changes nothing. -/
theorem frames_append (C : Cutter α) (x y : List α) :
    C.frames (x ++ y) =
      ((C.frames x).1 ++ (C.frames ((C.frames x).2 ++ y)).1,
        (C.frames ((C.frames x).2 ++ y)).2) := by
  rcases hnext : C.next x with _ | ⟨f, r⟩
  · rw [frames_none hnext]
    rfl
  · have hlt := C.shorter hnext
    rw [frames_some hnext, frames_some (C.stable y hnext), frames_append C r y]
    rfl
termination_by x.length

/-- The inner loop consumes the frames, in order, up to one the consumer raises at. -/
theorem drain_eq (s : σ) (x : List α) :
    C.drain consume s x =
      ((C.frames x).1.foldlM consume s).map fun s' => (s', (C.frames x).2) := by
  rw [drain]
  split
  next hnone =>
    rw [frames_none hnone]
    rfl
  next f r hsome =>
    have hlt := C.shorter hsome
    rw [frames_some hsome, List.foldlM_cons]
    cases hconsume : consume s f with
    | error e => rfl
    | ok s' => exact drain_eq s' r
termination_by x.length

/-- The reads consume the frames of the whole text. -/
theorem readAll_eq (s : σ) (held : List α) (pieces : List (List α)) (last : List α) :
    C.readAll consume (s, held) (pieces ++ [last]) =
      C.drain consume s (held ++ (pieces.flatten ++ last)) := by
  induction pieces generalizing s held with
  | nil =>
    show (C.drain consume s (held ++ last) >>= pure) = _
    rw [bind_pure]
    rfl
  | cons piece pieces ih =>
    have hstep : C.readAll consume (s, held) (piece :: pieces ++ [last]) =
        C.drain consume s (held ++ piece) >>= fun next =>
          C.readAll consume next (pieces ++ [last]) := List.foldlM_cons
    have htext : held ++ ((piece :: pieces).flatten ++ last) =
        held ++ piece ++ (pieces.flatten ++ last) := by simp
    rw [hstep, htext, drain_eq, drain_eq, frames_append C (held ++ piece), List.foldlM_append]
    cases (C.frames (held ++ piece)).1.foldlM consume s with
    | error e => rfl
    | ok s' =>
      show C.readAll consume (s', (C.frames (held ++ piece)).2) (pieces ++ [last]) = _
      rw [ih, drain_eq]
      rfl

end Cutter

/-! ## Alternatives -/

/-- What may separate two frames: `A|B|…`, tried in this order at each position. -/
structure Separators (α : Type*) where
  forms : List (List α)
  filled : ∀ A ∈ forms, A ≠ []
  /-- No form ends inside another. -/
  apart : ∀ A ∈ forms, ∀ B ∈ forms, ∀ k, k + A.length < B.length → ¬ A <+: B.drop k

namespace Separators

variable {α : Type*} [DecidableEq α] (S : Separators α)

/-- The form that stands at the front of a text. -/
def formAt (x : List α) : Option (List α) := S.forms.find? fun A => A <+: x

/-- `re.exec`: the position of the leftmost match, and its length. -/
def firstMatch : List α → Option (Nat × Nat)
  | [] => none
  | a :: x =>
    match S.formAt (a :: x) with
    | some A => some (0, A.length)
    | none => (firstMatch x).map fun m => (m.1 + 1, m.2)

variable {S} {x : List α} {A : List α} {m : Nat × Nat}

theorem formAt_mem (h : S.formAt x = some A) : A ∈ S.forms ∧ A <+: x := by
  have hfront := List.find?_some h
  exact ⟨List.mem_of_find?_eq_some h, of_decide_eq_true hfront⟩

theorem formAt_none (h : S.formAt x = none) : ∀ B ∈ S.forms, ¬ B <+: x := by
  intro B hB hfront
  exact List.find?_eq_none.mp h B hB (decide_eq_true hfront)

omit [DecidableEq α] in
/-- A form that is longer than a text that already has one cannot stand in its place. -/
theorem not_longer {k : Nat} (hA : A ∈ S.forms) (hat : A <+: x.drop k)
    (hk : k + A.length ≤ x.length) {B : List α} (hB : B ∈ S.forms) (hnot : ¬ B <+: x)
    (y : List α) : ¬ B <+: x ++ y := by
  intro hfront
  rcases Nat.lt_or_ge x.length B.length with hlong | hshort
  · have hx : x <+: B := List.prefix_of_prefix_length_le (List.prefix_append x y) hfront
      (Nat.le_of_lt hlong)
    obtain ⟨z, rfl⟩ := hx
    refine S.apart A hA _ hB k (by omega) ?_
    rw [List.drop_append_of_le_length (by omega)]
    exact hat.trans (List.prefix_append _ z)
  · exact hnot (List.prefix_of_prefix_length_le hfront (List.prefix_append x y) hshort)

theorem formAt_append (h : S.formAt x = some A) (y : List α) : S.formAt (x ++ y) = some A := by
  obtain ⟨hA, hat⟩ := formAt_mem h
  obtain ⟨-, before, after, hforms, hbefore⟩ := List.find?_eq_some_iff_append.mp h
  refine List.find?_eq_some_iff_append.mpr
    ⟨decide_eq_true (hat.trans (List.prefix_append x y)), before, after, hforms, ?_⟩
  intro B hB
  have hnot : ¬ B <+: x := by simpa using hbefore B hB
  have hBforms : B ∈ S.forms := by
    rw [hforms]
    exact List.mem_append_left _ hB
  have hlonger := not_longer (k := 0) hA hat (by have := hat.length_le; omega) hBforms hnot y
  simpa using hlonger

/-- Where the match is: what is before it, the form, what is behind. -/
theorem firstMatch_split (h : S.firstMatch x = some m) :
    ∃ A ∈ S.forms, A <+: x.drop m.1 ∧ m.2 = A.length ∧ m.1 + A.length ≤ x.length ∧
      ∀ B ∈ S.forms, ∀ j < m.1, ¬ B <+: x.drop j := by
  induction x generalizing m with
  | nil => exact absurd h (by simp [firstMatch])
  | cons a x ih =>
    unfold firstMatch at h
    split at h
    next A hA =>
      obtain rfl := Option.some.inj h
      obtain ⟨hforms, hat⟩ := formAt_mem hA
      refine ⟨A, hforms, hat, rfl, ?_, fun _ _ j hj => absurd hj (Nat.not_lt_zero j)⟩
      have hlen := hat.length_le
      omega
    next hnone =>
      obtain ⟨m', hm', rfl⟩ := Option.map_eq_some_iff.mp h
      obtain ⟨A, hforms, hat, hlength, hfits, hfirst⟩ := ih hm'
      refine ⟨A, hforms, hat, hlength, ?_, ?_⟩
      · show m'.1 + 1 + A.length ≤ x.length + 1
        omega
      · intro B hB j hj
        cases j with
        | zero => exact formAt_none hnone B hB
        | succ j => exact hfirst B hB j (by simpa using hj)

theorem firstMatch_none (h : S.firstMatch x = none) : ∀ B ∈ S.forms, ¬ B <:+: x := by
  induction x with
  | nil =>
    intro B hB hpart
    exact S.filled B hB (List.infix_nil.mp hpart)
  | cons a x ih =>
    unfold firstMatch at h
    split at h
    · exact absurd h (by simp)
    next hnone =>
      intro B hB hpart
      rcases List.infix_cons_iff.mp hpart with hfront | hpart
      · exact formAt_none hnone B hB hfront
      · exact ih (Option.map_eq_none_iff.mp h) B hB hpart

/-- More text changes nothing about a match. -/
theorem firstMatch_append (h : S.firstMatch x = some m) (y : List α) :
    S.firstMatch (x ++ y) = some m := by
  induction x generalizing m with
  | nil => exact absurd h (by simp [firstMatch])
  | cons a x ih =>
    rw [List.cons_append, firstMatch]
    have hsplit := firstMatch_split h
    unfold firstMatch at h
    split at h
    next A hA =>
      have happend := formAt_append hA y
      rw [List.cons_append] at happend
      rw [happend]
      exact h
    next hnone =>
      obtain ⟨A, hforms, hat, -, hfits, -⟩ := hsplit
      have hstill : S.formAt (a :: (x ++ y)) = none := by
        refine List.find?_eq_none.mpr fun B hB => ?_
        have hlonger := not_longer hforms hat hfits hB (formAt_none hnone B hB) y
        simpa using hlonger
      obtain ⟨m', hm', rfl⟩ := Option.map_eq_some_iff.mp h
      rw [hstill, ih hm']
      rfl

variable (S)

/-- The frame before the leftmost match, and what is behind it. -/
def cutter : Cutter α where
  next x := (S.firstMatch x).map fun m => (x.take m.1, x.drop (m.1 + m.2))
  shorter := by
    intro x f r h
    obtain ⟨m, hm, hfr⟩ := Option.map_eq_some_iff.mp h
    obtain ⟨rfl, rfl⟩ := Prod.mk.inj hfr
    obtain ⟨A, hforms, -, hlength, hfits, -⟩ := firstMatch_split hm
    have hpos : 0 < A.length := List.length_pos_iff.mpr (S.filled A hforms)
    rw [List.length_drop]
    omega
  stable := by
    intro x f r y h
    obtain ⟨m, hm, hfr⟩ := Option.map_eq_some_iff.mp h
    obtain ⟨rfl, rfl⟩ := Prod.mk.inj hfr
    obtain ⟨A, -, -, hlength, hfits, -⟩ := firstMatch_split hm
    rw [firstMatch_append hm y, Option.map_some, List.take_append_of_le_length (by omega),
      List.drop_append_of_le_length (by omega)]

/-- The text is these frames, each ended by the first separator in what is left of it, and a
rest without one. -/
inductive Cuts : List α → List (List α) → List α → Prop
  | rest {x : List α} (hnone : ∀ B ∈ S.forms, ¬ B <:+: x) : Cuts x [] x
  | frame {f A y : List α} {fs : List (List α)} {r : List α} (hA : A ∈ S.forms)
      (hfirst : ∀ B ∈ S.forms, ∀ j < f.length, ¬ B <+: (f ++ A ++ y).drop j)
      (hrest : Cuts y fs r) : Cuts (f ++ A ++ y) (f :: fs) r

theorem frames_cuts (x : List α) : Cuts S x (S.cutter.frames x).1 (S.cutter.frames x).2 := by
  rcases hmatch : S.firstMatch x with _ | m
  · have hnext : S.cutter.next x = none := Option.map_eq_none_iff.mpr hmatch
    rw [Cutter.frames_none hnext]
    exact .rest (firstMatch_none hmatch)
  · have hnext : S.cutter.next x = some (x.take m.1, x.drop (m.1 + m.2)) :=
      Option.map_eq_some_iff.mpr ⟨m, hmatch, rfl⟩
    have hlt := S.cutter.shorter hnext
    obtain ⟨A, hforms, ⟨z, hz⟩, hlength, hfits, hfirst⟩ := firstMatch_split hmatch
    have hrest : z = x.drop (m.1 + m.2) := by
      rw [← List.drop_drop, ← hz, hlength, List.drop_left]
    have hx : x = x.take m.1 ++ A ++ x.drop (m.1 + m.2) := by
      rw [← hrest, List.append_assoc, hz, List.take_append_drop]
    have htail := frames_cuts (x.drop (m.1 + m.2))
    rw [Cutter.frames_some hnext]
    have hcut : Cuts S (x.take m.1 ++ A ++ x.drop (m.1 + m.2))
        (x.take m.1 :: (S.cutter.frames (x.drop (m.1 + m.2))).1)
        (S.cutter.frames (x.drop (m.1 + m.2))).2 := by
      refine .frame hforms ?_ htail
      rw [← hx, List.length_take]
      exact fun B hB j hj => hfirst B hB j (by omega)
    rw [← hx] at hcut
    exact hcut
termination_by x.length
decreasing_by exact hlt

/-- A frame with the first separator behind it is cut off whatever follows. -/
theorem frames_frame {f : List α} (h : S.firstMatch (f ++ A) = some (f.length, A.length))
    (y : List α) :
    S.cutter.frames (f ++ A ++ y) =
      (f :: (S.cutter.frames y).1, (S.cutter.frames y).2) := by
  refine Cutter.frames_some (Option.map_eq_some_iff.mpr ⟨_, firstMatch_append h y, ?_⟩)
  rw [← List.length_append, List.drop_left, List.append_assoc, List.take_left]

end Separators

end LocalRag.Core
