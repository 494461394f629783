import LocalRag.Core.Dict
import LocalRag.Core.Run
import Mathlib.Data.List.Perm.Basic
import Mathlib.Data.List.TakeWhile

/-!
# The priority scheduler — who is queued and who is active

Mirrors `PriorityScheduler` (`app/runtime/scheduler.py`). Its methods take the
condition's lock and give it up only to wait for work, so each call is one
step. A heap ordered by sequence number is the list of its entries in the order
they came. A cancelled entry stays in its heap, marked, until it reaches the top;
what is queued is what `_entries` names.

Clock readings are integers of some unit; the starvation rule compares
differences of readings with a bound and nothing else.

`SchedulerInv` ties the three views together: `_entries`, the heaps and `_active`.
Each method has the lemma that it keeps it, with what the call changes.
-/

namespace LocalRag.Runtime

open LocalRag.Core

abbrev RequestId := String

inductive Priority where
  | interactive | background
deriving DecidableEq

structure Entry (α : Type) where
  sequence : Nat
  enqueuedAt : Int
  requestId : RequestId
  payload : α
  priority : Priority
  cancelled : Bool

structure ScheduledItem (α : Type) where
  requestId : RequestId
  payload : α
  priority : Priority
  enqueuedAt : Int

/-- `PriorityScheduler`. The dictionary `_entries` refers to its entries by
sequence number. -/
structure PriorityScheduler (α : Type) where
  starvationSeconds : Int
  interactive : List (Entry α)
  background : List (Entry α)
  entries : List (RequestId × Nat)
  sequence : Nat
  lastBackgroundRelief : Option Int
  active : List RequestId
  completed : Nat
  failed : Nat
  cancelled : Nat

variable {α : Type}

/-- A scheduler just made. -/
def PriorityScheduler.new (α : Type) (starvationSeconds : Int) : PriorityScheduler α where
  starvationSeconds := starvationSeconds
  interactive := []
  background := []
  entries := []
  sequence := 0
  lastBackgroundRelief := none
  active := []
  completed := 0
  failed := 0
  cancelled := 0

/-- The keys of `_entries`: the requests queued. -/
def PriorityScheduler.queued (s : PriorityScheduler α) : List RequestId := s.entries.map (·.1)

/-- The entries of both heaps. -/
def PriorityScheduler.heaps (s : PriorityScheduler α) : List (Entry α) :=
  s.interactive ++ s.background

/-! ## The methods -/

/-- `enqueue`. -/
def PriorityScheduler.enqueue (s : PriorityScheduler α) (requestId : RequestId) (payload : α)
    (priority : Priority) (now : Int) : Except String (PriorityScheduler α) :=
  if requestId ∈ s.queued ∨ requestId ∈ s.active then
    .error "request_id is already queued or active"
  else
    let entry : Entry α :=
      { sequence := s.sequence, enqueuedAt := now, requestId := requestId, payload := payload,
        priority := priority, cancelled := false }
    .ok { s with
      sequence := s.sequence + 1
      interactive := if priority = .interactive then s.interactive ++ [entry] else s.interactive
      background := if priority = .interactive then s.background else s.background ++ [entry]
      entries := s.entries ++ [(requestId, s.sequence)] }

/-- `_discard_cancelled`. -/
def discardCancelled (queue : List (Entry α)) : List (Entry α) := queue.dropWhile (·.cancelled)

/-- The first background entry is owed its turn. -/
def starved (s : PriorityScheduler α) (oldest : Entry α) (now : Int) : Bool :=
  s.starvationSeconds ≤
    now - (match s.lastBackgroundRelief with
      | none => oldest.enqueuedAt
      | some relief => max oldest.enqueuedAt relief)

/-- `_choose_entry`. -/
def chooseEntry (s : PriorityScheduler α) (now : Int) :
    Option (Entry α × PriorityScheduler α) :=
  match s.interactive, s.background with
  | interactive, oldest :: background =>
    if starved s oldest now then
      some (oldest, { s with lastBackgroundRelief := some now, background := background })
    else
      match interactive with
      | entry :: interactive => some (entry, { s with interactive := interactive })
      | [] => some (oldest, { s with background := background })
  | entry :: interactive, [] => some (entry, { s with interactive := interactive })
  | [], [] => none

/-- One round of `next`: an item, or nothing and the caller waits. -/
def PriorityScheduler.next (s : PriorityScheduler α) (now : Int) :
    Option (ScheduledItem α) × PriorityScheduler α :=
  let s := { s with
    interactive := discardCancelled s.interactive, background := discardCancelled s.background }
  match chooseEntry s now with
  | none => (none, s)
  | some (entry, s) =>
    (some ⟨entry.requestId, entry.payload, entry.priority, entry.enqueuedAt⟩,
      { s with
        entries := s.entries.filter (·.1 ≠ entry.requestId)
        active := entry.requestId :: s.active })

/-- `entry.cancelled = True`, in whichever heap the entry is. -/
def markCancelled (sequence : Nat) (queue : List (Entry α)) : List (Entry α) :=
  queue.map fun e => if e.sequence = sequence then { e with cancelled := true } else e

/-- `cancel`: whether the request was queued. -/
def PriorityScheduler.cancel (s : PriorityScheduler α) (requestId : RequestId) :
    Bool × PriorityScheduler α :=
  match s.entries.lookup requestId with
  | none => (false, s)
  | some sequence =>
    (true, { s with
      entries := s.entries.filter (·.1 ≠ requestId)
      interactive := markCancelled sequence s.interactive
      background := markCancelled sequence s.background
      cancelled := s.cancelled + 1 })

/-- `finish`. -/
def PriorityScheduler.finish (s : PriorityScheduler α) (requestId : RequestId) (failed : Bool) :
    Except String (PriorityScheduler α) :=
  if requestId ∉ s.active then .error "request_id is not active"
  else
    .ok { s with
      active := s.active.filter (· ≠ requestId)
      failed := if failed then s.failed + 1 else s.failed
      completed := if failed then s.completed else s.completed + 1 }

/-! ## The invariant -/

/-- The live entries of the heaps are the ones `_entries` names, and nothing is both
queued and active. -/
structure SchedulerInv (s : PriorityScheduler α) : Prop where
  keys : s.queued.Nodup
  active : s.active.Nodup
  apart : ∀ r ∈ s.queued, r ∉ s.active
  sequences : (s.heaps.map (·.sequence)).Nodup
  issued : ∀ e ∈ s.heaps, e.sequence < s.sequence
  live : ∀ r q, (r, q) ∈ s.entries ↔
    ∃ e ∈ s.heaps, e.cancelled = false ∧ e.requestId = r ∧ e.sequence = q

theorem schedulerInv_new (starvationSeconds : Int) :
    SchedulerInv (PriorityScheduler.new α starvationSeconds) where
  keys := List.nodup_nil
  active := List.nodup_nil
  apart := by simp [PriorityScheduler.new, PriorityScheduler.queued]
  sequences := List.nodup_nil
  issued := by simp [PriorityScheduler.new, PriorityScheduler.heaps]
  live := by simp [PriorityScheduler.new, PriorityScheduler.heaps]

variable {s s' : PriorityScheduler α}

variable {requestId : RequestId} {payload : α} {priority : Priority} {now : Int}

/-- Nothing but the heaps' order matters. -/
theorem enqueue_heaps (h : s.enqueue requestId payload priority now = .ok s') :
    ∃ entry : Entry α, entry.sequence = s.sequence ∧ entry.requestId = requestId ∧
      entry.cancelled = false ∧ s'.heaps.Perm (entry :: s.heaps) := by
  unfold PriorityScheduler.enqueue at h
  obtain ⟨-, h⟩ := ite_error_eq_ok.mp h
  obtain rfl := Except.ok.inj h
  refine ⟨⟨s.sequence, now, requestId, payload, priority, false⟩, rfl, rfl, rfl, ?_⟩
  unfold PriorityScheduler.heaps
  by_cases hp : priority = .interactive
  · simp only [if_pos hp, List.append_assoc, List.singleton_append]
    exact List.perm_middle
  · simp only [if_neg hp]
    rw [← List.append_assoc]
    exact List.perm_append_singleton _ _

theorem enqueue_ok (h : s.enqueue requestId payload priority now = .ok s') :
    requestId ∉ s.queued ∧ requestId ∉ s.active ∧ s'.queued = s.queued ++ [requestId] ∧
      s'.active = s.active ∧ s'.entries = s.entries ++ [(requestId, s.sequence)] ∧
      s'.sequence = s.sequence + 1 := by
  unfold PriorityScheduler.enqueue at h
  obtain ⟨hnew, h⟩ := ite_error_eq_ok.mp h
  obtain rfl := Except.ok.inj h
  refine ⟨fun hq => hnew (Or.inl hq), fun ha => hnew (Or.inr ha), ?_, rfl, rfl, rfl⟩
  simp [PriorityScheduler.queued]

theorem enqueue_inv (hs : SchedulerInv s) (h : s.enqueue requestId payload priority now = .ok s') :
    SchedulerInv s' := by
  obtain ⟨hqueued, hactive, hq', ha', he', hseq'⟩ := enqueue_ok h
  obtain ⟨entry, hseq, hid, hlive, hperm⟩ := enqueue_heaps h
  have hmem : ∀ e, e ∈ s'.heaps ↔ e = entry ∨ e ∈ s.heaps := by
    intro e
    rw [hperm.mem_iff, List.mem_cons]
  constructor
  · rw [hq']
    exact List.nodup_append.mpr ⟨hs.keys, by simp, by
      intro a ha b hb
      rw [List.mem_singleton.mp hb]
      rintro rfl
      exact hqueued ha⟩
  · rw [ha']
    exact hs.active
  · intro r hr
    rw [hq', List.mem_append, List.mem_singleton] at hr
    rw [ha']
    rcases hr with hr | rfl
    · exact hs.apart r hr
    · exact hactive
  · rw [(hperm.map _).nodup_iff, List.map_cons, List.nodup_cons]
    refine ⟨?_, hs.sequences⟩
    intro hin
    obtain ⟨e, he, heq⟩ := List.mem_map.mp hin
    have hlt := hs.issued e he
    omega
  · intro e he
    rw [hseq']
    rcases (hmem e).mp he with rfl | he
    · omega
    · have hlt := hs.issued e he
      omega
  · intro r q
    rw [he', List.mem_append, List.mem_singleton, hs.live]
    constructor
    · rintro (⟨e, he, hrest⟩ | heq)
      · exact ⟨e, (hmem e).mpr (Or.inr he), hrest⟩
      · obtain ⟨rfl, rfl⟩ := Prod.mk.inj heq
        exact ⟨entry, (hmem entry).mpr (Or.inl rfl), hlive, hid, hseq⟩
    · rintro ⟨e, he, hec, rfl, rfl⟩
      rcases (hmem e).mp he with rfl | he
      · exact Or.inr (by rw [hid, hseq])
      · exact Or.inl ⟨e, he, hec, rfl, rfl⟩

/-! ## `next` -/

/-- The entry chosen is the head of a heap. -/
theorem chooseEntry_some {entry : Entry α} (h : chooseEntry s now = some (entry, s')) :
    s.heaps.Perm (entry :: s'.heaps) ∧ s'.entries = s.entries ∧ s'.active = s.active ∧
      s'.sequence = s.sequence ∧
      (s.interactive.head? = some entry ∨ s.background.head? = some entry) := by
  unfold PriorityScheduler.heaps
  cases hi : s.interactive with
  | nil =>
    cases hb : s.background with
    | nil =>
      simp only [chooseEntry, hi, hb] at h
      exact absurd h (by simp)
    | cons oldest background =>
      -- the background head, starved or not
      simp only [chooseEntry, hi, hb] at h
      split at h
      · obtain ⟨rfl, rfl⟩ := Prod.mk.inj (Option.some.inj h)
        exact ⟨List.Perm.refl _, rfl, rfl, rfl, Or.inr rfl⟩
      · obtain ⟨rfl, rfl⟩ := Prod.mk.inj (Option.some.inj h)
        exact ⟨List.Perm.refl _, rfl, rfl, rfl, Or.inr rfl⟩
  | cons first interactive =>
    cases hb : s.background with
    | nil =>
      simp only [chooseEntry, hi, hb] at h
      obtain ⟨rfl, rfl⟩ := Prod.mk.inj (Option.some.inj h)
      exact ⟨List.Perm.refl _, rfl, rfl, rfl, Or.inl rfl⟩
    | cons oldest background =>
      simp only [chooseEntry, hi, hb] at h
      split at h
      · obtain ⟨rfl, rfl⟩ := Prod.mk.inj (Option.some.inj h)
        exact ⟨List.perm_middle, rfl, rfl, rfl, Or.inr rfl⟩
      · obtain ⟨rfl, rfl⟩ := Prod.mk.inj (Option.some.inj h)
        exact ⟨List.Perm.refl _, rfl, rfl, rfl, Or.inl rfl⟩

/-- Only marked entries are discarded, and the head that is left is not marked. -/
theorem discardCancelled_spec (queue : List (Entry α)) :
    ∃ dropped, queue = dropped ++ discardCancelled queue ∧ (∀ d ∈ dropped, d.cancelled = true) ∧
      ∀ e, (discardCancelled queue).head? = some e → e.cancelled = false := by
  refine ⟨queue.takeWhile (·.cancelled), List.takeWhile_append_dropWhile.symm, ?_, ?_⟩
  · intro d hd
    exact List.mem_takeWhile_imp hd
  · intro e he
    have hhead := List.head?_dropWhile_not (·.cancelled) queue
    unfold discardCancelled at he
    rw [he] at hhead
    simpa using hhead

/-- A round of `next`: marked entries go, and a live one becomes the item. -/
theorem next_spec (s : PriorityScheduler α) (now : Int) :
    ∃ dropped, (∀ d ∈ dropped, d.cancelled = true) ∧ (s.next now).2.sequence = s.sequence ∧
      match (s.next now).1 with
      | none => s.heaps.Perm (dropped ++ (s.next now).2.heaps) ∧
        (s.next now).2.entries = s.entries ∧ (s.next now).2.active = s.active
      | some item => ∃ entry : Entry α, entry.cancelled = false ∧
        entry.requestId = item.requestId ∧
        s.heaps.Perm (dropped ++ entry :: (s.next now).2.heaps) ∧
        (s.next now).2.entries = s.entries.filter (·.1 ≠ item.requestId) ∧
        (s.next now).2.active = item.requestId :: s.active := by
  obtain ⟨di, hi, hdi, hhi⟩ := discardCancelled_spec s.interactive
  obtain ⟨db, hb, hdb, hhb⟩ := discardCancelled_spec s.background
  have hdropped : ∀ d ∈ di ++ db, d.cancelled = true := by
    intro d hd
    rcases List.mem_append.mp hd with hd | hd
    · exact hdi d hd
    · exact hdb d hd
  have hheaps : s.heaps.Perm
      ((di ++ db) ++ (discardCancelled s.interactive ++ discardCancelled s.background)) := by
    have hstart : s.heaps = di ++ (discardCancelled s.interactive ++ (db ++
        discardCancelled s.background)) := by
      rw [← hb, ← List.append_assoc, ← hi]
      rfl
    rw [hstart, List.append_assoc]
    refine List.Perm.append_left di ?_
    rw [← List.append_assoc, ← List.append_assoc]
    exact (List.perm_append_comm).append_right _
  refine ⟨di ++ db, hdropped, ?_⟩
  unfold PriorityScheduler.next
  generalize hs' : ({ s with
    interactive := discardCancelled s.interactive
    background := discardCancelled s.background } : PriorityScheduler α) = s'
  have hkept : s'.heaps = discardCancelled s.interactive ++ discardCancelled s.background ∧
      s'.entries = s.entries ∧ s'.active = s.active ∧ s'.sequence = s.sequence := by
    rw [← hs']
    exact ⟨rfl, rfl, rfl, rfl⟩
  obtain ⟨hk1, hk2, hk3, hk4⟩ := hkept
  simp only []
  cases hc : chooseEntry s' now with
  | none => exact ⟨hk4, by rw [hk1]; exact hheaps, hk2, hk3⟩
  | some chosen =>
    obtain ⟨entry, s''⟩ := chosen
    obtain ⟨hperm, he, ha, hq, hhead⟩ := chooseEntry_some hc
    refine ⟨hq.trans hk4, entry, ?_, rfl, ?_, ?_, ?_⟩
    · rw [← hs'] at hhead
      rcases hhead with hhead | hhead
      · exact hhi entry hhead
      · exact hhb entry hhead
    · rw [hk1] at hperm
      exact hheaps.trans (hperm.append_left _)
    · show s''.entries.filter _ = _
      rw [he, hk2]
    · show entry.requestId :: s''.active = _
      rw [ha, hk3]

theorem next_inv (hs : SchedulerInv s) (now : Int) :
    SchedulerInv (s.next now).2 ∧
      ∀ item, (s.next now).1 = some item → item.requestId ∈ s.queued := by
  obtain ⟨dropped, hdropped, hsequence, hspec⟩ := next_spec s now
  cases hitem : (s.next now).1 with
  | none =>
    rw [hitem] at hspec
    obtain ⟨hperm, he, ha⟩ := hspec
    have hq : (s.next now).2.queued = s.queued := by
      unfold PriorityScheduler.queued
      rw [he]
    refine ⟨⟨?_, ?_, ?_, ?_, ?_, ?_⟩, by simp⟩
    · rw [hq]
      exact hs.keys
    · rw [ha]
      exact hs.active
    · rw [hq, ha]
      exact hs.apart
    · have hnodup := (hperm.map (·.sequence)).nodup_iff.mp hs.sequences
      rw [List.map_append] at hnodup
      exact (List.nodup_append.mp hnodup).2.1
    · intro e hin
      rw [hsequence]
      exact hs.issued e (hperm.mem_iff.mpr (List.mem_append.mpr (Or.inr hin)))
    · intro r q
      rw [he, hs.live]
      constructor
      · rintro ⟨e, hin, hlive, hrest⟩
        rcases List.mem_append.mp (hperm.mem_iff.mp hin) with hd | hin
        · rw [hdropped e hd] at hlive
          exact absurd hlive (by simp)
        · exact ⟨e, hin, hlive, hrest⟩
      · rintro ⟨e, hin, hrest⟩
        exact ⟨e, hperm.mem_iff.mpr (List.mem_append.mpr (Or.inr hin)), hrest⟩
  | some item =>
    rw [hitem] at hspec
    obtain ⟨entry, hlive, hid, hperm, he, ha⟩ := hspec
    have hentry : entry ∈ s.heaps :=
      hperm.mem_iff.mpr (List.mem_append.mpr (Or.inr (by simp)))
    have hkey : (item.requestId, entry.sequence) ∈ s.entries :=
      (hs.live _ _).mpr ⟨entry, hentry, hlive, hid, rfl⟩
    have hqueued : item.requestId ∈ s.queued := List.mem_map.mpr ⟨_, hkey, rfl⟩
    have hq : ∀ r, r ∈ (s.next now).2.queued ↔ r ∈ s.queued ∧ r ≠ item.requestId := by
      intro r
      unfold PriorityScheduler.queued
      rw [he]
      simp only [List.mem_map, List.mem_filter, decide_eq_true_eq]
      constructor
      · rintro ⟨k, ⟨hk, hne⟩, rfl⟩
        exact ⟨⟨k, hk, rfl⟩, hne⟩
      · rintro ⟨⟨k, hk, rfl⟩, hne⟩
        exact ⟨k, ⟨hk, hne⟩, rfl⟩
    have hsequences := (hperm.map (·.sequence)).nodup_iff.mp hs.sequences
    rw [List.map_append, List.map_cons] at hsequences
    obtain ⟨-, hsequences, -⟩ := List.nodup_append.mp hsequences
    obtain ⟨hother, hsequences⟩ := List.nodup_cons.mp hsequences
    refine ⟨⟨?_, ?_, ?_, hsequences, ?_, ?_⟩, ?_⟩
    · unfold PriorityScheduler.queued
      rw [he]
      exact List.Nodup.sublist (List.Sublist.map _ List.filter_sublist) hs.keys
    · rw [ha, List.nodup_cons]
      exact ⟨hs.apart _ hqueued, hs.active⟩
    · intro r hr
      obtain ⟨hr, hne⟩ := (hq r).mp hr
      rw [ha, List.mem_cons]
      rintro (heq | hin)
      · exact hne heq
      · exact hs.apart r hr hin
    · intro e hin
      rw [hsequence]
      exact hs.issued e (hperm.mem_iff.mpr (by simp [hin]))
    · intro r q
      rw [he, List.mem_filter, hs.live, decide_eq_true_eq]
      constructor
      · rintro ⟨⟨e, hin, helive, rfl, rfl⟩, hne⟩
        rcases List.mem_append.mp (hperm.mem_iff.mp hin) with hd | hin
        · rw [hdropped e hd] at helive
          exact absurd helive (by simp)
        · rcases List.mem_cons.mp hin with rfl | hin
          · exact absurd hid hne
          · exact ⟨e, hin, helive, rfl, rfl⟩
      · rintro ⟨e, hin, helive, rfl, rfl⟩
        have hin' : e ∈ s.heaps := hperm.mem_iff.mpr (by simp [hin])
        refine ⟨⟨e, hin', helive, rfl, rfl⟩, ?_⟩
        -- a second live entry of the request would have the item's sequence number
        intro heq
        have hkey' : (item.requestId, e.sequence) ∈ s.entries :=
          (hs.live _ _).mpr ⟨e, hin', helive, heq, rfl⟩
        have hsame := List.inj_on_of_nodup_map hs.keys hkey hkey' rfl
        exact hother (List.mem_map.mpr ⟨e, hin, (Prod.mk.inj hsame).2.symm⟩)
    · rintro item' hitem'
      obtain rfl := Option.some.inj hitem'
      exact hqueued

/-! ## `cancel` and `finish` -/

/-- Marking one entry changes no numbers. -/
theorem markCancelled_sequence (q : Nat) (queue : List (Entry α)) :
    (markCancelled q queue).map (·.sequence) = queue.map (·.sequence) := by
  unfold markCancelled
  rw [List.map_map]
  refine List.map_congr_left fun e _ => ?_
  simp only [Function.comp]
  split <;> rfl

theorem mem_markCancelled_live {q : Nat} {queue : List (Entry α)} {e : Entry α} :
    e ∈ markCancelled q queue ∧ e.cancelled = false ↔
      e ∈ queue ∧ e.sequence ≠ q ∧ e.cancelled = false := by
  unfold markCancelled
  rw [List.mem_map]
  constructor
  · rintro ⟨⟨e', he', rfl⟩, hlive⟩
    by_cases hq : e'.sequence = q
    · rw [if_pos hq] at hlive
      exact absurd hlive (by simp)
    · rw [if_neg hq] at hlive ⊢
      exact ⟨he', hq, hlive⟩
  · rintro ⟨he, hne, hlive⟩
    exact ⟨⟨e, he, if_neg hne⟩, hlive⟩

/-- `cancel` answers whether the request was queued, and takes it out if it was. -/
theorem cancel_spec (s : PriorityScheduler α) (r : RequestId) :
    ((s.cancel r).1 = true ↔ r ∈ s.queued) ∧ (s.cancel r).2.active = s.active ∧
      (∀ r', r' ∈ (s.cancel r).2.queued ↔ r' ∈ s.queued ∧ r' ≠ r) := by
  unfold PriorityScheduler.cancel
  cases hl : s.entries.lookup r with
  | none =>
    have hnot : r ∉ s.queued := by
      unfold PriorityScheduler.queued
      rw [← lookup_isSome, hl]
      simp
    refine ⟨by simp [hnot], rfl, fun r' => ⟨fun h => ⟨h, ?_⟩, fun h => h.1⟩⟩
    rintro rfl
    exact hnot h
  | some q =>
    have hin : r ∈ s.queued := by
      unfold PriorityScheduler.queued
      rw [← lookup_isSome, hl]
      rfl
    refine ⟨by simp [hin], rfl, fun r' => ?_⟩
    show r' ∈ (s.entries.filter (·.1 ≠ r)).map (·.1) ↔ r' ∈ s.entries.map (·.1) ∧ r' ≠ r
    simp only [List.mem_map, List.mem_filter, decide_eq_true_eq]
    constructor
    · rintro ⟨k, ⟨hk, hne⟩, rfl⟩
      exact ⟨⟨k, hk, rfl⟩, hne⟩
    · rintro ⟨⟨k, hk, rfl⟩, hne⟩
      exact ⟨k, ⟨hk, hne⟩, rfl⟩

theorem cancel_inv (hs : SchedulerInv s) (r : RequestId) : SchedulerInv (s.cancel r).2 := by
  obtain ⟨-, ha, hq⟩ := cancel_spec s r
  unfold PriorityScheduler.cancel at ha hq ⊢
  cases hl : s.entries.lookup r with
  | none => exact hs
  | some q =>
    rw [hl] at ha hq
    have hkey := mem_of_lookup hl
    have hheaps : ({ s with
        entries := s.entries.filter (·.1 ≠ r)
        interactive := markCancelled q s.interactive
        background := markCancelled q s.background
        cancelled := s.cancelled + 1 } : PriorityScheduler α).heaps
        = markCancelled q s.heaps := by
      unfold PriorityScheduler.heaps markCancelled
      rw [List.map_append]
    refine ⟨?_, hs.active, ?_, ?_, ?_, ?_⟩
    · exact List.Nodup.sublist (List.Sublist.map _ List.filter_sublist) hs.keys
    · intro r' hr'
      exact hs.apart r' ((hq r').mp hr').1
    · rw [hheaps, markCancelled_sequence]
      exact hs.sequences
    · intro e he
      rw [hheaps] at he
      have hseq : e.sequence ∈ (markCancelled q s.heaps).map (·.sequence) :=
        List.mem_map.mpr ⟨e, he, rfl⟩
      rw [markCancelled_sequence] at hseq
      obtain ⟨e', he', heq⟩ := List.mem_map.mp hseq
      rw [← heq]
      exact hs.issued e' he'
    · intro r' q'
      rw [hheaps]
      show (r', q') ∈ s.entries.filter (·.1 ≠ r) ↔ _
      rw [List.mem_filter, hs.live, decide_eq_true_eq]
      constructor
      · rintro ⟨⟨e, he, hlive, rfl, rfl⟩, hne⟩
        -- another request's entry has another number
        have hseq : e.sequence ≠ q := by
          rintro rfl
          obtain ⟨e', he', -, hid', hseq'⟩ := (hs.live _ _).mp hkey
          have hsame := List.inj_on_of_nodup_map hs.sequences he he' hseq'.symm
          exact hne (hsame ▸ hid')
        obtain ⟨hin, -⟩ := mem_markCancelled_live.mpr ⟨he, hseq, hlive⟩
        exact ⟨e, hin, hlive, rfl, rfl⟩
      · rintro ⟨e, he, hlive, rfl, rfl⟩
        obtain ⟨hin, hseq, -⟩ := mem_markCancelled_live.mp ⟨he, hlive⟩
        refine ⟨⟨e, hin, hlive, rfl, rfl⟩, ?_⟩
        rintro rfl
        have hkey' := (hs.live _ _).mpr ⟨e, hin, hlive, rfl, rfl⟩
        have hsame := List.inj_on_of_nodup_map hs.keys hkey' hkey rfl
        exact hseq (Prod.mk.inj hsame).2

variable {r : RequestId}

theorem finish_ok {failed : Bool} (h : s.finish r failed = .ok s') :
    r ∈ s.active ∧ s'.active = s.active.filter (· ≠ r) ∧ s'.entries = s.entries := by
  unfold PriorityScheduler.finish at h
  obtain ⟨hin, h⟩ := ite_error_eq_ok.mp h
  obtain rfl := Except.ok.inj h
  exact ⟨not_not.mp hin, rfl, rfl⟩

/-- An active request can be finished. -/
theorem finish_of_active (h : r ∈ s.active) (failed : Bool) : ∃ s', s.finish r failed = .ok s' := by
  unfold PriorityScheduler.finish
  rw [if_neg (not_not.mpr h)]
  exact ⟨_, rfl⟩

theorem finish_inv {failed : Bool} (hs : SchedulerInv s) (h : s.finish r failed = .ok s') :
    SchedulerInv s' := by
  unfold PriorityScheduler.finish at h
  obtain ⟨-, h⟩ := ite_error_eq_ok.mp h
  obtain rfl := Except.ok.inj h
  refine ⟨hs.keys, hs.active.filter _, ?_, hs.sequences, hs.issued, hs.live⟩
  intro r' hr' hin
  exact hs.apart r' hr' (List.mem_filter.mp hin).1

end LocalRag.Runtime
