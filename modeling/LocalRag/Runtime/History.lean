import LocalRag.Runtime.Scheduler

/-!
# The history of a scheduler — what an observer of its calls can say

`Watch` is a scheduler together with the record a caller could keep: every request in the
order it came in, with what became of it, and every dispatch with its time. The observer sees calls and
answers only. An item that `next` returns is entered under the request of that id
that is still queued in the record.

The record is the abstract scheduler, one list of requests with a status each, and
`WatchInv` is the refinement: the unmarked entries of each heap, in the order of the
heap, are the queued requests of that class in the order of the record. From there on every
question about heaps and marks is one about the record: the first unmarked entry of a
class is its first queued request, marks are requests cancelled, and the counters
are the numbers of requests by status.

Mirroring notes.
* `metrics` and the constructor of `PriorityScheduler` (`app/runtime/scheduler.py`) are here, the
  other methods in `Scheduler`.
* A call comes with the clock reading it takes. Readings need not be in order: the starvation rule
  compares a reading with the one of the last relief, and this already keeps reliefs apart.
* `next` that waits is a round that returns nothing, and another one later.
-/

namespace LocalRag.Runtime.History

open LocalRag.Core

variable {α : Type}

/-! ## The methods left -/

/-- The constructor. -/
def initScheduler (α : Type) (starvationSeconds : Int) :
    Except String (PriorityScheduler α) :=
  if starvationSeconds ≤ 0 then .error "starvation_seconds must be positive"
  else .ok (PriorityScheduler.new α starvationSeconds)

structure QueueMetrics where
  queuedInteractive : Nat
  queuedBackground : Nat
  active : Nat
  completed : Nat
  failed : Nat
  cancelled : Nat
  oldestBackgroundWaitSeconds : Option Int
deriving Repr, DecidableEq

/-- The entries not marked. -/
def live (queue : List (Entry α)) : List (Entry α) := queue.filter fun e => !e.cancelled

/-- `metrics`. -/
def metrics (s : PriorityScheduler α) (now : Int) : QueueMetrics where
  queuedInteractive := (live s.interactive).length
  queuedBackground := (live s.background).length
  active := s.active.length
  completed := s.completed
  failed := s.failed
  cancelled := s.cancelled
  oldestBackgroundWaitSeconds :=
    ((live s.background).map (·.enqueuedAt)).min?.map fun oldest => max 0 (now - oldest)

/-! ## The observer -/

inductive Status where
  | queued | active | completed | failed | cancelled
deriving Repr, DecidableEq

/-- One request that was enqueued, numbered in the order they came. -/
structure Request (α : Type) where
  number : Nat
  requestId : RequestId
  payload : α
  priority : Priority
  enqueuedAt : Int
  status : Status

/-- One item that `next` returned. `relief` says that the background class was owed it. -/
structure Dispatch where
  number : Nat
  priority : Priority
  time : Int
  relief : Bool

structure Watch (α : Type) where
  scheduler : PriorityScheduler α
  requests : List (Request α)
  dispatches : List Dispatch

def Watch.new (s : PriorityScheduler α) : Watch α := ⟨s, [], []⟩

/-- The requests with this status, in order. -/
def withStatus (status : Status) (requests : List (Request α)) : List (Request α) :=
  requests.filter (·.status = status)

/-- The queued requests of a class, in order. -/
def queuedOf (priority : Priority) (requests : List (Request α)) : List (Request α) :=
  requests.filter fun x => x.status = .queued ∧ x.priority = priority

/-- The request of this id moves from one status to another. -/
def move (r : RequestId) (old new : Status) (x : Request α) : Request α :=
  if x.requestId = r ∧ x.status = old then { x with status := new } else x

def reliefs (dispatches : List Dispatch) : List Int :=
  (dispatches.filter (·.relief)).map (·.time)

/-- The oldest background request queued has waited long enough, since it was enqueued and
since the last relief. -/
def overdue (w : Watch α) (now : Int) : Bool :=
  match queuedOf .background w.requests with
  | [] => false
  | oldest :: _ =>
    w.scheduler.starvationSeconds ≤ now - (match (reliefs w.dispatches).getLast? with
      | none => oldest.enqueuedAt
      | some relief => max oldest.enqueuedAt relief)

inductive SchedulerCall (α : Type) where
  | enqueue (requestId : RequestId) (payload : α) (priority : Priority) (now : Int)
  | next (now : Int)
  | cancel (requestId : RequestId)
  | finish (requestId : RequestId) (failed : Bool)

/-- What the observer enters for an item. -/
def dispatched (w : Watch α) (item : ScheduledItem α) (now : Int) : List Dispatch :=
  match w.requests.find? fun x => x.requestId = item.requestId ∧ x.status = .queued with
  | none => []
  | some x => [⟨x.number, x.priority, now, decide (x.priority = .background) && overdue w now⟩]

/-- A call, and what the observer enters once it has answered. -/
def watchStep (w : Watch α) : SchedulerCall α → Watch α
  | .enqueue requestId payload priority now =>
    match w.scheduler.enqueue requestId payload priority now with
    | .error _ => w
    | .ok s =>
      { w with
        scheduler := s
        requests :=
          w.requests ++ [⟨w.requests.length, requestId, payload, priority, now, .queued⟩] }
  | .next now =>
    match (w.scheduler.next now).1 with
    | none => { w with scheduler := (w.scheduler.next now).2 }
    | some item =>
      { scheduler := (w.scheduler.next now).2
        requests := w.requests.map (move item.requestId .queued .active)
        dispatches := w.dispatches ++ dispatched w item now }
  | .cancel requestId =>
    { w with
      scheduler := (w.scheduler.cancel requestId).2
      requests :=
        if (w.scheduler.cancel requestId).1 then
          w.requests.map (move requestId .queued .cancelled)
        else w.requests }
  | .finish requestId failed =>
    match w.scheduler.finish requestId failed with
    | .error _ => w
    | .ok s =>
      { w with
        scheduler := s
        requests := w.requests.map
          (move requestId .active (if failed then .failed else .completed)) }

/-! ## Moving one request -/

@[simp] theorem move_number (r : RequestId) (old new : Status) (x : Request α) :
    (move r old new x).number = x.number := by
  unfold move
  split <;> rfl

@[simp] theorem move_priority (r : RequestId) (old new : Status) (x : Request α) :
    (move r old new x).priority = x.priority := by
  unfold move
  split <;> rfl

variable {r : RequestId}

variable {old new : Status}

theorem move_of_ne {x : Request α} (h : ¬ (x.requestId = r ∧ x.status = old)) :
    move r old new x = x := by
  unfold move
  rw [if_neg h]

variable {requests : List (Request α)}

/-- Where one request of the id has the status, it is the only one that moves. -/
theorem map_move_split (new : Status)
    (hkeys : ((withStatus old requests).map (·.requestId)).Nodup)
    (hr : r ∈ (withStatus old requests).map (·.requestId)) :
    ∃ before x after, requests = before ++ x :: after ∧ x.requestId = r ∧ x.status = old ∧
      (∀ y ∈ before ++ after, ¬ (y.requestId = r ∧ y.status = old)) ∧
      requests.map (move r old new) = before ++ { x with status := new } :: after := by
  obtain ⟨x, hx, hid⟩ := List.mem_map.mp hr
  obtain ⟨hx, hold⟩ := List.mem_filter.mp hx
  have hold : x.status = old := of_decide_eq_true hold
  obtain ⟨before, after, rfl⟩ := List.append_of_mem hx
  have hone : ∀ y ∈ before ++ after, ¬ (y.requestId = r ∧ y.status = old) := by
    rintro y hy ⟨hyid, hyold⟩
    have hperm : (withStatus old (before ++ x :: after)).Perm
        (x :: withStatus old (before ++ after)) := by
      unfold withStatus
      refine (List.Perm.filter _ List.perm_middle).trans ?_
      rw [List.filter_cons_of_pos (by simpa using hold)]
    have hnodup := (hperm.map (·.requestId)).nodup_iff.mp hkeys
    rw [List.map_cons, List.nodup_cons] at hnodup
    refine hnodup.1 (List.mem_map.mpr ⟨y, List.mem_filter.mpr ⟨hy, by simpa using hyold⟩, ?_⟩)
    rw [hyid, hid]
  refine ⟨before, x, after, rfl, hid, hold, hone, ?_⟩
  have hbefore : before.map (move r old new) = before := by
    refine (List.map_congr_left fun y hy => ?_).trans (List.map_id before)
    exact move_of_ne (hone y (List.mem_append_left _ hy))
  have hafter : after.map (move r old new) = after := by
    refine (List.map_congr_left fun y hy => ?_).trans (List.map_id after)
    exact move_of_ne (hone y (List.mem_append_right _ hy))
  rw [List.map_append, List.map_cons, hbefore, hafter]
  congr 2
  unfold move
  rw [if_pos ⟨hid, hold⟩]

/-- What a move does to the requests of each status: one leaves, one enters, and the rest stay. -/
theorem withStatus_move (hne : old ≠ new)
    (hkeys : ((withStatus old requests).map (·.requestId)).Nodup)
    (hr : r ∈ (withStatus old requests).map (·.requestId)) :
    ∃ x ∈ requests, x.requestId = r ∧ x.status = old ∧
      (withStatus old requests).Perm (x :: withStatus old (requests.map (move r old new))) ∧
      (withStatus new (requests.map (move r old new))).Perm
        ({ x with status := new } :: withStatus new requests) ∧
      ∀ status, status ≠ old → status ≠ new →
        withStatus status (requests.map (move r old new)) = withStatus status requests := by
  obtain ⟨before, x, after, rfl, hid, hold, -, hmap⟩ := map_move_split new hkeys hr
  refine ⟨x, by simp, hid, hold, ?_, ?_, ?_⟩
  · rw [hmap]
    unfold withStatus
    rw [List.filter_append, List.filter_append, List.filter_cons_of_pos (by simpa using hold),
      List.filter_cons_of_neg (by simpa using fun h => hne h.symm)]
    exact List.perm_middle
  · rw [hmap]
    unfold withStatus
    rw [List.filter_append, List.filter_append, List.filter_cons_of_pos (by simp),
      List.filter_cons_of_neg (by simpa [hold] using hne)]
    exact List.perm_middle
  · intro status hso hsn
    rw [hmap]
    unfold withStatus
    rw [List.filter_append, List.filter_append,
      List.filter_cons_of_neg (by simpa using fun h => hsn h.symm),
      List.filter_cons_of_neg (by simpa [hold] using fun h => hso h.symm)]

/-- A request that leaves the queue leaves its class, wherever it stands in it. -/
theorem queuedOf_move (hne : new ≠ .queued) (priority : Priority) (requests : List (Request α)) :
    queuedOf priority (requests.map (move r .queued new)) =
      (queuedOf priority requests).filter (·.requestId ≠ r) := by
  unfold queuedOf
  induction requests with
  | nil => rfl
  | cons x requests ih =>
    rw [List.map_cons, List.filter_cons, List.filter_cons, ih]
    unfold move
    by_cases hq : x.status = .queued
    · by_cases hr : x.requestId = r
      · by_cases hp : x.priority = priority
        · simp [hq, hr, hp, hne]
        · simp [hq, hr, hp, hne]
      · by_cases hp : x.priority = priority
        · simp [hq, hr, hp]
        · simp [hq, hr, hp]
    · simp [hq]

/-- No request enters the queue by moving from active. -/
theorem queuedOf_finish (hne : new ≠ .queued) (priority : Priority) (requests : List (Request α)) :
    queuedOf priority (requests.map (move r .active new)) = queuedOf priority requests := by
  unfold queuedOf
  induction requests with
  | nil => rfl
  | cons x requests ih =>
    rw [List.map_cons, List.filter_cons, List.filter_cons, ih]
    unfold move
    by_cases hq : x.status = .active
    · by_cases hr : x.requestId = r
      · simp [hq, hr, hne]
      · simp [hq, hr]
    · simp [hq]

/-- Every request has one of the statuses. -/
theorem length_eq_statuses (requests : List (Request α)) :
    requests.length = (queuedOf .interactive requests).length +
      (queuedOf .background requests).length + (withStatus .active requests).length +
      (withStatus .completed requests).length + (withStatus .failed requests).length +
      (withStatus .cancelled requests).length := by
  unfold queuedOf withStatus
  induction requests with
  | nil => rfl
  | cons x requests ih =>
    rw [List.length_cons, ih]
    cases hs : x.status with
    | queued => cases hp : x.priority <;> simp [hs, hp] <;> omega
    | active => simp [hs]; omega
    | completed => simp [hs]; omega
    | failed => simp [hs]; omega
    | cancelled => simp [hs]; omega

/-! ## `next` -/

/-- What is left on top of a heap once the marked entries are gone. -/
theorem discardCancelled_cases (queue : List (Entry α)) :
    (discardCancelled queue = [] ∧ live queue = []) ∨
      ∃ e rest, discardCancelled queue = e :: rest ∧ live queue = e :: live rest ∧
        live (e :: rest) = e :: live rest := by
  unfold discardCancelled live
  induction queue with
  | nil => exact Or.inl ⟨rfl, rfl⟩
  | cons e queue ih =>
    by_cases hc : e.cancelled = true
    · rw [List.dropWhile_cons_of_pos hc, List.filter_cons_of_neg (by simp [hc])]
      exact ih
    · have hlive : (e :: queue).filter (fun e => !e.cancelled) =
          e :: queue.filter fun e => !e.cancelled :=
        List.filter_cons_of_pos (by simpa using hc)
      rw [List.dropWhile_cons_of_neg hc]
      exact Or.inr ⟨e, queue, rfl, hlive, hlive⟩

/-- The entry served is the oldest live one of its class. It is a background entry when that one
is starved, which is a relief, or when there is no interactive entry. -/
inductive Serves (s s' : PriorityScheduler α) (now : Int) (e : Entry α) : Prop where
  | relief (queue : live s.background = e :: live s'.background)
      (other : live s'.interactive = live s.interactive) (due : starved s e now = true)
      (last : s'.lastBackgroundRelief = some now)
  | interactive (queue : live s.interactive = e :: live s'.interactive)
      (other : live s'.background = live s.background)
      (notDue : ∀ b rest, live s.background = b :: rest → starved s b now = false)
      (last : s'.lastBackgroundRelief = s.lastBackgroundRelief)
  | background (queue : live s.background = e :: live s'.background)
      (other : live s'.interactive = live s.interactive) (none : live s.interactive = [])
      (notDue : starved s e now = false)
      (last : s'.lastBackgroundRelief = s.lastBackgroundRelief)

/-- What a round of `next` leaves as it was. -/
structure Kept (s s' : PriorityScheduler α) : Prop where
  starvation : s'.starvationSeconds = s.starvationSeconds
  sequence : s'.sequence = s.sequence
  completed : s'.completed = s.completed
  failed : s'.failed = s.failed
  cancelled : s'.cancelled = s.cancelled

theorem next_cases (s : PriorityScheduler α) (now : Int) :
    Kept s (s.next now).2 ∧
    (((s.next now).1 = none ∧ live s.interactive = [] ∧ live s.background = [] ∧
        live (s.next now).2.interactive = [] ∧ live (s.next now).2.background = [] ∧
        (s.next now).2.queued = s.queued ∧ (s.next now).2.active = s.active ∧
        (s.next now).2.lastBackgroundRelief = s.lastBackgroundRelief) ∨
      ∃ e : Entry α,
        (s.next now).1 = some ⟨e.requestId, e.payload, e.priority, e.enqueuedAt⟩ ∧
        Serves s (s.next now).2 now e ∧
        (s.next now).2.entries = s.entries.filter (·.1 ≠ e.requestId) ∧
        (s.next now).2.active = e.requestId :: s.active) := by
  unfold PriorityScheduler.next
  rcases discardCancelled_cases s.interactive with ⟨hi, hli⟩ | ⟨ei, ri, hi, hli, hri⟩
  · rcases discardCancelled_cases s.background with ⟨hb, hlb⟩ | ⟨eb, rb, hb, hlb, -⟩
    · simp only [hi, hb, chooseEntry]
      exact ⟨⟨rfl, rfl, rfl, rfl, rfl⟩, Or.inl ⟨trivial, hli, hlb, rfl, rfl, rfl, trivial, trivial⟩⟩
    · simp only [hi, hb, chooseEntry]
      cases hdue : starved s eb now with
      | true =>
        rw [if_pos (by exact hdue)]
        refine ⟨⟨rfl, rfl, rfl, rfl, rfl⟩, Or.inr ⟨eb, rfl, ?_, rfl, rfl⟩⟩
        exact .relief hlb (by rw [hli]; rfl) hdue rfl
      | false =>
        rw [if_neg (by exact Bool.eq_false_iff.mp hdue)]
        refine ⟨⟨rfl, rfl, rfl, rfl, rfl⟩, Or.inr ⟨eb, rfl, ?_, rfl, rfl⟩⟩
        exact .background hlb (by rw [hli]; rfl) hli hdue rfl
  · rcases discardCancelled_cases s.background with ⟨hb, hlb⟩ | ⟨eb, rb, hb, hlb, hrb⟩
    · simp only [hi, hb, chooseEntry]
      refine ⟨⟨rfl, rfl, rfl, rfl, rfl⟩, Or.inr ⟨ei, rfl, ?_, rfl, rfl⟩⟩
      refine .interactive hli (by rw [hlb]; rfl) (fun b rest hnone => ?_) rfl
      rw [hlb] at hnone
      exact absurd hnone (by simp)
    · simp only [hi, hb, chooseEntry]
      cases hdue : starved s eb now with
      | true =>
        rw [if_pos (by exact hdue)]
        refine ⟨⟨rfl, rfl, rfl, rfl, rfl⟩, Or.inr ⟨eb, rfl, ?_, rfl, rfl⟩⟩
        exact .relief hlb (hri.trans hli.symm) hdue rfl
      | false =>
        rw [if_neg (by exact Bool.eq_false_iff.mp hdue)]
        refine ⟨⟨rfl, rfl, rfl, rfl, rfl⟩, Or.inr ⟨ei, rfl, ?_, rfl, rfl⟩⟩
        refine .interactive hli (hrb.trans hlb.symm) (fun b rest hb' => ?_) rfl
        rw [hlb] at hb'
        rw [← (List.cons.inj hb').1]
        exact hdue

/-! ## The invariant -/

/-- The record's view of an entry. -/
def entered (e : Entry α) : Request α :=
  ⟨e.sequence, e.requestId, e.payload, e.priority, e.enqueuedAt, .queued⟩

/-- The scheduler is the record, seen through heaps and marks. -/
structure WatchInv (starvationSeconds : Int) (w : Watch α) : Prop where
  scheduler : SchedulerInv w.scheduler
  starvation : w.scheduler.starvationSeconds = starvationSeconds
  numbers : w.requests.map (·.number) = List.range w.requests.length
  sequence : w.scheduler.sequence = w.requests.length
  queued : w.scheduler.queued.Perm ((withStatus .queued w.requests).map (·.requestId))
  active : w.scheduler.active.Perm ((withStatus .active w.requests).map (·.requestId))
  interactive : (live w.scheduler.interactive).map entered = queuedOf .interactive w.requests
  background : (live w.scheduler.background).map entered = queuedOf .background w.requests
  completed : w.scheduler.completed = (withStatus .completed w.requests).length
  failed : w.scheduler.failed = (withStatus .failed w.requests).length
  cancelled : w.scheduler.cancelled = (withStatus .cancelled w.requests).length
  lastRelief : w.scheduler.lastBackgroundRelief = (reliefs w.dispatches).getLast?
  reliefsApart : (reliefs w.dispatches).Pairwise fun t u => starvationSeconds ≤ u - t
  known : ∀ d ∈ w.dispatches, ∃ x ∈ w.requests, x.number = d.number ∧ x.priority = d.priority ∧
    x.status ≠ .queued ∧ x.status ≠ .cancelled
  ordered : ∀ p, ((w.dispatches.filter (·.priority = p)).map (·.number)).Pairwise (· < ·)
  ahead : ∀ d ∈ w.dispatches, ∀ x ∈ w.requests, x.status = .queued → x.priority = d.priority →
    d.number < x.number

variable {s : PriorityScheduler α}

theorem watchInv_new {starvationSeconds : Int} (h : initScheduler α starvationSeconds = .ok s) :
    0 < starvationSeconds ∧ WatchInv starvationSeconds (Watch.new s) := by
  unfold initScheduler at h
  obtain ⟨hpos, h⟩ := ite_error_eq_ok.mp h
  obtain rfl := Except.ok.inj h
  refine ⟨by omega, ?_⟩
  constructor
  case scheduler => exact schedulerInv_new starvationSeconds
  all_goals simp [Watch.new, PriorityScheduler.new, PriorityScheduler.queued, withStatus, live,
    queuedOf, reliefs]

/-! ## Facts of the record -/

theorem mem_queuedOf {p : Priority} {x : Request α} :
    x ∈ queuedOf p requests ↔ x ∈ requests ∧ x.status = .queued ∧ x.priority = p := by
  unfold queuedOf
  rw [List.mem_filter, decide_eq_true_eq]

theorem mem_withStatus {status : Status} {x : Request α} :
    x ∈ withStatus status requests ↔ x ∈ requests ∧ x.status = status := by
  unfold withStatus
  rw [List.mem_filter, decide_eq_true_eq]

/-- A class is queued in the order its requests came. -/
theorem queuedOf_sorted {n : Nat} (h : requests.map (·.number) = List.range n) (p : Priority) :
    ((queuedOf p requests).map (·.number)).Pairwise (· < ·) := by
  have hsub : ((queuedOf p requests).map (·.number)).Sublist (List.range n) := by
    rw [← h]
    exact List.Sublist.map _ List.filter_sublist
  exact List.Pairwise.sublist hsub List.pairwise_lt_range

variable {y : Request α}

/-- The head of a class came first. -/
theorem le_of_head {n : Nat} (h : requests.map (·.number) = List.range n) {p : Priority}
    {x : Request α} {rest : List (Request α)} (hx : queuedOf p requests = x :: rest)
    (hy : y ∈ queuedOf p requests) : y = x ∨ x.number < y.number := by
  have hsorted := queuedOf_sorted h p
  rw [hx] at hsorted hy
  rw [List.map_cons, List.pairwise_cons] at hsorted
  rcases List.mem_cons.mp hy with heq | hin
  · exact Or.inl heq
  · exact Or.inr (hsorted.1 _ (List.mem_map.mpr ⟨y, hin, rfl⟩))

/-- A request still queued after a move did not move. -/
theorem mem_of_queued (hne : new ≠ .queued) (hy : y ∈ requests.map (move r old new))
    (hq : y.status = .queued) : y ∈ requests ∧ ¬ (y.requestId = r ∧ old = .queued) := by
  obtain ⟨x, hx, rfl⟩ := List.mem_map.mp hy
  unfold move at hq ⊢
  by_cases hm : x.requestId = r ∧ x.status = old
  · rw [if_pos hm] at hq
    exact absurd hq hne
  · rw [if_neg hm] at hq ⊢
    exact ⟨hx, fun h => hm ⟨h.1, hq.trans h.2.symm⟩⟩

/-- A request dispatched stays dispatched and not cancelled. -/
theorem known_move (h : old = .queued ∨ (new ≠ .queued ∧ new ≠ .cancelled)) {d : Dispatch}
    (hd : ∃ x ∈ requests, x.number = d.number ∧ x.priority = d.priority ∧
      x.status ≠ .queued ∧ x.status ≠ .cancelled) :
    ∃ x ∈ requests.map (move r old new), x.number = d.number ∧ x.priority = d.priority ∧
      x.status ≠ .queued ∧ x.status ≠ .cancelled := by
  obtain ⟨x, hx, hnumber, hpriority, hq, hc⟩ := hd
  refine ⟨move r old new x, List.mem_map.mpr ⟨x, hx, rfl⟩, by rw [move_number, hnumber],
    by rw [move_priority, hpriority], ?_⟩
  unfold move
  by_cases hm : x.requestId = r ∧ x.status = old
  · rw [if_pos hm]
    rcases h with rfl | h
    · exact absurd hm.2 hq
    · exact h
  · rw [if_neg hm]
    exact ⟨hq, hc⟩

theorem map_move_numbers (r : RequestId) (old new : Status) (requests : List (Request α)) :
    (requests.map (move r old new)).map (·.number) = requests.map (·.number) := by
  rw [List.map_map]
  exact List.map_congr_left fun x _ => move_number r old new x

/-- Striking one key off a list without duplicates. -/
theorem filter_perm_of_perm_cons {keys rest : List RequestId} (h : keys.Perm (r :: rest))
    (hkeys : keys.Nodup) : (keys.filter (· ≠ r)).Perm rest := by
  have hnodup := h.nodup_iff.mp hkeys
  obtain ⟨hr, -⟩ := List.nodup_cons.mp hnodup
  have hfilter := h.filter (· ≠ r)
  rw [List.filter_cons_of_neg (by simp)] at hfilter
  refine hfilter.trans (List.Perm.of_eq (List.filter_eq_self.mpr fun k hk => ?_))
  rw [decide_eq_true_eq]
  rintro rfl
  exact hr hk

/-- The books of a request that moves: it goes off the keys of its old status. -/
theorem move_books {r : RequestId} {old new : Status} (hne : old ≠ new)
    {requests : List (Request α)} {keys : List RequestId}
    (hperm : keys.Perm ((withStatus old requests).map (·.requestId))) (hkeys : keys.Nodup)
    (hr : r ∈ keys) :
    (keys.filter (· ≠ r)).Perm
      ((withStatus old (requests.map (move r old new))).map (·.requestId)) ∧
    ((withStatus new (requests.map (move r old new))).map (·.requestId)).Perm
      (r :: (withStatus new requests).map (·.requestId)) ∧
    ∀ status, status ≠ old → status ≠ new →
      withStatus status (requests.map (move r old new)) = withStatus status requests := by
  obtain ⟨x, -, hid, -, hold, hnew, hothers⟩ :=
    withStatus_move hne (hperm.nodup_iff.mp hkeys) (hperm.mem_iff.mp hr)
  refine ⟨filter_perm_of_perm_cons (hperm.trans ?_) hkeys, ?_, hothers⟩
  · have hids := hold.map (·.requestId)
    rw [List.map_cons, hid] at hids
    exact hids
  · refine (hnew.map (·.requestId)).trans ?_
    rw [List.map_cons, hid]

/-! ## Steps -/

section Steps

variable {starvationSeconds : Int} {w : Watch α}

variable {e : Entry α}

theorem live_append_new (queue : List (Entry α)) (h : e.cancelled = false) :
    live (queue ++ [e]) = live queue ++ [e] := by
  unfold live
  rw [List.filter_append]
  simp [h]

variable {now : Int}

theorem enqueue_watchInv (hw : WatchInv starvationSeconds w) {payload : α} {priority : Priority}
    (h : w.scheduler.enqueue r payload priority now = .ok s) :
    WatchInv starvationSeconds { w with
      scheduler := s
      requests := w.requests ++ [⟨w.requests.length, r, payload, priority, now, .queued⟩] } := by
  obtain ⟨-, -, hqueued, hactive, -, hsequence⟩ := enqueue_ok h
  have hscheduler := enqueue_inv hw.scheduler h
  unfold PriorityScheduler.enqueue at h
  obtain ⟨-, h⟩ := ite_error_eq_ok.mp h
  have hs := Except.ok.inj h
  generalize hx : (⟨w.requests.length, r, payload, priority, now, .queued⟩ : Request α) = x
  have hstatus : x.status = .queued := by rw [← hx]
  have hrest : ∀ status, status ≠ Status.queued →
      withStatus status (w.requests ++ [x]) = withStatus status w.requests := by
    intro status hne
    unfold withStatus
    rw [List.filter_append, List.filter_cons_of_neg (by simpa [hstatus] using hne.symm)]
    exact List.append_nil _
  have hentered : entered ⟨w.scheduler.sequence, now, r, payload, priority, false⟩ = x := by
    rw [← hx, ← hw.sequence]
    rfl
  constructor
  · exact hscheduler
  · rw [← hs]
    exact hw.starvation
  · show (w.requests ++ [x]).map (·.number) = List.range (w.requests ++ [x]).length
    rw [List.map_append, hw.numbers, List.length_append, List.length_singleton, List.range_succ,
      ← hx]
    rfl
  · show s.sequence = (w.requests ++ [x]).length
    rw [hsequence, hw.sequence, List.length_append, List.length_singleton]
  · show s.queued.Perm ((withStatus .queued (w.requests ++ [x])).map (·.requestId))
    have hnew : withStatus .queued (w.requests ++ [x]) = withStatus .queued w.requests ++ [x] := by
      unfold withStatus
      rw [List.filter_append, List.filter_cons_of_pos (by simpa using hstatus)]
      rfl
    rw [hqueued, hnew, List.map_append, ← hx]
    exact hw.queued.append_right _
  · show s.active.Perm ((withStatus .active (w.requests ++ [x])).map (·.requestId))
    rw [hactive, hrest _ (by simp)]
    exact hw.active
  · show (live s.interactive).map entered = queuedOf .interactive (w.requests ++ [x])
    unfold queuedOf
    rw [← hs, List.filter_append]
    show (live (if priority = .interactive then _ else _)).map entered = _
    by_cases hp : priority = .interactive
    · have hxp : x.priority = .interactive := by rw [← hx]; exact hp
      rw [if_pos hp, live_append_new _ rfl, List.map_append, hw.interactive,
        List.filter_cons_of_pos (by simp [hstatus, hxp])]
      rw [List.map_singleton, hentered]
      rfl
    · have hxp : x.priority ≠ .interactive := by rw [← hx]; exact hp
      rw [if_neg hp, hw.interactive, List.filter_cons_of_neg (by simp [hxp])]
      exact (List.append_nil _).symm
  · show (live s.background).map entered = queuedOf .background (w.requests ++ [x])
    unfold queuedOf
    rw [← hs, List.filter_append]
    show (live (if priority = .interactive then _ else _)).map entered = _
    by_cases hp : priority = .interactive
    · have hxp : x.priority ≠ .background := by rw [← hx, hp]; simp
      rw [if_pos hp, hw.background, List.filter_cons_of_neg (by simp [hxp])]
      exact (List.append_nil _).symm
    · have hxp : x.priority = .background := by
        rw [← hx]
        cases priority with
        | interactive => exact absurd rfl hp
        | background => rfl
      rw [if_neg hp, live_append_new _ rfl, List.map_append, hw.background,
        List.filter_cons_of_pos (by simp [hstatus, hxp])]
      rw [List.map_singleton, hentered]
      rfl
  · show s.completed = _
    rw [hrest _ (by simp), ← hs]
    exact hw.completed
  · show s.failed = _
    rw [hrest _ (by simp), ← hs]
    exact hw.failed
  · show s.cancelled = _
    rw [hrest _ (by simp), ← hs]
    exact hw.cancelled
  · show s.lastBackgroundRelief = _
    rw [← hs]
    exact hw.lastRelief
  · exact hw.reliefsApart
  · intro d hd
    obtain ⟨y, hy, hrest⟩ := hw.known d hd
    exact ⟨y, List.mem_append_left _ hy, hrest⟩
  · exact hw.ordered
  · intro d hd y hy hyq hyp
    rcases List.mem_append.mp hy with hy | hy
    · exact hw.ahead d hd y hy hyq hyp
    · -- the new request comes after every request there is
      obtain ⟨z, hz, hnumber, -⟩ := hw.known d hd
      have hlt : z.number < w.requests.length := by
        have hin : z.number ∈ w.requests.map (·.number) := List.mem_map.mpr ⟨z, hz, rfl⟩
        rw [hw.numbers, List.mem_range] at hin
        exact hin
      rw [List.mem_singleton.mp hy, ← hx]
      show d.number < w.requests.length
      omega

theorem finish_watchInv (hw : WatchInv starvationSeconds w) {failed : Bool}
    (h : w.scheduler.finish r failed = .ok s) :
    WatchInv starvationSeconds { w with
      scheduler := s
      requests := w.requests.map (move r .active (if failed then .failed else .completed)) } := by
  obtain ⟨hr, hactive, hentries⟩ := finish_ok h
  have hscheduler := finish_inv hw.scheduler h
  unfold PriorityScheduler.finish at h
  obtain ⟨-, h⟩ := ite_error_eq_ok.mp h
  have hs := Except.ok.inj h
  generalize hnew : (if failed then Status.failed else Status.completed) = new
  have hend : new ≠ .queued ∧ new ≠ .cancelled ∧ Status.active ≠ new := by
    rw [← hnew]
    cases failed <;> simp
  obtain ⟨hleft, hentered, hothers⟩ := move_books hend.2.2 hw.active hw.scheduler.active hr
  have hgrown := hentered.length_eq
  simp only [List.length_map, List.length_cons] at hgrown
  constructor
  · exact hscheduler
  · rw [← hs]
    exact hw.starvation
  · rw [map_move_numbers, List.length_map]
    exact hw.numbers
  · rw [← hs, List.length_map]
    exact hw.sequence
  · show s.queued.Perm _
    unfold PriorityScheduler.queued
    rw [hentries, hothers _ (by simp) hend.1.symm]
    exact hw.queued
  · rw [hactive]
    exact hleft
  · rw [queuedOf_finish hend.1, ← hs]
    exact hw.interactive
  · rw [queuedOf_finish hend.1, ← hs]
    exact hw.background
  · rw [← hs]
    show (if failed then w.scheduler.completed else w.scheduler.completed + 1) = _
    cases failed with
    | true =>
      rw [hothers _ (by simp) (by rw [← hnew]; simp)]
      exact hw.completed
    | false =>
      obtain rfl : Status.completed = new := hnew
      show w.scheduler.completed + 1 = _
      rw [hw.completed, hgrown]
  · rw [← hs]
    show (if failed then w.scheduler.failed + 1 else w.scheduler.failed) = _
    cases failed with
    | true =>
      obtain rfl : Status.failed = new := hnew
      show w.scheduler.failed + 1 = _
      rw [hw.failed, hgrown]
    | false =>
      rw [hothers _ (by simp) (by rw [← hnew]; simp)]
      exact hw.failed
  · rw [hothers _ (by simp) hend.2.1.symm, ← hs]
    exact hw.cancelled
  · rw [← hs]
    exact hw.lastRelief
  · exact hw.reliefsApart
  · intro d hd
    exact known_move (Or.inr ⟨hend.1, hend.2.1⟩) (hw.known d hd)
  · exact hw.ordered
  · intro d hd y hy hyq hyp
    exact hw.ahead d hd y (mem_of_queued hend.1 hy hyq).1 hyq hyp

/-- A live entry has the number its request is filed under, and no other live entry has it. -/
theorem sequence_iff (hs : SchedulerInv s) {q : Nat} (hkey : (r, q) ∈ s.entries)
    (he : e ∈ s.heaps) (hlive : e.cancelled = false) : e.sequence = q ↔ e.requestId = r := by
  constructor
  · intro hq
    obtain ⟨e', he', -, hid', hseq'⟩ := (hs.live r q).mp hkey
    have hsame := List.inj_on_of_nodup_map hs.sequences he he' (hq.trans hseq'.symm)
    rw [hsame, hid']
  · intro hid
    have hown := (hs.live _ _).mpr ⟨e, he, hlive, hid, rfl⟩
    have hsame := List.inj_on_of_nodup_map hs.keys hown hkey rfl
    exact (Prod.mk.inj hsame).2

theorem live_markCancelled {q : Nat} {queue : List (Entry α)}
    (h : ∀ e ∈ queue, e.cancelled = false → (e.sequence = q ↔ e.requestId = r)) :
    live (markCancelled q queue) = (live queue).filter (·.requestId ≠ r) := by
  unfold live markCancelled
  induction queue with
  | nil => rfl
  | cons e queue ih =>
    rw [List.map_cons, List.filter_cons, List.filter_cons,
      ih fun e' he' => h e' (List.mem_cons_of_mem e he')]
    have hiff := h e List.mem_cons_self
    by_cases hc : e.cancelled = true
    · by_cases hq : e.sequence = q
      · simp [hc, hq]
      · simp [hc, hq]
    · have hlive : e.cancelled = false := by simpa using hc
      by_cases hq : e.sequence = q
      · simp [hlive, hq, (hiff hlive).mp hq]
      · have hr : e.requestId ≠ r := fun hr => hq ((hiff hlive).mpr hr)
        simp [hlive, hq, hr]

theorem entered_filter (r : RequestId) (queue : List (Entry α)) :
    (queue.filter (·.requestId ≠ r)).map entered = (queue.map entered).filter (·.requestId ≠ r) := by
  rw [List.filter_map]
  rfl

/-- The keys of `_entries` without one. -/
theorem queued_filter {entries : List (RequestId × Nat)} (r : RequestId) :
    (entries.filter (·.1 ≠ r)).map (·.1) = (entries.map (·.1)).filter (· ≠ r) := by
  rw [List.filter_map]
  rfl

theorem cancel_watchInv (hw : WatchInv starvationSeconds w) (r : RequestId) :
    WatchInv starvationSeconds (watchStep w (.cancel r)) := by
  have hscheduler := cancel_inv hw.scheduler r
  simp only [watchStep]
  cases hlookup : w.scheduler.entries.lookup r with
  | none =>
    have hcancel : w.scheduler.cancel r = (false, w.scheduler) := by
      unfold PriorityScheduler.cancel
      rw [hlookup]
    rw [hcancel]
    exact hw
  | some q =>
    have hcancel : w.scheduler.cancel r = (true, { w.scheduler with
        entries := w.scheduler.entries.filter (·.1 ≠ r)
        interactive := markCancelled q w.scheduler.interactive
        background := markCancelled q w.scheduler.background
        cancelled := w.scheduler.cancelled + 1 }) := by
      unfold PriorityScheduler.cancel
      rw [hlookup]
    rw [hcancel] at hscheduler ⊢
    rw [if_pos rfl]
    have hkey := mem_of_lookup hlookup
    have hr : r ∈ w.scheduler.queued := List.mem_map.mpr ⟨_, hkey, rfl⟩
    obtain ⟨hleft, hentered, hothers⟩ :=
      @move_books _ r .queued .cancelled (by simp) _ _ hw.queued hw.scheduler.keys hr
    have hgrown := hentered.length_eq
    simp only [List.length_map, List.length_cons] at hgrown
    have hmem : ∀ e, e ∈ w.scheduler.interactive ∨ e ∈ w.scheduler.background →
        e.cancelled = false → (e.sequence = q ↔ e.requestId = r) := by
      intro e he
      exact sequence_iff hw.scheduler hkey (List.mem_append.mpr he)
    constructor
    · exact hscheduler
    · exact hw.starvation
    · rw [map_move_numbers, List.length_map]
      exact hw.numbers
    · show w.scheduler.sequence = (w.requests.map _).length
      rw [List.length_map]
      exact hw.sequence
    · show ((w.scheduler.entries.filter (·.1 ≠ r)).map (·.1)).Perm _
      rw [queued_filter]
      exact hleft
    · show w.scheduler.active.Perm _
      rw [hothers _ (by simp) (by simp)]
      exact hw.active
    · show (live (markCancelled q w.scheduler.interactive)).map entered = _
      rw [live_markCancelled fun e he => hmem e (Or.inl he), entered_filter, hw.interactive]
      exact (queuedOf_move (by simp) _ _).symm
    · show (live (markCancelled q w.scheduler.background)).map entered = _
      rw [live_markCancelled fun e he => hmem e (Or.inr he), entered_filter, hw.background]
      exact (queuedOf_move (by simp) _ _).symm
    · show w.scheduler.completed = _
      rw [hothers _ (by simp) (by simp)]
      exact hw.completed
    · show w.scheduler.failed = _
      rw [hothers _ (by simp) (by simp)]
      exact hw.failed
    · show w.scheduler.cancelled + 1 = _
      rw [hw.cancelled, hgrown]
    · exact hw.lastRelief
    · exact hw.reliefsApart
    · intro d hd
      exact known_move (Or.inl rfl) (hw.known d hd)
    · exact hw.ordered
    · intro d hd y hy hyq hyp
      exact hw.ahead d hd y (mem_of_queued (by simp) hy hyq).1 hyq hyp

/-! ## A dispatch -/

/-- One request of an id is queued at a time. -/
theorem WatchInv.queued_unique (hw : WatchInv starvationSeconds w) {x : Request α}
    (hx : x ∈ w.requests) (hxq : x.status = .queued) (hy : y ∈ w.requests)
    (hyq : y.status = .queued) (hid : x.requestId = y.requestId) : x = y := by
  have hnodup := hw.queued.nodup_iff.mp hw.scheduler.keys
  exact List.inj_on_of_nodup_map hnodup (mem_withStatus.mpr ⟨hx, hxq⟩)
    (mem_withStatus.mpr ⟨hy, hyq⟩) hid

/-- The observer finds the request that was served. -/
theorem dispatched_eq (hw : WatchInv starvationSeconds w) {x : Request α} (hx : x ∈ w.requests)
    (hxq : x.status = .queued) (now : Int) :
    dispatched w ⟨x.requestId, x.payload, x.priority, x.enqueuedAt⟩ now =
      [⟨x.number, x.priority, now, decide (x.priority = .background) && overdue w now⟩] := by
  unfold dispatched
  have hfind : w.requests.find? (fun y => y.requestId = x.requestId ∧ y.status = .queued) =
      some x := by
    have hsome : (w.requests.find? fun y =>
        y.requestId = x.requestId ∧ y.status = .queued).isSome = true := by
      rw [List.find?_isSome]
      exact ⟨x, hx, by simp [hxq]⟩
    obtain ⟨y, hy⟩ := Option.isSome_iff_exists.mp hsome
    have hprop := List.find?_some hy
    rw [decide_eq_true_eq] at hprop
    rw [hy, hw.queued_unique (List.mem_of_find?_eq_some hy) hprop.2 hx hxq hprop.1]
  rw [hfind]

/-- The observer's clock agrees with the scheduler's. -/
theorem overdue_eq (hw : WatchInv starvationSeconds w) {rest : List (Request α)}
    (h : queuedOf .background w.requests = entered e :: rest) (now : Int) :
    overdue w now = starved w.scheduler e now := by
  unfold overdue starved
  rw [h, hw.lastRelief]
  rfl

/-- Requests of other ids stay queued. -/
theorem filter_others (hw : WatchInv starvationSeconds w) {x : Request α} (hx : x ∈ w.requests)
    (hxq : x.status = .queued) {others : List (Request α)}
    (hothers : ∀ y ∈ others, y ∈ w.requests ∧ y.status = .queued ∧ y ≠ x) :
    others.filter (·.requestId ≠ x.requestId) = others := by
  rw [List.filter_eq_self]
  intro y hy
  obtain ⟨hin, hyq, hne⟩ := hothers y hy
  rw [decide_eq_true_eq]
  intro hid
  exact hne (hw.queued_unique hin hyq hx hxq hid)

section Head

variable {p : Priority} {x : Request α} {rest : List (Request α)}

theorem head_mem (hhead : queuedOf p w.requests = x :: rest) :
    x ∈ w.requests ∧ x.status = .queued ∧ x.priority = p := by
  apply mem_queuedOf.mp
  rw [hhead]
  exact List.mem_cons_self

/-- The class that is served loses its head. -/
theorem filter_head (hw : WatchInv starvationSeconds w)
    (hhead : queuedOf p w.requests = x :: rest) :
    (queuedOf p w.requests).filter (·.requestId ≠ x.requestId) = rest := by
  obtain ⟨hx, hxq, -⟩ := head_mem hhead
  have hsorted := queuedOf_sorted hw.numbers p
  rw [hhead] at hsorted ⊢
  rw [List.map_cons, List.pairwise_cons] at hsorted
  rw [List.filter_cons_of_neg (by simp)]
  refine filter_others hw hx hxq fun y hy => ?_
  have hyin : y ∈ queuedOf p w.requests := by
    rw [hhead]
    exact List.mem_cons_of_mem x hy
  obtain ⟨hyin, hyq, -⟩ := mem_queuedOf.mp hyin
  refine ⟨hyin, hyq, ?_⟩
  rintro rfl
  exact absurd (hsorted.1 _ (List.mem_map.mpr ⟨y, hy, rfl⟩)) (lt_irrefl _)

/-- The other class stays. -/
theorem filter_other_class (hw : WatchInv starvationSeconds w)
    (hhead : queuedOf p w.requests = x :: rest) {q : Priority} (hq : q ≠ p) :
    (queuedOf q w.requests).filter (·.requestId ≠ x.requestId) = queuedOf q w.requests := by
  obtain ⟨hx, hxq, hxp⟩ := head_mem hhead
  refine filter_others hw hx hxq fun y hy => ?_
  obtain ⟨hyin, hyq, hyp⟩ := mem_queuedOf.mp hy
  refine ⟨hyin, hyq, ?_⟩
  rintro rfl
  exact hq (hyp.symm.trans hxp)

end Head

/-- A relief is far from every relief before it, not only from the last. -/
theorem reliefs_append (hpos : 0 < starvationSeconds) {times : List Int}
    (h : times.Pairwise fun t u => starvationSeconds ≤ u - t)
    (hlast : ∀ last, times.getLast? = some last → starvationSeconds ≤ now - last) :
    (times ++ [now]).Pairwise fun t u => starvationSeconds ≤ u - t := by
  rw [List.pairwise_append]
  refine ⟨h, List.pairwise_singleton _ _, ?_⟩
  intro t ht u hu
  rw [List.mem_singleton.mp hu]
  rcases List.eq_nil_or_concat times with rfl | ⟨before, last, rfl⟩
  · exact absurd ht (by simp)
  · rw [List.concat_eq_append] at h hlast ht
    have hgap := hlast last (by simp)
    rcases List.mem_append.mp ht with ht | ht
    · -- before the last one: the last one is already far away
      have hbefore := (List.pairwise_append.mp h).2.2 t ht last (by simp)
      omega
    · rw [List.mem_singleton.mp ht]
      exact hgap

theorem reliefs_snoc (dispatches : List Dispatch) (d : Dispatch) :
    reliefs (dispatches ++ [d]) =
      if d.relief then reliefs dispatches ++ [d.time] else reliefs dispatches := by
  unfold reliefs
  rw [List.filter_append, List.map_append]
  cases hd : d.relief <;> simp [hd]

/-- A dispatch keeps the record in step with the scheduler, given what it does to the queues and the
reliefs. -/
theorem dispatch_watchInv (hw : WatchInv starvationSeconds w) {flag : Bool} {p : Priority}
    {rest : List (Request α)} (hscheduler : SchedulerInv s) (hkept : Kept w.scheduler s)
    (hentries : s.entries = w.scheduler.entries.filter (·.1 ≠ e.requestId))
    (hactive : s.active = e.requestId :: w.scheduler.active)
    (hhead : queuedOf p w.requests = entered e :: rest)
    (hinteractive : (live s.interactive).map entered =
      (queuedOf .interactive w.requests).filter (·.requestId ≠ e.requestId))
    (hbackground : (live s.background).map entered =
      (queuedOf .background w.requests).filter (·.requestId ≠ e.requestId))
    (hlast : s.lastBackgroundRelief =
      (reliefs (w.dispatches ++ [⟨e.sequence, e.priority, now, flag⟩])).getLast?)
    (hapart : (reliefs (w.dispatches ++ [⟨e.sequence, e.priority, now, flag⟩])).Pairwise
      fun t u => starvationSeconds ≤ u - t) :
    WatchInv starvationSeconds ⟨s, w.requests.map (move e.requestId .queued .active),
      w.dispatches ++ [⟨e.sequence, e.priority, now, flag⟩]⟩ := by
  obtain ⟨hx, hxq, hxp⟩ := head_mem hhead
  have hr : e.requestId ∈ w.scheduler.queued :=
    hw.queued.mem_iff.mpr (List.mem_map.mpr ⟨_, mem_withStatus.mpr ⟨hx, hxq⟩, rfl⟩)
  obtain ⟨hleft, hentered, hothers⟩ :=
    @move_books _ e.requestId .queued .active (by simp) _ _ hw.queued hw.scheduler.keys hr
  constructor
  · exact hscheduler
  · exact hkept.starvation.trans hw.starvation
  · rw [map_move_numbers, List.length_map]
    exact hw.numbers
  · rw [List.length_map]
    exact hkept.sequence.trans hw.sequence
  · show (s.entries.map (·.1)).Perm _
    rw [hentries, queued_filter]
    exact hleft
  · rw [hactive]
    exact (hw.active.cons _).trans hentered.symm
  · rw [queuedOf_move (by simp)]
    exact hinteractive
  · rw [queuedOf_move (by simp)]
    exact hbackground
  · rw [hothers _ (by simp) (by simp)]
    exact hkept.completed.trans hw.completed
  · rw [hothers _ (by simp) (by simp)]
    exact hkept.failed.trans hw.failed
  · rw [hothers _ (by simp) (by simp)]
    exact hkept.cancelled.trans hw.cancelled
  · exact hlast
  · exact hapart
  · intro d hd
    rcases List.mem_append.mp hd with hd | hd
    · exact known_move (Or.inl rfl) (hw.known d hd)
    · rw [List.mem_singleton.mp hd]
      have hmove : move e.requestId .queued .active (entered e) =
          { entered e with status := .active } := by
        unfold move
        rw [if_pos ⟨rfl, rfl⟩]
      refine ⟨_, List.mem_map.mpr ⟨_, hx, hmove⟩, rfl, rfl, by simp, by simp⟩
  · intro q
    rw [List.filter_append, List.map_append]
    by_cases hq : e.priority = q
    · rw [List.filter_cons_of_pos (by simpa using hq)]
      refine List.pairwise_append.mpr ⟨hw.ordered q, by simp, ?_⟩
      intro number hnumber later hlater
      obtain ⟨d, hd, rfl⟩ := List.mem_map.mp hnumber
      obtain ⟨hd, hdq⟩ := List.mem_filter.mp hd
      have hahead := hw.ahead d hd (entered e) hx hxq (hq.trans (of_decide_eq_true hdq).symm)
      rw [List.filter_nil, List.map_singleton, List.mem_singleton] at hlater
      rw [hlater]
      exact hahead
    · rw [List.filter_cons_of_neg (by simpa using hq)]
      simpa using hw.ordered q
  · intro d hd y hy hyq hyp
    obtain ⟨hyin, hyid⟩ := mem_of_queued (by simp) hy hyq
    rcases List.mem_append.mp hd with hd | hd
    · exact hw.ahead d hd y hyin hyq hyp
    · rw [List.mem_singleton.mp hd] at hyp ⊢
      have hyc : y ∈ queuedOf p w.requests := mem_queuedOf.mpr ⟨hyin, hyq, hyp.trans hxp⟩
      rcases le_of_head hw.numbers hhead hyc with rfl | hlt
      · exact absurd ⟨rfl, rfl⟩ hyid
      · exact hlt

theorem next_watchInv (hpos : 0 < starvationSeconds) (hw : WatchInv starvationSeconds w)
    (now : Int) : WatchInv starvationSeconds (watchStep w (.next now)) := by
  obtain ⟨hscheduler, -⟩ := next_inv hw.scheduler now
  obtain ⟨hkept, hcases⟩ := next_cases w.scheduler now
  simp only [watchStep]
  rcases hcases with ⟨hnone, hli, hlb, hli', hlb', hqueued, hactive, hlast⟩ |
    ⟨e, hitem, hserves, hentries, hactive⟩
  · rw [hnone]
    have hi := hw.interactive
    have hb := hw.background
    rw [hli] at hi
    rw [hlb] at hb
    constructor
    · exact hscheduler
    · exact hkept.starvation.trans hw.starvation
    · exact hw.numbers
    · exact hkept.sequence.trans hw.sequence
    · show (w.scheduler.next now).2.queued.Perm _
      rw [hqueued]
      exact hw.queued
    · show (w.scheduler.next now).2.active.Perm _
      rw [hactive]
      exact hw.active
    · show (live (w.scheduler.next now).2.interactive).map entered = _
      rw [hli']
      exact hi
    · show (live (w.scheduler.next now).2.background).map entered = _
      rw [hlb']
      exact hb
    · exact hkept.completed.trans hw.completed
    · exact hkept.failed.trans hw.failed
    · exact hkept.cancelled.trans hw.cancelled
    · exact hlast.trans hw.lastRelief
    · exact hw.reliefsApart
    · exact hw.known
    · exact hw.ordered
    · exact hw.ahead
  · rw [hitem]
    -- what the observer enters, once the class of the entry is known
    have henter : ∀ p rest, queuedOf p w.requests = entered e :: rest →
        dispatched w ⟨e.requestId, e.payload, e.priority, e.enqueuedAt⟩ now =
          [⟨e.sequence, e.priority, now, decide (e.priority = .background) && overdue w now⟩] ∧
        e.priority = p := by
      intro p rest hhead
      obtain ⟨hx, hxq, hxp⟩ := head_mem hhead
      exact ⟨dispatched_eq hw hx hxq now, hxp⟩
    cases hserves with
    | relief queue other due last =>
      have hhead : queuedOf .background w.requests =
          entered e :: (live (w.scheduler.next now).2.background).map entered := by
        rw [← hw.background, queue]
        rfl
      obtain ⟨henter, hclass⟩ := henter _ _ hhead
      have hflag : (decide (e.priority = .background) && overdue w now) = true := by
        rw [overdue_eq hw hhead, due, hclass]
        rfl
      show WatchInv _ ⟨_, _, w.dispatches ++ dispatched w _ now⟩
      rw [henter, hflag]
      refine dispatch_watchInv hw hscheduler hkept hentries hactive hhead ?_ ?_ ?_ ?_
      · rw [other, hw.interactive]
        exact (filter_other_class hw hhead (by simp)).symm
      · exact (filter_head hw hhead).symm
      · rw [reliefs_snoc, if_pos rfl, last]
        simp
      · rw [reliefs_snoc, if_pos rfl]
        refine reliefs_append hpos hw.reliefsApart fun t ht => ?_
        unfold starved at due
        rw [hw.lastRelief, ht, decide_eq_true_eq, hw.starvation] at due
        have hdue : starvationSeconds ≤ now - max e.enqueuedAt t := due
        exact Int.le_trans hdue (Int.sub_le_sub_left (Int.le_max_right e.enqueuedAt t) now)
    | interactive queue other notDue last =>
      have hhead : queuedOf .interactive w.requests =
          entered e :: (live (w.scheduler.next now).2.interactive).map entered := by
        rw [← hw.interactive, queue]
        rfl
      obtain ⟨henter, hclass⟩ := henter _ _ hhead
      have hflag : (decide (e.priority = .background) && overdue w now) = false := by
        rw [hclass]
        rfl
      show WatchInv _ ⟨_, _, w.dispatches ++ dispatched w _ now⟩
      rw [henter, hflag]
      refine dispatch_watchInv hw hscheduler hkept hentries hactive hhead ?_ ?_ ?_ ?_
      · exact (filter_head hw hhead).symm
      · rw [other, hw.background]
        exact (filter_other_class hw hhead (by simp)).symm
      · rw [reliefs_snoc, if_neg (by simp), last]
        exact hw.lastRelief
      · rw [reliefs_snoc, if_neg (by simp)]
        exact hw.reliefsApart
    | background queue other none notDue last =>
      have hhead : queuedOf .background w.requests =
          entered e :: (live (w.scheduler.next now).2.background).map entered := by
        rw [← hw.background, queue]
        rfl
      obtain ⟨henter, hclass⟩ := henter _ _ hhead
      have hflag : (decide (e.priority = .background) && overdue w now) = false := by
        rw [overdue_eq hw hhead, notDue, Bool.and_false]
      show WatchInv _ ⟨_, _, w.dispatches ++ dispatched w _ now⟩
      rw [henter, hflag]
      refine dispatch_watchInv hw hscheduler hkept hentries hactive hhead ?_ ?_ ?_ ?_
      · rw [other, hw.interactive]
        exact (filter_other_class hw hhead (by simp)).symm
      · exact (filter_head hw hhead).symm
      · rw [reliefs_snoc, if_neg (by simp), last]
        exact hw.lastRelief
      · rw [reliefs_snoc, if_neg (by simp)]
        exact hw.reliefsApart

theorem watchStep_inv (hpos : 0 < starvationSeconds) (w : Watch α) (call : SchedulerCall α)
    (hw : WatchInv starvationSeconds w) : WatchInv starvationSeconds (watchStep w call) := by
  cases call with
  | enqueue r payload priority now =>
    cases h : w.scheduler.enqueue r payload priority now with
    | error message =>
      simp only [watchStep, h]
      exact hw
    | ok s =>
      simp only [watchStep, h]
      exact enqueue_watchInv hw h
  | next now => exact next_watchInv hpos hw now
  | cancel r => exact cancel_watchInv hw r
  | finish r failed =>
    cases h : w.scheduler.finish r failed with
    | error message =>
      simp only [watchStep, h]
      exact hw
    | ok s =>
      simp only [watchStep, h]
      exact finish_watchInv hw h

/-! ## Runs -/

/-- What a round of `next` at this time may answer: nothing when nothing is queued, and otherwise
the oldest queued request of its class, which is an interactive one if there is any and the
background class is not owed its turn. -/
def Chooses (w : Watch α) (now : Int) : Option (ScheduledItem α) → Prop
  | none => ∀ x ∈ w.requests, x.status ≠ .queued
  | some item => ∃ x ∈ w.requests, x.status = .queued ∧
      item = ⟨x.requestId, x.payload, x.priority, x.enqueuedAt⟩ ∧
      (∀ y ∈ w.requests, y.status = .queued → y.priority = x.priority → x.number ≤ y.number) ∧
      (overdue w now = false → (∃ y ∈ w.requests, y.status = .queued ∧ y.priority = .interactive) →
        x.priority = .interactive)

theorem next_chooses (hw : WatchInv starvationSeconds w) (now : Int) :
    Chooses w now (w.scheduler.next now).1 := by
  obtain ⟨-, hcases⟩ := next_cases w.scheduler now
  have hi := hw.interactive
  have hb := hw.background
  rcases hcases with ⟨hnone, hli, hlb, -⟩ | ⟨e, hitem, hserves, -⟩
  · rw [hnone]
    rw [hli] at hi
    rw [hlb] at hb
    intro x hx hxq
    cases hp : x.priority with
    | interactive =>
      have hin := mem_queuedOf.mpr ⟨hx, hxq, hp⟩
      rw [← hi] at hin
      exact absurd hin (by simp)
    | background =>
      have hin := mem_queuedOf.mpr ⟨hx, hxq, hp⟩
      rw [← hb] at hin
      exact absurd hin (by simp)
  · rw [hitem]
    have hchoose : ∀ p rest, queuedOf p w.requests = entered e :: rest →
        (overdue w now = false →
          (∃ y ∈ w.requests, y.status = .queued ∧ y.priority = .interactive) →
          p = .interactive) →
        Chooses w now (some ⟨e.requestId, e.payload, e.priority, e.enqueuedAt⟩) := by
      intro p rest hhead hclass
      obtain ⟨hx, hxq, hxp⟩ := head_mem hhead
      refine ⟨entered e, hx, hxq, rfl, ?_, fun hdue hsome => hxp.trans (hclass hdue hsome)⟩
      intro y hy hyq hyp
      rcases le_of_head hw.numbers hhead (mem_queuedOf.mpr ⟨hy, hyq, hyp.trans hxp⟩) with rfl | hlt
      · exact Nat.le_refl _
      · exact Nat.le_of_lt hlt
    cases hserves with
    | relief queue other due last =>
      rw [queue] at hb
      refine hchoose .background _ hb.symm fun hdue _ => ?_
      rw [overdue_eq hw hb.symm, due] at hdue
      exact absurd hdue (by simp)
    | interactive queue other notDue last =>
      rw [queue] at hi
      exact hchoose .interactive _ hi.symm fun _ _ => rfl
    | background queue other none notDue last =>
      rw [queue] at hb
      rw [none] at hi
      refine hchoose .background _ hb.symm fun _ hsome => ?_
      obtain ⟨y, hy, hyq, hyp⟩ := hsome
      have hin := mem_queuedOf.mpr ⟨hy, hyq, hyp⟩
      rw [← hi] at hin
      exact absurd hin (by simp)

/-- Two dispatches of one request would be in one class, which is served in order. -/
theorem numbers_nodup {dispatches : List Dispatch}
    (hclass : ∀ d ∈ dispatches, ∀ d' ∈ dispatches, d.number = d'.number → d.priority = d'.priority)
    (h : ∀ p, ((dispatches.filter (·.priority = p)).map (·.number)).Pairwise (· < ·)) :
    (dispatches.map (·.number)).Nodup := by
  induction dispatches with
  | nil => exact List.nodup_nil
  | cons d dispatches ih =>
    rw [List.map_cons, List.nodup_cons]
    constructor
    · intro hin
      obtain ⟨d', hd', heq⟩ := List.mem_map.mp hin
      have hsame := hclass d List.mem_cons_self d' (List.mem_cons_of_mem d hd') heq.symm
      have hordered := h d.priority
      rw [List.filter_cons_of_pos (by simp), List.map_cons, List.pairwise_cons] at hordered
      have hlt := hordered.1 d'.number
        (List.mem_map.mpr ⟨d', List.mem_filter.mpr ⟨hd', by simpa using hsame.symm⟩, rfl⟩)
      omega
    · refine ih (fun a ha b hb => hclass a (List.mem_cons_of_mem d ha) b
        (List.mem_cons_of_mem d hb)) fun p => ?_
      refine List.Pairwise.sublist (List.Sublist.map _ ?_) (h p)
      exact List.Sublist.filter _ (List.sublist_cons_self d dispatches)

theorem WatchInv.nodup (hw : WatchInv starvationSeconds w) :
    (w.dispatches.map (·.number)).Nodup := by
  refine numbers_nodup (fun d hd d' hd' heq => ?_) hw.ordered
  obtain ⟨x, hx, hxn, hxp, -⟩ := hw.known d hd
  obtain ⟨y, hy, hyn, hyp, -⟩ := hw.known d' hd'
  have hnodup : (w.requests.map (·.number)).Nodup := by
    rw [hw.numbers]
    exact List.nodup_range
  have hsame := List.inj_on_of_nodup_map hnodup hx hy (hxn.trans (heq.trans hyn.symm))
  rw [← hxp, ← hyp, hsame]

/-- The counters of the scheduler are numbers of requests. -/
theorem WatchInv.balanced (hw : WatchInv starvationSeconds w) (now : Int) :
    w.requests.length = (metrics w.scheduler now).queuedInteractive +
      (metrics w.scheduler now).queuedBackground + (metrics w.scheduler now).active +
      (metrics w.scheduler now).completed + (metrics w.scheduler now).failed +
      (metrics w.scheduler now).cancelled := by
  have hi := congrArg List.length hw.interactive
  have hb := congrArg List.length hw.background
  have ha := hw.active.length_eq
  rw [List.length_map] at hi hb ha
  show w.requests.length = (live w.scheduler.interactive).length +
    (live w.scheduler.background).length + w.scheduler.active.length + w.scheduler.completed +
    w.scheduler.failed + w.scheduler.cancelled
  rw [hi, hb, ha, hw.completed, hw.failed, hw.cancelled]
  exact length_eq_statuses w.requests

end Steps

/-- In every run, with requests numbered as they were enqueued: the next item is the oldest queued
request of its class, interactive before background except for a relief; every request is
dispatched at most once, and only if it was not cancelled; each class is dispatched in order; reliefs
are apart; and the numbers balance. -/
theorem watch_run {starvationSeconds : Int} {s : PriorityScheduler α}
    (h : initScheduler α starvationSeconds = .ok s) (calls : List (SchedulerCall α)) :
    (∀ now, Chooses (run watchStep (Watch.new s) calls) now
      ((run watchStep (Watch.new s) calls).scheduler.next now).1) ∧
    (run watchStep (Watch.new s) calls).requests.map (·.number) =
      List.range (run watchStep (Watch.new s) calls).requests.length ∧
    ((run watchStep (Watch.new s) calls).dispatches.map (·.number)).Nodup ∧
    (∀ d ∈ (run watchStep (Watch.new s) calls).dispatches,
      ∃ x ∈ (run watchStep (Watch.new s) calls).requests, x.number = d.number ∧
        x.priority = d.priority ∧ x.status ≠ .queued ∧ x.status ≠ .cancelled) ∧
    (∀ p, (((run watchStep (Watch.new s) calls).dispatches.filter (·.priority = p)).map
      (·.number)).Pairwise (· < ·)) ∧
    ((reliefs (run watchStep (Watch.new s) calls).dispatches).Pairwise
      fun t u => starvationSeconds ≤ u - t) ∧
    ∀ now, (run watchStep (Watch.new s) calls).requests.length =
      (metrics (run watchStep (Watch.new s) calls).scheduler now).queuedInteractive +
      (metrics (run watchStep (Watch.new s) calls).scheduler now).queuedBackground +
      (metrics (run watchStep (Watch.new s) calls).scheduler now).active +
      (metrics (run watchStep (Watch.new s) calls).scheduler now).completed +
      (metrics (run watchStep (Watch.new s) calls).scheduler now).failed +
      (metrics (run watchStep (Watch.new s) calls).scheduler now).cancelled := by
  obtain ⟨hpos, hnew⟩ := watchInv_new h
  have hw := run_inv_of_step (WatchInv starvationSeconds)
    (fun w call hw => watchStep_inv hpos w call hw) calls hnew
  exact ⟨next_chooses hw, hw.numbers, hw.nodup, hw.known, hw.ordered, hw.reliefsApart, hw.balanced⟩

/-- Calls in which a background request is overtaken once and then owed its turn, and an id is
enqueued again after it was cancelled. -/
def overtaken : List (SchedulerCall String) :=
  [.enqueue "b" "index" .background 0, .enqueue "a" "old" .interactive 1, .cancel "a",
    .enqueue "a" "new" .interactive 2, .next 3, .enqueue "c" "ask" .interactive 4, .next 61, .next 62]

theorem watch_run_relieved :
    ((run watchStep (Watch.new (PriorityScheduler.new String 60)) overtaken).dispatches.map
      (·.number)).Nodup ∧
    (run watchStep (Watch.new (PriorityScheduler.new String 60)) overtaken).dispatches.map
      (·.number) = [2, 0, 3] :=
  have hinit : initScheduler String 60 = .ok (PriorityScheduler.new String 60) := rfl
  ⟨(watch_run hinit overtaken).2.2.1, by decide +kernel⟩

end LocalRag.Runtime.History
