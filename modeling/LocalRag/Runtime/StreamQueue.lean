import LocalRag.Core.Run

/-!
# The stream queue — what a reader is left with

The life of one request of `CoordinatorRuntime.stream`: the queue of 64 items it
reads, and the execution that fills it (`_execute_stream`, `_put_stream_failure`,
and `cancel` while the request is queued). A step is what happens between two
awaits, on one side or the other: the adapter yields, ends or raises, a cancellation
arrives at an await, a blocked `put` finds room, the reader takes an item.

The adapter may do anything at all, also go on after a cancellation was thrown into
it, so its events come in any order; so does the reader.

The end of the stream is an item: `_STREAM_DONE`, whose `put` waits for room, or a
failure, whose `put_nowait` does not. `terminal_always_iff`: every finished
execution has left a terminal item last exactly if no failure came while the
queue was full, and the task was not cancelled before its first step.
-/

namespace LocalRag.Runtime

open LocalRag.Core

variable {χ ε : Type}

/-- What `_StreamFailure` carries: a cancellation, the complaint about an invalid
result, or the adapter's error. -/
inductive FailureCause (ε : Type) where
  | cancelled
  | invalidResult
  | adapter (error : ε)

/-- What is put on the queue. -/
inductive Item (χ ε : Type) where
  | chunk (chunk : χ)
  | done
  | failure (cause : FailureCause ε)

/-- `_STREAM_DONE` or a `_StreamFailure`. -/
def Item.terminal : Item χ ε → Bool
  | .chunk _ => false
  | .done | .failure _ => true

/-- Where the execution stands. -/
inductive Producer (χ ε : Type) where
  /-- In the scheduler's queue. -/
  | queued
  /-- The task exists and has not been stepped. -/
  | created (mustCancel : Bool)
  /-- Waits for the stage limit. -/
  | acquiring
  /-- Waits for the adapter's next chunk. -/
  | receiving
  /-- Waits for room on the queue. -/
  | putting (item : Item χ ε)
  | finished

structure StreamTransfer (χ ε : Type) where
  queue : List (Item χ ε)
  read : List (Item χ ε)
  cancellation : Bool
  producer : Producer χ ε

/-- `asyncio.Queue(maxsize=64)`. -/
def maxsize : Nat := 64

/-- A request just accepted. -/
def StreamTransfer.start (χ ε : Type) : StreamTransfer χ ε where
  queue := []
  read := []
  cancellation := false
  producer := .queued

inductive StreamEvent (χ ε : Type) where
  /-- The dispatcher makes the task. -/
  | dispatch
  /-- `CoordinatorRuntime.cancel`. -/
  | cancel
  /-- The first step of the task. -/
  | start
  /-- The stage is free. -/
  | acquired
  /-- The `CancelledError` arrives at the await. -/
  | delivered
  /-- The adapter yields: a chunk, or something that is none. -/
  | chunk (chunk : Option χ)
  /-- The adapter's iteration ends. -/
  | ended
  /-- The adapter raises. -/
  | raised (error : ε)
  /-- The blocked `put` goes on. -/
  | room
  /-- The reader takes an item. -/
  | read

namespace StreamTransfer

/-- Everything put on the queue, in order. -/
def put (s : StreamTransfer χ ε) : List (Item χ ε) := s.read ++ s.queue

/-- After the blocked or unblocked `put` of an item: the next chunk, or the end. -/
def afterPut : Item χ ε → Producer χ ε
  | .done => .finished
  | _ => .receiving

/-- `await queue.put(item)`. -/
def putItem (s : StreamTransfer χ ε) (item : Item χ ε) : StreamTransfer χ ε :=
  if s.queue.length < maxsize then
    { s with queue := s.queue ++ [item], producer := afterPut item }
  else { s with producer := .putting item }

/-- An exception in the body: `_put_stream_failure`, then the `finally`. -/
def fail (s : StreamTransfer χ ε) (cause : FailureCause ε) : StreamTransfer χ ε :=
  { s with
    queue := if s.queue.length < maxsize then s.queue ++ [.failure cause] else s.queue
    producer := .finished }

end StreamTransfer

open StreamTransfer

def streamStep (s : StreamTransfer χ ε) (e : StreamEvent χ ε) : StreamTransfer χ ε :=
  match s.producer, e with
  | .queued, .dispatch => { s with producer := .created false }
  | .queued, .cancel =>
    { s with
      cancellation := true, queue := s.queue ++ [.failure .cancelled], producer := .finished }
  | .created _, .cancel => { s with cancellation := true, producer := .created true }
  | .acquiring, .cancel | .receiving, .cancel | .putting _, .cancel =>
    { s with cancellation := true }
  | .created mustCancel, .start =>
    { s with producer := if mustCancel then .finished else .acquiring }
  | .acquiring, .acquired => { s with producer := .receiving }
  | .acquiring, .delivered | .receiving, .delivered | .putting _, .delivered =>
    s.fail .cancelled
  | .receiving, .chunk chunk =>
    if s.cancellation then s.fail .cancelled
    else
      match chunk with
      | none => s.fail .invalidResult
      | some chunk => s.putItem (.chunk chunk)
  | .receiving, .ended => s.putItem .done
  | .receiving, .raised error => s.fail (.adapter error)
  | .putting item, .room =>
    if s.queue.length < maxsize then
      { s with queue := s.queue ++ [item], producer := afterPut item }
    else s
  | _, .read =>
    match s.queue with
    | [] => s
    | item :: queue => { s with queue := queue, read := s.read ++ [item] }
  | _, _ => s

/-! ## The terminal item -/

/-- Once the execution has finished, the last item it put is a terminal one. -/
def TerminalLast (s : StreamTransfer χ ε) : Prop :=
  match s.producer with
  | .finished => s.put.getLast?.any Item.terminal = true
  | _ => True

instance decidableTerminalLast (s : StreamTransfer χ ε) : Decidable (TerminalLast s) :=
  match h : s.producer with
  | .finished => decidable_of_iff (s.put.getLast?.any Item.terminal = true) (by
      unfold TerminalLast
      rw [h])
  | .queued | .created _ | .acquiring | .receiving | .putting _ => isTrue (by
      unfold TerminalLast
      rw [h]
      trivial)

/-- The event is an exception inside the body. -/
def fails (s : StreamTransfer χ ε) (e : StreamEvent χ ε) : Bool :=
  match s.producer, e with
  | .acquiring, .delivered | .receiving, .delivered | .putting _, .delivered => true
  | .receiving, .chunk chunk => s.cancellation || chunk.isNone
  | .receiving, .raised _ => true
  | _, _ => false

/-- The event is the first step of a task that was cancelled before. -/
def neverEnters (s : StreamTransfer χ ε) (e : StreamEvent χ ε) : Bool :=
  match s.producer, e with
  | .created true, .start => true
  | _, _ => false

/-- A failure finds room on the queue, and the task enters its body. -/
def endsHeard (s : StreamTransfer χ ε) (e : StreamEvent χ ε) : Prop :=
  (fails s e = true → s.queue.length < maxsize) ∧ neverEnters s e = false

/-- What holds until the end: no terminal item was put, and a blocked `put` is of a chunk or
of the end. -/
structure TransferInv (s : StreamTransfer χ ε) : Prop where
  terminal : TerminalLast s
  chunks : (∀ i ∈ s.put, i.terminal = false) ∨ s.producer = .finished
  blocked : ∀ cause, s.producer ≠ .putting (.failure cause)

theorem transferInv_start : TransferInv (StreamTransfer.start χ ε) where
  terminal := trivial
  chunks := Or.inl (by simp [StreamTransfer.start, put])
  blocked := by simp [StreamTransfer.start]

variable {s : StreamTransfer χ ε}

/-- The two sides of a result: nothing was put that ends the stream, and the execution goes
on. -/
theorem TransferInv.running (hne : s.producer ≠ .finished)
    (hchunks : ∀ i ∈ s.put, i.terminal = false)
    (hblocked : ∀ cause, s.producer ≠ .putting (.failure cause)) : TransferInv s := by
  refine ⟨?_, Or.inl hchunks, hblocked⟩
  unfold TerminalLast
  split
  next h => exact absurd h hne
  next => trivial

/-- Finished, with the terminal item last. -/
theorem TransferInv.ended (hfin : s.producer = .finished) {before : List (Item χ ε)}
    {last : Item χ ε} (hput : s.put = before ++ [last]) (hlast : last.terminal = true) :
    TransferInv s := by
  refine ⟨?_, Or.inr hfin, by simp [hfin]⟩
  unfold TerminalLast
  rw [hfin, hput]
  simpa using hlast

theorem put_append (s : StreamTransfer χ ε) (item : Item χ ε) (p : Producer χ ε) :
    ({ s with queue := s.queue ++ [item], producer := p } : StreamTransfer χ ε).put
      = s.put ++ [item] := by
  unfold StreamTransfer.put
  rw [List.append_assoc]

variable {item : Item χ ε}

theorem appended_inv (hchunks : ∀ i ∈ s.put, i.terminal = false)
    (hitem : ∀ cause, item ≠ .failure cause) :
    TransferInv { s with queue := s.queue ++ [item], producer := afterPut item } := by
  cases item with
  | chunk c =>
    refine TransferInv.running (by simp [afterPut]) ?_ (by simp [afterPut])
    rw [put_append]
    intro i hi
    rcases List.mem_append.mp hi with hi | hi
    · exact hchunks i hi
    · rw [List.mem_singleton.mp hi]
      rfl
  | done => exact TransferInv.ended rfl (put_append s .done _) rfl
  | failure cause => exact absurd rfl (hitem cause)

theorem putItem_inv (hchunks : ∀ i ∈ s.put, i.terminal = false)
    (hitem : ∀ cause, item ≠ .failure cause) : TransferInv (s.putItem item) := by
  unfold putItem
  split
  next => exact appended_inv hchunks hitem
  next =>
    refine TransferInv.running (by simp) hchunks ?_
    intro cause h
    exact hitem cause (Producer.putting.inj h)

theorem fail_inv (cause : FailureCause ε) (hroom : s.queue.length < maxsize) :
    TransferInv (s.fail cause) := by
  unfold fail
  rw [if_pos hroom]
  exact TransferInv.ended rfl (put_append s (.failure cause) _) rfl

/-- The reader moves the boundary between what it has read and what it has not. -/
theorem read_inv (h : TransferInv s) {queue : List (Item χ ε)} (hq : s.queue = item :: queue) :
    TransferInv { s with queue := queue, read := s.read ++ [item] } := by
  have hput : ({ s with queue := queue, read := s.read ++ [item] } : StreamTransfer χ ε).put
      = s.put := by
    unfold StreamTransfer.put
    rw [hq, List.append_assoc]
    rfl
  refine ⟨?_, ?_, h.blocked⟩
  · have hterminal := h.terminal
    unfold TerminalLast at hterminal ⊢
    rw [hput]
    exact hterminal
  · rw [hput]
    exact h.chunks

/-- Before the end, only chunks were put. -/
theorem TransferInv.unended (h : TransferInv s) (hne : s.producer ≠ .finished) :
    ∀ i ∈ s.put, i.terminal = false :=
  h.chunks.resolve_right hne

variable {e : StreamEvent χ ε}

theorem streamStep_inv (h : TransferInv s) (hok : endsHeard s e) :
    TransferInv (streamStep s e) := by
  obtain ⟨hroom, henters⟩ := hok
  unfold streamStep
  split
  next hp => exact TransferInv.running (by simp) (h.unended (by simp [hp])) (by simp)
  next => exact TransferInv.ended rfl (put_append s (.failure .cancelled) .finished) rfl
  next hp => exact TransferInv.running (by simp) (h.unended (by simp [hp])) (by simp)
  next hp => exact TransferInv.running (by simp [hp]) (h.unended (by simp [hp])) h.blocked
  next hp => exact TransferInv.running (by simp [hp]) (h.unended (by simp [hp])) h.blocked
  next hp => exact TransferInv.running (by simp [hp]) (h.unended (by simp [hp])) h.blocked
  next mustCancel hp =>
    cases mustCancel with
    | true =>
      -- the task would end here without a word
      simp [neverEnters, hp] at henters
    | false => exact TransferInv.running (by simp) (h.unended (by simp [hp])) (by simp)
  next hp => exact TransferInv.running (by simp) (h.unended (by simp [hp])) (by simp)
  next hp => exact fail_inv .cancelled (hroom (by simp [fails, hp]))
  next hp => exact fail_inv .cancelled (hroom (by simp [fails, hp]))
  next hp => exact fail_inv .cancelled (hroom (by simp [fails, hp]))
  next chunk hp =>
    by_cases hcancel : s.cancellation = true
    · rw [if_pos hcancel]
      exact fail_inv .cancelled (hroom (by simp [fails, hp, hcancel]))
    · rw [if_neg hcancel]
      cases chunk with
      | none => exact fail_inv .invalidResult (hroom (by simp [fails, hp]))
      | some chunk => exact putItem_inv (h.unended (by simp [hp])) (by simp)
  next hp => exact putItem_inv (h.unended (by simp [hp])) (by simp)
  next hp => exact fail_inv _ (hroom (by simp [fails, hp]))
  next item hp =>
    split
    next =>
      refine appended_inv (h.unended (by simp [hp])) ?_
      intro cause hitem
      exact h.blocked cause (by rw [hp, hitem])
    next => exact h
  next =>
    split
    next => exact h
    next hq => exact read_inv h hq
  next => exact h

/-! ## What breaks it -/

theorem streamStep_fails (h : fails s e = true) :
    s.producer ≠ .finished ∧ ∃ cause, streamStep s e = s.fail cause := by
  unfold fails at h
  unfold streamStep
  split at h
  next hp => exact ⟨by simp [hp], .cancelled, by rw [hp]⟩
  next hp => exact ⟨by simp [hp], .cancelled, by rw [hp]⟩
  next hp => exact ⟨by simp [hp], .cancelled, by rw [hp]⟩
  next chunk hp =>
    refine ⟨by simp [hp], ?_⟩
    rw [hp]
    by_cases hcancel : s.cancellation = true
    · exact ⟨.cancelled, if_pos hcancel⟩
    · cases chunk with
      | none => exact ⟨.invalidResult, if_neg hcancel⟩
      | some chunk => simp [hcancel] at h
  next error hp => exact ⟨by simp [hp], .adapter error, by rw [hp]⟩
  next => exact absurd h (by simp)

theorem streamStep_neverEnters (h : neverEnters s e = true) :
    s.producer ≠ .finished ∧ streamStep s e = { s with producer := .finished } := by
  unfold neverEnters at h
  unfold streamStep
  split at h
  next hp =>
    refine ⟨by simp [hp], ?_⟩
    rw [hp]
    rfl
  next => exact absurd h (by simp)

/-- Finished with chunks alone on the queue. -/
theorem not_terminalLast (hfin : s.producer = .finished)
    (hchunks : ∀ i ∈ s.put, i.terminal = false) : ¬ TerminalLast s := by
  unfold TerminalLast
  rw [hfin]
  show ¬ (s.put.getLast?.any Item.terminal = true)
  cases hlast : s.put.getLast? with
  | none => simp
  | some i =>
    have hi := hchunks i (List.mem_of_getLast? hlast)
    simp [hi]

theorem streamStep_breaks (h : TransferInv s) (hok : ¬ endsHeard s e) :
    ¬ TerminalLast (streamStep s e) := by
  by_cases henters : neverEnters s e = true
  · obtain ⟨hne, heq⟩ := streamStep_neverEnters henters
    rw [heq]
    exact not_terminalLast rfl (h.unended hne)
  · have hfull : fails s e = true ∧ ¬ s.queue.length < maxsize := by
      unfold endsHeard at hok
      simpa [henters] using hok
    obtain ⟨hfails, hfull⟩ := hfull
    obtain ⟨hne, cause, heq⟩ := streamStep_fails hfails
    rw [heq]
    -- `put_nowait` raises `QueueFull`, which is passed over
    have hqueue : (s.fail cause).queue = s.queue := if_neg hfull
    refine not_terminalLast rfl ?_
    show ∀ i ∈ s.read ++ (s.fail cause).queue, i.terminal = false
    rw [hqueue]
    exact h.unended hne

/-- **The end of a stream**: whatever the adapter, the callers of `cancel` and the
reader do, every finished execution leaves a terminal item last exactly if each
exception finds fewer than 64 items unread, and the task is not cancelled before
its first step. -/
theorem terminal_always_iff (es : List (StreamEvent χ ε)) :
    Always streamStep TerminalLast (StreamTransfer.start χ ε) es ↔
      Along streamStep endsHeard (StreamTransfer.start χ ε) es :=
  always_iff_along TransferInv (fun _ h => h.terminal) (fun _ _ hok h => streamStep_inv h hok)
    (fun _ _ hok h => streamStep_breaks h hok) transferInv_start

/-- The adapter yields 64 chunks before the reader takes one, and raises: the execution is
over and 64 chunks are all there is. -/
theorem terminal_fails :
    ¬ TerminalLast (run streamStep (StreamTransfer.start Unit Unit)
      ([.dispatch, .start, .acquired] ++ List.replicate 64 (.chunk (some ())) ++
        [.raised ()])) := by
  decide +kernel

end LocalRag.Runtime
