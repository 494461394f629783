import LocalRag.Core.Run

/-!
# A consumer that stops early

One generation request, from `CoordinatorGenerationClient.stream`
(`app/runtime/coordinator_client.py`) over the body-buffering middleware
(`BoundedBodyMiddleware`, `app/runtime/protocol.py`) to `CoordinatorRuntime`
(`app/runtime/coordinator.py`), as three parties whose steps interleave in any order.

A stop can travel two ways. A cancellation of the task that awaits the next line
ends in `except asyncio.CancelledError`, which posts `/cancel`. Every other stop
only closes the response: the disconnect reaches the server's receive channel, and
there it stays, because `replay` hands out what was buffered with the request body
and then waits for ever. `deaf` is that invariant. So a generation whose consumer
was closed at a `yield`, or raised while decoding, runs on to its own end; and a
cancel call that overtakes the request finds nothing to cancel. `attended_iff` shows
that these three are all.

Mirroring notes.
* Closing the response makes the receive channel yield `http.disconnect`, and the
  streaming response closes `frames()` when, and only when, the receive function it
  was given returns it.
* `dispatch` covers the scheduler: another request may hold the slot for any time.
* A frame is a chunk, a line the client cannot decode, or the terminal frame.
* A disabled step changes nothing.
-/

namespace LocalRag.Stream

open LocalRag.Core

/-- A message of an ASGI receive channel. -/
inductive Message where
  | request (moreBody : Bool)
  | disconnect
deriving Repr, DecidableEq

inductive Line where
  | chunk
  | undecodable
  | terminal
deriving Repr, DecidableEq

/-- Where the client's generator is: in an `await`, at a `yield`, in the `except`
clause of a cancellation, ended early, or ended by the terminal frame. -/
inductive Consumer where
  | awaiting | suspended | cancelling | stopped | terminated
deriving Repr, DecidableEq

/-- `BoundedBodyMiddleware`: collecting `messages`, or running the application on
what `iterator` has left. -/
inductive Middleware where
  | buffering (messages : List Message)
  | replaying (messages : List Message)
deriving Repr, DecidableEq

/-- The `/generate/stream` endpoint: reading the body, about to iterate `frames()`,
iterating it, or done. -/
inductive Endpoint where
  | reading | accepted | streaming | closed
deriving Repr, DecidableEq

/-- The request in `CoordinatorRuntime`. -/
inductive RequestState where
  | absent | queued | active | finished
deriving Repr, DecidableEq

structure Transfer where
  unsent : Nat
  consumer : Consumer
  lines : List Line
  cancelPosted : Bool
  inbox : List Message
  middleware : Middleware
  endpoint : Endpoint
  request : RequestState
  cancellation : Bool
  cancelCalled : Bool
deriving Repr, DecidableEq

inductive Action where
  -- the client
  | sendBody | readLine | resume | cancelTask | aclose | cancelAnswered
  -- the coordinator
  | receive | readBody | startFrames | refuse | listen | dispatch | emit (line : Line) | finish
  | handleCancel
deriving Repr, DecidableEq

/-- The request before its body is sent, in `pieces + 1` messages. -/
def Transfer.start (pieces : Nat) : Transfer :=
  { unsent := pieces + 1
    consumer := .awaiting
    lines := []
    cancelPosted := false
    inbox := []
    middleware := .buffering []
    endpoint := .reading
    request := .absent
    cancellation := false
    cancelCalled := false }

/-- The `async with` is left: the response is closed. -/
def closeResponse (t : Transfer) : Transfer :=
  { t with
    lines := []
    inbox := t.inbox ++ [.disconnect] }

/-- `CoordinatorRuntime.cancel`. -/
def runtimeCancel (t : Transfer) : Transfer :=
  match t.request with
  | .absent | .finished => { t with cancelCalled := true }
  | .queued => { t with cancelCalled := true, cancellation := true, request := .finished }
  | .active => { t with cancelCalled := true, cancellation := true }

/-- The next line of the response. -/
def readLine (t : Transfer) : Transfer :=
  match t.lines with
  | [] => t
  | .chunk :: rest => { t with consumer := .suspended, lines := rest }
  | .undecodable :: _ => { closeResponse t with consumer := .stopped }
  | .terminal :: _ => { closeResponse t with consumer := .terminated }

/-- One turn of the loop over `receive()`. -/
def receive (messages : List Message) (t : Transfer) : Transfer :=
  match t.inbox with
  | [] => t
  | .request true :: rest =>
    { t with inbox := rest, middleware := .buffering (messages ++ [.request true]) }
  | m :: rest => { t with inbox := rest, middleware := .replaying (messages ++ [m]) }

/-- The application reads one message of the body. -/
def readBody (t : Transfer) : Transfer :=
  match t.middleware with
  | .replaying (.request true :: rest) => { t with middleware := .replaying rest }
  | .replaying (.request false :: rest) =>
    { t with middleware := .replaying rest, endpoint := .accepted }
  | .replaying (.disconnect :: rest) =>
    { t with middleware := .replaying rest, endpoint := .closed, request := .finished }
  | .replaying [] | .buffering _ => t

/-- `listen_for_disconnect`: `replay` returns, or waits for ever. -/
def listen (t : Transfer) : Transfer :=
  match t.middleware with
  | .replaying (.disconnect :: rest) =>
    { runtimeCancel t with middleware := .replaying rest, endpoint := .closed }
  | .replaying (.request _ :: rest) => { t with middleware := .replaying rest }
  | .replaying [] | .buffering _ => t

/-- One step of one party. -/
def step (t : Transfer) : Action → Transfer
  | .sendBody =>
    if t.consumer = .awaiting ∧ 0 < t.unsent then
      { t with unsent := t.unsent - 1, inbox := t.inbox ++ [.request (1 < t.unsent)] }
    else t
  | .readLine => if t.consumer = .awaiting then readLine t else t
  | .resume => if t.consumer = .suspended then { t with consumer := .awaiting } else t
  | .cancelTask =>
    if t.consumer = .awaiting then
      { closeResponse t with consumer := .cancelling, cancelPosted := true }
    else t
  | .aclose => if t.consumer = .suspended then { closeResponse t with consumer := .stopped } else t
  | .cancelAnswered =>
    if t.consumer = .cancelling ∧ ¬ t.cancelPosted then { t with consumer := .stopped } else t
  | .receive =>
    match t.middleware with
    | .buffering messages => receive messages t
    | .replaying _ => t
  | .readBody => if t.endpoint = .reading then readBody t else t
  | .startFrames =>
    if t.endpoint = .accepted then { t with endpoint := .streaming, request := .queued } else t
  | .refuse =>
    if t.endpoint = .accepted then { t with endpoint := .closed, request := .finished } else t
  | .listen => if t.endpoint = .streaming then listen t else t
  | .dispatch => if t.request = .queued then { t with request := .active } else t
  | .emit line =>
    if t.request = .active ∧ ¬ t.cancellation ∧ (t.consumer = .awaiting ∨ t.consumer = .suspended)
    then { t with lines := t.lines ++ [line] }
    else t
  | .finish => if t.request = .active then { t with request := .finished } else t
  | .handleCancel => if t.cancelPosted then { runtimeCancel t with cancelPosted := false } else t

/-! ## The claim about a state -/

/-- The consumer has stopped before the terminal frame, and the cancel call, if it
makes one, was handled. -/
def Stopped (t : Transfer) : Prop :=
  t.consumer = .stopped ∨ t.consumer = .cancelling ∧ t.cancelPosted = false

/-- The receive function of the application may still return something. -/
def Underway (t : Transfer) : Prop := t.middleware ≠ .replaying []

/-- Nobody's answer keeps the slot: `cancel` was called or the request has finished,
and a request that is still queued or active is on its way out. -/
def Attended (t : Transfer) : Prop :=
  Stopped t → ¬ Underway t → (t.cancelCalled = true ∨ t.request = .finished) ∧
    (t.request = .queued ∨ t.request = .active → t.cancellation = true)

/-- What a step needs: the generator is closed at a `yield`, or meets a line it
cannot decode, only when the request has finished; and `frames()` does not start
after the cancel call was handled. -/
def StepOk (t : Transfer) : Action → Prop
  | .aclose => t.consumer = .suspended → t.request = .finished
  | .readLine => t.consumer = .awaiting → t.lines.head? = some .undecodable →
    t.request = .finished
  | .startFrames => t.endpoint = .accepted → t.cancelCalled = false
  | _ => True

/-! ## What the listener can hear -/

/-- What `replay` hands out: the body up to its last message, or to a disconnect
that cut it short. -/
def Replay : List Message → Prop
  | [.request false] | [.disconnect] => True
  | .request true :: rest => Replay rest
  | _ => False

theorem replay_append {messages : List Message} (h : ∀ m ∈ messages, m = .request true)
    {m : Message} (hm : m ≠ .request true) : Replay (messages ++ [m]) := by
  induction messages with
  | nil =>
    cases m with
    | disconnect => trivial
    | request moreBody =>
      cases moreBody with
      | false => trivial
      | true => exact absurd rfl hm
  | cons first messages ih =>
    obtain rfl := h first (by simp)
    exact ih fun m hm => h m (by simp [hm])

/-- The messages behind the endpoint: once the body is read nothing is left, and
the disconnect of a closed response is never handed out. -/
def Heard (t : Transfer) : Prop :=
  match t.endpoint with
  | .reading =>
    match t.middleware with
    | .buffering messages => ∀ m ∈ messages, m = .request true
    | .replaying messages => Replay messages
  | .accepted | .streaming => t.middleware = .replaying []
  | .closed => True

/-- The invariant of every transfer; the last two fields are the ones the condition
on the steps is for. -/
structure TransferInv (t : Transfer) : Prop where
  deaf : Heard t
  absent : t.endpoint = .reading ∨ t.endpoint = .accepted →
    t.request = .absent ∧ t.cancellation = false
  streaming : t.request = .queued ∨ t.request = .active → t.endpoint = .streaming
  closed : t.endpoint = .closed → t.request = .finished
  started : t.consumer = .suspended ∨ t.lines ≠ [] → t.request ≠ .absent
  posted : t.cancelPosted = true → t.consumer = .cancelling
  called : t.cancelCalled = true → Stopped t
  stopped : Stopped t → t.cancelCalled = true ∨ t.request = .finished
  signalled : t.cancelCalled = true → t.request = .queued ∨ t.request = .active →
    t.cancellation = true

theorem TransferInv.attended {t : Transfer} (h : TransferInv t) : Attended t := by
  intro hstopped _
  refine ⟨h.stopped hstopped, fun hrequest => ?_⟩
  rcases h.stopped hstopped with hcalled | hfinished
  · exact h.signalled hcalled hrequest
  · rw [hfinished] at hrequest
    exact absurd hrequest (by simp)

theorem transferInv_start (pieces : Nat) : TransferInv (Transfer.start pieces) where
  deaf := by
    intro m hm
    exact absurd hm (by simp)
  absent _ := ⟨rfl, rfl⟩
  streaming h := absurd h (by simp [Transfer.start])
  closed h := absurd h (by simp [Transfer.start])
  started h := absurd h (by simp [Transfer.start])
  posted h := absurd h (by simp [Transfer.start])
  called h := absurd h (by simp [Transfer.start])
  stopped h := absurd h (by simp [Stopped, Transfer.start])
  signalled h := absurd h (by simp [Transfer.start])

section Steps

variable {t : Transfer}

/-- A live consumer has not been cancelled for. -/
theorem TransferInv.uncalled (h : TransferInv t)
    (hc : t.consumer = .awaiting ∨ t.consumer = .suspended) : t.cancelCalled = false := by
  by_contra hcalled
  rcases h.called (by simpa using hcalled) with hs | hs
  · rw [hs] at hc
    exact absurd hc (by simp)
  · rw [hs.1] at hc
    exact absurd hc (by simp)

theorem TransferInv.unposted (h : TransferInv t)
    (hc : t.consumer = .awaiting ∨ t.consumer = .suspended) : t.cancelPosted = false := by
  by_contra hposted
  rw [h.posted (by simpa using hposted)] at hc
  exact absurd hc (by simp)

/-- The generator ends at `consumer`, and the response is closed; a cancel call may
be on its way. -/
theorem inv_close (h : TransferInv t) (hc : t.consumer = .awaiting ∨ t.consumer = .suspended)
    {consumer : Consumer} {posted : Bool} (hne : consumer ≠ .suspended)
    (hposted : posted = true → consumer = .cancelling)
    (hstopped : consumer = .stopped ∨ consumer = .cancelling ∧ posted = false →
      t.request = .finished) :
    TransferInv { closeResponse t with consumer := consumer, cancelPosted := posted } where
  deaf := h.deaf
  absent := h.absent
  streaming := h.streaming
  closed := h.closed
  started hs := by
    rcases hs with hs | hs
    · exact absurd hs hne
    · exact absurd rfl hs
  posted := hposted
  called hcalled := by
    have := h.uncalled hc
    exact absurd (this.symm.trans hcalled) (by simp)
  stopped hs := Or.inr (hstopped hs)
  signalled := h.signalled

theorem inv_readLine (h : TransferInv t) (hok : StepOk t .readLine) :
    TransferInv (step t .readLine) := by
  show TransferInv (if t.consumer = .awaiting then readLine t else t)
  split
  next hc =>
    unfold readLine
    split
    · exact h
    next rest hlines =>
      have hstarted := h.started (Or.inr (by simp [hlines]))
      have huncalled := h.uncalled (Or.inl hc)
      exact {
        deaf := h.deaf
        absent := h.absent
        streaming := h.streaming
        closed := h.closed
        started := fun _ => hstarted
        posted := fun hp => absurd ((h.unposted (Or.inl hc)).symm.trans hp) (by simp)
        called := fun hp => absurd (huncalled.symm.trans hp) (by simp)
        stopped := fun hs => absurd hs (by simp [Stopped])
        signalled := h.signalled }
    next rest hlines =>
      have hclosed := @inv_close t h (Or.inl hc) .stopped t.cancelPosted (by simp)
        (fun hp => absurd ((h.unposted (Or.inl hc)).symm.trans hp) (by simp))
        (fun _ => hok hc (by simp [hlines]))
      exact hclosed
    next rest hlines =>
      have hclosed := @inv_close t h (Or.inl hc) .terminated t.cancelPosted (by simp)
        (fun hp => absurd ((h.unposted (Or.inl hc)).symm.trans hp) (by simp))
        (fun hs => absurd hs (by simp))
      exact hclosed
  next => exact h

variable {a : Action}

/-- The client's other steps. -/
theorem inv_client (h : TransferInv t)
    (ha : a = .sendBody ∨ a = .resume ∨ a = .cancelTask ∨ a = .aclose ∨ a = .cancelAnswered)
    (hok : StepOk t a) : TransferInv (step t a) := by
  rcases ha with rfl | rfl | rfl | rfl | rfl
  · show TransferInv (if _ then _ else t)
    split
    · exact ⟨h.deaf, h.absent, h.streaming, h.closed, h.started, h.posted, h.called, h.stopped,
        h.signalled⟩
    · exact h
  · show TransferInv (if _ then _ else t)
    split
    next hc =>
      have huncalled := h.uncalled (Or.inr hc)
      exact {
        deaf := h.deaf
        absent := h.absent
        streaming := h.streaming
        closed := h.closed
        started := fun _ => h.started (Or.inl hc)
        posted := fun hp => absurd ((h.unposted (Or.inr hc)).symm.trans hp) (by simp)
        called := fun hp => absurd (huncalled.symm.trans hp) (by simp)
        stopped := fun hs => absurd hs (by simp [Stopped])
        signalled := h.signalled }
    next => exact h
  · show TransferInv (if _ then _ else t)
    split
    next hc =>
      exact @inv_close t h (Or.inl hc) .cancelling true (by simp) (fun _ => rfl)
        (fun hs => absurd hs (by simp))
    next => exact h
  · show TransferInv (if _ then _ else t)
    split
    next hc =>
      exact @inv_close t h (Or.inr hc) .stopped t.cancelPosted (by simp)
        (fun hp => absurd ((h.unposted (Or.inr hc)).symm.trans hp) (by simp)) (fun _ => hok hc)
    next => exact h
  · show TransferInv (if _ then _ else t)
    split
    next hc =>
      have hstopped : Stopped t := Or.inr ⟨hc.1, by simpa using hc.2⟩
      exact {
        deaf := h.deaf
        absent := h.absent
        streaming := h.streaming
        closed := h.closed
        started := fun hs => hs.elim (fun hs => absurd hs (by simp)) fun hs => h.started (Or.inr hs)
        posted := fun hp => absurd hp hc.2
        called := fun _ => Or.inl rfl
        stopped := fun _ => h.stopped hstopped
        signalled := h.signalled }
    next => exact h

theorem inv_receive (h : TransferInv t) : TransferInv (step t .receive) := by
  have hbuffer : ∀ messages, t.middleware = .buffering messages →
      t.endpoint = .reading ∨ t.endpoint = .closed := by
    intro messages hm
    have hdeaf := h.deaf
    unfold Heard at hdeaf
    cases he : t.endpoint with
    | reading => exact Or.inl rfl
    | closed => exact Or.inr rfl
    | accepted =>
      rw [he] at hdeaf
      exact absurd (hm.symm.trans hdeaf) (by simp)
    | streaming =>
      rw [he] at hdeaf
      exact absurd (hm.symm.trans hdeaf) (by simp)
  -- what the middleware has becomes `m'`
  have hset : ∀ inbox m', (t.endpoint = .reading → Heard { t with middleware := m' }) →
      (t.endpoint = .reading ∨ t.endpoint = .closed) →
      TransferInv { t with inbox := inbox, middleware := m' } := by
    intro inbox m' hm' he
    refine ⟨?_, h.absent, h.streaming, h.closed, h.started, h.posted, h.called, h.stopped,
      h.signalled⟩
    rcases he with he | he
    · exact hm' he
    · show Heard { t with inbox := inbox, middleware := m' }
      unfold Heard
      simp only [he]
  show TransferInv (match t.middleware with
    | .buffering messages => receive messages t
    | .replaying _ => t)
  split
  next messages hm =>
    have hall : t.endpoint = .reading → ∀ m ∈ messages, m = .request true := by
      intro he
      have hdeaf := h.deaf
      unfold Heard at hdeaf
      simpa only [he, hm] using hdeaf
    unfold receive
    split
    · exact h
    next rest hinbox =>
      refine hset rest _ (fun he => ?_) (hbuffer messages hm)
      unfold Heard
      simp only [he]
      intro m hmem
      rcases List.mem_append.mp hmem with hmem | hmem
      · exact hall he m hmem
      · exact List.mem_singleton.mp hmem
    next m rest hnot hinbox =>
      refine hset rest _ (fun he => ?_) (hbuffer messages hm)
      unfold Heard
      simp only [he]
      exact replay_append (hall he) fun heq => hnot heq
  next => exact h

theorem inv_readBody (h : TransferInv t) : TransferInv (step t .readBody) := by
  show TransferInv (if _ then _ else t)
  split
  next he =>
    have hdeaf := h.deaf
    unfold Heard at hdeaf
    simp only [he] at hdeaf
    obtain ⟨habsent, hclear⟩ := h.absent (Or.inl he)
    -- the request is not there yet, so no line was sent and nothing cancelled
    have hquiet : ¬ (t.consumer = .suspended ∨ t.lines ≠ []) := fun hs => h.started hs habsent
    unfold readBody
    split
    next rest hm =>
      simp only [hm] at hdeaf
      refine ⟨?_, h.absent, h.streaming, h.closed, h.started, h.posted, h.called, h.stopped,
        h.signalled⟩
      unfold Heard
      simp only [he]
      exact hdeaf
    next rest hm =>
      simp only [hm] at hdeaf
      have hrest : rest = [] := by
        cases rest with
        | nil => rfl
        | cons m rest => exact absurd hdeaf (by simp [Replay])
      subst hrest
      exact {
        deaf := rfl
        absent := fun _ => ⟨habsent, hclear⟩
        streaming := fun hr => absurd hr (by simp [habsent])
        closed := fun hr => absurd hr (by simp)
        started := h.started
        posted := h.posted
        called := h.called
        stopped := h.stopped
        signalled := h.signalled }
    next rest hm =>
      exact {
        deaf := trivial
        absent := fun hr => absurd hr (by simp)
        streaming := fun hr => absurd hr (by simp)
        closed := fun _ => rfl
        started := fun hs => absurd hs hquiet
        posted := h.posted
        called := h.called
        stopped := fun _ => Or.inr rfl
        signalled := fun _ hr => absurd hr (by simp) }
    next => exact h
    next => exact h
  next => exact h

theorem inv_accepted (h : TransferInv t) (he : t.endpoint = .accepted)
    (hcalled : t.cancelCalled = false) :
    TransferInv { t with endpoint := .streaming, request := .queued } where
  deaf := by
    have hdeaf := h.deaf
    unfold Heard at hdeaf ⊢
    simpa only [he] using hdeaf
  absent hr := absurd hr (by simp)
  streaming _ := rfl
  closed hr := absurd hr (by simp)
  started _ := by simp
  posted := h.posted
  called := h.called
  stopped hs := by
    rcases h.stopped hs with hc | hc
    · exact Or.inl hc
    · exact absurd ((h.absent (Or.inr he)).1.symm.trans hc) (by simp)
  signalled hc := absurd (hcalled.symm.trans hc) (by simp)

/-- The request ends, in whatever way. -/
theorem inv_finished (h : TransferInv t) {endpoint : Endpoint}
    (he : endpoint = .closed ∨ endpoint = t.endpoint ∧ t.request ≠ .absent) :
    TransferInv { t with endpoint := endpoint, request := .finished } where
  deaf := by
    rcases he with rfl | ⟨rfl, -⟩
    · trivial
    · exact h.deaf
  absent hr := by
    rcases he with rfl | ⟨rfl, habsent⟩
    · exact absurd hr (by simp)
    · exact absurd (h.absent hr).1 habsent
  streaming hr := absurd hr (by simp)
  closed _ := rfl
  started _ := by simp
  posted := h.posted
  called := h.called
  stopped _ := Or.inr rfl
  signalled _ hr := absurd hr (by simp)

/-- The coordinator's steps behind the endpoint. -/
theorem inv_coordinator (h : TransferInv t)
    (ha : a = .startFrames ∨ a = .refuse ∨ a = .listen ∨ a = .dispatch ∨ a = .finish)
    (hok : StepOk t a) : TransferInv (step t a) := by
  rcases ha with rfl | rfl | rfl | rfl | rfl
  · show TransferInv (if _ then _ else t)
    split
    next he => exact inv_accepted h he (hok he)
    next => exact h
  · show TransferInv (if _ then _ else t)
    split
    next => exact inv_finished h (Or.inl rfl)
    next => exact h
  · show TransferInv (if _ then _ else t)
    split
    next he =>
      -- nothing is left to hear
      have hdeaf := h.deaf
      unfold Heard at hdeaf
      simp only [he] at hdeaf
      unfold listen
      rw [hdeaf]
      exact h
    next => exact h
  · show TransferInv (if _ then _ else t)
    split
    next hq =>
      have hstreaming := h.streaming (Or.inl hq)
      exact {
        deaf := h.deaf
        absent := fun hr => absurd (h.absent hr).1 (by simp [hq])
        streaming := fun _ => hstreaming
        closed := fun hr => absurd (hstreaming.symm.trans hr) (by simp)
        started := fun _ => by simp
        posted := h.posted
        called := h.called
        stopped := fun hs => (h.stopped hs).imp id fun hf => absurd (hq.symm.trans hf) (by simp)
        signalled := fun hc _ => h.signalled hc (Or.inl hq) }
    next => exact h
  · show TransferInv (if _ then _ else t)
    split
    next ha => exact inv_finished h (Or.inr ⟨rfl, by simp [ha]⟩)
    next => exact h

theorem inv_emit (h : TransferInv t) (line : Line) : TransferInv (step t (.emit line)) := by
  show TransferInv (if _ then _ else t)
  split
  next hactive =>
    exact ⟨h.deaf, h.absent, h.streaming, h.closed, fun _ => by simp [hactive.1], h.posted, h.called,
      h.stopped, h.signalled⟩
  next => exact h

/-- What a handled cancel call leaves of the request. -/
def handled (t : Transfer) (cancellation : Bool) (request : RequestState) : Transfer :=
  { t with
    cancelPosted := false
    cancelCalled := true
    cancellation := cancellation
    request := request }

theorem inv_handled (h : TransferInv t) (hc : t.consumer = .cancelling) {cancellation : Bool}
    {request : RequestState}
    (hrequest : request = t.request ∨ request = .finished ∧ t.request ≠ .absent)
    (hset : request = .queued ∨ request = .active → cancellation = true)
    (hclear : t.request = .absent → cancellation = t.cancellation) :
    TransferInv (handled t cancellation request) where
  deaf := h.deaf
  absent hr := by
    obtain ⟨habsent, hfalse⟩ := h.absent hr
    refine ⟨?_, (hclear habsent).trans hfalse⟩
    rcases hrequest with hrequest | hrequest
    · exact hrequest.trans habsent
    · exact absurd habsent hrequest.2
  streaming hr := by
    rcases hrequest with rfl | ⟨rfl, -⟩
    · exact h.streaming hr
    · exact absurd hr (by simp [handled])
  closed hr := by
    rcases hrequest with rfl | ⟨rfl, -⟩
    · exact h.closed hr
    · rfl
  started hs := by
    rcases hrequest with rfl | ⟨rfl, -⟩
    · exact h.started hs
    · simp [handled]
  posted hp := absurd hp (by simp [handled])
  called _ := Or.inr ⟨hc, rfl⟩
  stopped _ := Or.inl rfl
  signalled _ hr := hset hr

theorem inv_handleCancel (h : TransferInv t) : TransferInv (step t .handleCancel) := by
  show TransferInv (if _ then _ else t)
  split
  next hposted =>
    have hc := h.posted hposted
    unfold runtimeCancel
    cases hr : t.request with
    | absent =>
      exact @inv_handled t h hc t.cancellation .absent (Or.inl hr.symm) (by simp) fun _ => rfl
    | finished =>
      exact @inv_handled t h hc t.cancellation .finished (Or.inl hr.symm) (by simp) fun _ => rfl
    | queued =>
      exact @inv_handled t h hc true .finished (Or.inr ⟨rfl, by simp [hr]⟩) (fun _ => rfl)
        fun habsent => absurd (hr.symm.trans habsent) (by simp)
    | active =>
      exact @inv_handled t h hc true .active (Or.inl hr.symm) (fun _ => rfl)
        fun habsent => absurd (hr.symm.trans habsent) (by simp)
  next => exact h

theorem transferInv_step (h : TransferInv t) (hok : StepOk t a) : TransferInv (step t a) := by
  cases a with
  | sendBody => exact inv_client h (by simp) hok
  | readLine => exact inv_readLine h hok
  | resume => exact inv_client h (by simp) hok
  | cancelTask => exact inv_client h (by simp) hok
  | aclose => exact inv_client h (by simp) hok
  | cancelAnswered => exact inv_client h (by simp) hok
  | receive => exact inv_receive h
  | readBody => exact inv_readBody h
  | startFrames => exact inv_coordinator h (by simp) hok
  | refuse => exact inv_coordinator h (by simp) hok
  | listen => exact inv_coordinator h (by simp) hok
  | dispatch => exact inv_coordinator h (by simp) hok
  | emit line => exact inv_emit h line
  | finish => exact inv_coordinator h (by simp) hok
  | handleCancel => exact inv_handleCancel h

/-! ## A step without the condition -/

/-- A request that is there and has not finished is being streamed, to a listener
that has nothing left to hear. -/
theorem TransferInv.unheard (h : TransferInv t) (habsent : t.request ≠ .absent)
    (hfinished : t.request ≠ .finished) : t.middleware = .replaying [] := by
  have hstreaming : t.endpoint = .streaming := by
    apply h.streaming
    cases hr : t.request with
    | absent => exact absurd hr habsent
    | finished => exact absurd hr hfinished
    | queued => exact Or.inl rfl
    | active => exact Or.inr rfl
  have hdeaf := h.deaf
  unfold Heard at hdeaf
  simpa only [hstreaming] using hdeaf

/-- The consumer ended without a call, and nothing of that is on its way. -/
theorem not_attended_close (h : TransferInv t)
    (hc : t.consumer = .awaiting ∨ t.consumer = .suspended)
    (hstarted : t.consumer = .suspended ∨ t.lines ≠ []) (hfinished : t.request ≠ .finished) :
    ¬ Attended { closeResponse t with consumer := .stopped } := by
  intro hattended
  have hunheard := h.unheard (h.started hstarted) hfinished
  have hquiet : ¬ Underway { closeResponse t with consumer := .stopped } := not_not.mpr hunheard
  rcases (hattended (Or.inl rfl) hquiet).1 with hcalled | hdone
  · exact absurd ((h.uncalled hc).symm.trans hcalled) (by simp)
  · exact hfinished hdone

theorem not_attended_step (h : TransferInv t) (hok : ¬ StepOk t a) : ¬ Attended (step t a) := by
  cases a with
  | aclose =>
    obtain ⟨hc, hfinished⟩ := Classical.not_imp.mp hok
    show ¬ Attended (if t.consumer = .suspended then _ else t)
    rw [if_pos hc]
    exact not_attended_close h (Or.inr hc) (Or.inl hc) hfinished
  | readLine =>
    obtain ⟨hc, hline⟩ := Classical.not_imp.mp hok
    obtain ⟨hhead, hfinished⟩ := Classical.not_imp.mp hline
    show ¬ Attended (if t.consumer = .awaiting then readLine t else t)
    rw [if_pos hc]
    obtain ⟨rest, hlines⟩ : ∃ rest, t.lines = .undecodable :: rest := by
      cases hl : t.lines with
      | nil => simp [hl] at hhead
      | cons l rest => exact ⟨rest, by simpa [hl] using hhead⟩
    unfold readLine
    rw [hlines]
    exact not_attended_close h (Or.inl hc) (Or.inr (by simp [hlines])) hfinished
  | startFrames =>
    obtain ⟨he, hcalled⟩ := Classical.not_imp.mp hok
    have hcalled : t.cancelCalled = true := by simpa using hcalled
    show ¬ Attended (if t.endpoint = .accepted then _ else t)
    rw [if_pos he]
    intro hattended
    have hdeaf := h.deaf
    unfold Heard at hdeaf
    simp only [he] at hdeaf
    have hquiet : ¬ Underway { t with endpoint := .streaming, request := .queued } :=
      not_not.mpr hdeaf
    -- the call found no request, so its event was not set
    have hset := (hattended (h.called hcalled) hquiet).2 (Or.inl rfl)
    exact absurd ((h.absent (Or.inr he)).2.symm.trans hset) (by simp)
  | sendBody | resume | cancelTask | cancelAnswered | receive | readBody | refuse | listen | dispatch
  | emit _ | finish | handleCancel => exact absurd trivial hok

end Steps

/-- For every request and every interleaving: a stopped consumer's generation is
cancelled or over in every state of the run exactly if every step of it meets the
condition. -/
theorem attended_iff (pieces : Nat) (actions : List Action) :
    Always step Attended (Transfer.start pieces) actions ↔
      Along step StepOk (Transfer.start pieces) actions :=
  always_iff_along TransferInv (fun _ h => h.attended) (fun _ _ hok h => transferInv_step h hok)
    (fun _ _ hok h => not_attended_step h hok) (transferInv_start pieces)

/-- The consumer is closed at its first chunk, and the request goes on. -/
def closedEarly : List Action :=
  [.sendBody, .receive, .readBody, .startFrames, .dispatch, .emit .chunk, .readLine, .aclose]

theorem abandoned_at_yield :
    ¬ Always step Attended (Transfer.start 0) closedEarly ∧
    (run step (Transfer.start 0) closedEarly).consumer = .stopped ∧
    (run step (Transfer.start 0) closedEarly).request = .active ∧
    (run step (Transfer.start 0) closedEarly).cancelCalled = false ∧
    run step (Transfer.start 0) (closedEarly ++ [.receive, .listen]) =
      run step (Transfer.start 0) closedEarly := by
  refine ⟨fun h => ?_, by decide, by decide, by decide, by decide⟩
  have hstate : Attended (run step (Transfer.start 0) closedEarly) := by
    obtain ⟨-, -, -, -, -, -, -, -, hlast⟩ := h
    exact hlast
  have hquiet : (run step (Transfer.start 0) closedEarly).middleware = .replaying [] := by decide
  have hcalled := (hstate (Or.inl (by decide)) (not_not.mpr hquiet)).1
  exact absurd hcalled (by decide)

end LocalRag.Stream
