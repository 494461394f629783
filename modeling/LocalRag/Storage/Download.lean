import LocalRag.Storage.Bridge

/-!
# Download — the file a failed download leaves

`AsyncObjectBody.download_to` and `close` of `services/object_storage.py`: the
destination is created, filled, closed, and removed again when something went wrong,
every one of these a call over the thread bridge. What a call did to the file is what
its function did, whether or not the caller got to hear of it; the calls here are
finished ones that kept the promise of the bridge, so nothing of them is still to
come.

`download_traceless_iff` says when a download that raises after it created its
destination leaves no file there. The removal stands behind the close, so a close
that fails or is cancelled skips it, and nothing at all removes the file when the
download itself went well and one of the two closes at the end did not.

Mirroring notes. A chunk is its length. The calls a download does not get to are not
looked at.
-/

namespace LocalRag.Storage

open LocalRag.Core

variable {ρ : Type}

/-- What the caller gets, if it does not get an exception. -/
def ThreadCall.value (c : ThreadCall ρ) : Option ρ :=
  match c.phase with
  | .returned result => some result
  | _ => none

/-- The function returned, so it did what it does. -/
def ThreadCall.ran (c : ThreadCall ρ) : Bool :=
  match c.function with
  | .ended (some _) => true
  | _ => false

/-- The calls of one download, in the order of the code. -/
structure Download where
  /-- `destination.open("xb")`, with `_close_and_unlink` as its cleanup. -/
  opened : ThreadCall Unit
  /-- That cleanup removes the file. -/
  cleanupUnlinks : Bool
  /-- The reads, each with the write of its chunk; the read after the last is empty. -/
  reads : List (ThreadCall Nat × ThreadCall Nat)
  flush : ThreadCall Unit
  /-- `output.close` and `destination.unlink` of the handler. -/
  closeOnError : ThreadCall Unit
  unlink : ThreadCall Unit
  /-- `output.close` and `self.close` of the `finally`. -/
  closeFinally : ThreadCall Unit
  bodyClose : ThreadCall Unit

/-- `while chunk := await self.read(…)`: the total, or none when the loop raises. -/
def copy : List (ThreadCall Nat × ThreadCall Nat) → Nat → Option Nat
  | [], total => some total
  | (read, write) :: reads, total =>
    match read.value with
    | none => none
    | some 0 => some total
    | some length =>
      match write.value with
      | none => none
      | some written => if written ≠ length then none else copy reads (total + written)

/-- The body of the `try` after the destination was opened. -/
def Download.transferred (d : Download) : Option Nat :=
  match copy d.reads 0 with
  | none => none
  | some total => if d.flush.value.isSome then some total else none

/-- How a download ends: what it returns, if it does, and the file. -/
structure Downloaded where
  total : Option Nat
  created : Bool
  isPresent : Bool
deriving Repr, DecidableEq

/-- `download_to`. -/
def downloadTo (d : Download) : Downloaded :=
  match d.opened.value with
  | none =>
    { total := none
      created := d.opened.ran
      isPresent := d.opened.ran && !(!d.opened.cleaned.isEmpty && d.cleanupUnlinks) }
  | some () =>
    match d.transferred with
    | none =>
      -- the handler: the file is closed, then removed
      { total := none
        created := true
        isPresent := !(d.closeOnError.value.isSome && d.unlink.ran) }
    | some total =>
      { total := if d.closeFinally.value.isSome ∧ d.bodyClose.value.isSome then some total else none
        created := true
        isPresent := true }

/-- The calls are over, and kept the promise of the bridge. -/
structure Download.Finished (d : Download) : Prop where
  opened : d.opened.phase.isFinished = true ∧ CallKept d.opened ∧ d.opened.hasCleanup = true
  unlink : d.unlink.phase.isFinished = true ∧ CallKept d.unlink

/-- What has to go well: the cleanup of an open that was cancelled; after the open,
the close and the removal in the handler of a transfer that failed, and both closes
at the end of one that did not. -/
structure Download.Traceless (d : Download) : Prop where
  cleanup : d.opened.value = none → d.opened.ran = true → d.cleanupUnlinks = true
  handler : d.opened.value ≠ none → d.transferred = none →
    d.closeOnError.value ≠ none ∧ d.unlink.ran = true
  closes : d.opened.value ≠ none → d.transferred ≠ none →
    d.closeFinally.value ≠ none ∧ d.bodyClose.value ≠ none

/-- A result that was not returned went to the cleanup. -/
theorem cleaned_of_ran {c : ThreadCall ρ} (hfinished : c.phase.isFinished = true) (hkept : CallKept c)
    (hhas : c.hasCleanup = true) (hvalue : c.value = none) (hran : c.ran = true) :
    c.cleaned ≠ [] := by
  rw [(hkept hfinished).2.2 hhas]
  unfold ThreadCall.ran at hran
  unfold ThreadCall.value at hvalue
  unfold ThreadCall.unreturned
  split at hran
  next result hfunction =>
    rw [hfunction]
    split
    next hphase =>
      rw [hphase] at hvalue
      cases hvalue
    · simp
    next hnot => exact absurd rfl (hnot result)
  · cases hran

/-- A download that raises after it created its destination leaves no file there
exactly when the removal went well. -/
theorem download_traceless_iff {d : Download} (h : d.Finished) :
    ((downloadTo d).created = true → (downloadTo d).total = none →
      (downloadTo d).isPresent = false) ↔ d.Traceless := by
  unfold downloadTo
  cases hvalue : d.opened.value with
  | none =>
    constructor
    · intro himpossible
      refine ⟨fun _ hran => ?_, fun hne => absurd hvalue hne, fun hne => absurd hvalue hne⟩
      have hcleaned := cleaned_of_ran h.opened.1 h.opened.2.1 h.opened.2.2 hvalue hran
      have habsent := himpossible hran rfl
      simpa [hran, hcleaned] using habsent
    · intro htraceless hran _
      have hcleaned := cleaned_of_ran h.opened.1 h.opened.2.1 h.opened.2.2 hvalue hran
      simp [hcleaned, htraceless.cleanup hvalue hran]
  | some opened =>
    have hne : d.opened.value ≠ none := by simp [hvalue]
    cases htransferred : d.transferred with
    | none =>
      constructor
      · intro himpossible
        have habsent := himpossible rfl rfl
        refine ⟨fun hn => absurd hn hne, fun _ _ => ?_, fun _ ht => absurd htransferred ht⟩
        simpa [Option.isSome_iff_ne_none] using habsent
      · intro htraceless _ _
        obtain ⟨hclose, hunlink⟩ := htraceless.handler hne htransferred
        simp [Option.isSome_iff_ne_none, hclose, hunlink]
    | some total =>
      have ht : d.transferred ≠ none := by simp [htransferred]
      constructor
      · intro himpossible
        refine ⟨fun hn => absurd hn hne, fun _ hn => absurd hn ht, fun _ _ => ?_⟩
        -- with a close that failed, the download raises and the file stays
        by_contra hclosed
        have hraised : ¬ (d.closeFinally.value.isSome ∧ d.bodyClose.value.isSome) := by
          simpa [Option.isSome_iff_ne_none] using hclosed
        have habsent := himpossible rfl (if_neg hraised)
        cases habsent
      · intro htraceless _ hraised
        obtain ⟨hclose, hbody⟩ := htraceless.closes hne ht
        simp [Option.isSome_iff_ne_none, hclose, hbody] at hraised

/-- The storage calls as a whole: in a run of the bridge every function is over when
its call is, no more run than there are permits and every lost result is cleaned up
once, in every state exactly if every cancellation found a call that could take it;
and a download over such calls that raises after it created its destination leaves no
file exactly when the removal went well. -/
theorem storage_calls_kept_iff (concurrency : Nat) (events : List (BridgeEvent ρ))
    {d : Download} (h : d.Finished) :
    (Always bridgeStep (Kept concurrency) (Bridge.start ρ concurrency) events ↔
      Along bridgeStep Gentle (Bridge.start ρ concurrency) events) ∧
    (((downloadTo d).created = true → (downloadTo d).total = none →
      (downloadTo d).isPresent = false) ↔ d.Traceless) :=
  ⟨bridge_kept_iff concurrency events, download_traceless_iff h⟩

/-! ## Samples -/

/-- A call that returned. -/
def doneCall (result : ρ) (hasCleanup : Bool) : ThreadCall ρ :=
  ⟨hasCleanup, .returned result, .ended (some result), .unsubmitted, []⟩

/-- A call whose function raised. -/
def failedCall (ρ : Type) : ThreadCall ρ := ⟨false, .raised, .ended none, .unsubmitted, []⟩

/-- Five bytes are written, the next read fails, and the file is closed as given. -/
def sampleDownload (closeOnError : ThreadCall Unit) : Download where
  opened := doneCall () true
  cleanupUnlinks := true
  reads := [(doneCall 5 false, doneCall 5 false), (failedCall Nat, failedCall Nat)]
  flush := doneCall () false
  closeOnError := closeOnError
  unlink := doneCall () false
  closeFinally := doneCall () false
  bodyClose := doneCall () false

theorem sampleDownload_finished (closeOnError : ThreadCall Unit) :
    (sampleDownload closeOnError).Finished where
  opened := ⟨rfl, fun _ => ⟨rfl, rfl, fun _ => rfl⟩, rfl⟩
  unlink := ⟨rfl, fun _ => ⟨rfl, rfl, fun _ => rfl⟩⟩

/-- A call that is cancelled while its function runs: it waits for the function and has
the result cleaned up. -/
def cancelledOnce : List (BridgeEvent Nat) :=
  [.call true, .step 0 .acquire, .step 0 .startFunction, .step 0 .cancel,
    .step 0 (.endFunction (some 7)), .step 0 .resume, .step 0 .startCleanup,
    .step 0 .endCleanup, .step 0 .resume]

theorem storage_calls_kept_iff_once :
    Always bridgeStep (Kept 1) (Bridge.start Nat 1) cancelledOnce ∧
      (downloadTo (sampleDownload (doneCall () false))).isPresent = false :=
  have hkept := storage_calls_kept_iff 1 cancelledOnce
    (sampleDownload_finished (doneCall () false))
  ⟨hkept.1.mpr (by decide), hkept.2.mpr ⟨by decide, by decide, by decide⟩ rfl rfl⟩

/-- A second cancellation while the function still runs, and a close that fails: the
caller is gone and the thread is not, and the file of the failed download stays. -/
theorem second_cancellation_abandons :
    ¬ Kept 1 (run bridgeStep (Bridge.start Nat 1)
      [.call true, .step 0 .acquire, .step 0 .startFunction, .step 0 .cancel,
        .step 0 .cancel]) ∧
      downloadTo (sampleDownload (failedCall Unit)) = ⟨none, true, true⟩ := by
  refine ⟨fun hkept => ?_, by decide⟩
  have hcall := hkept.calls ⟨true, .cancelled, .running, .unsubmitted, []⟩ (List.mem_singleton.2 rfl)
  have hover := (hcall rfl).1
  cases hover

end LocalRag.Storage
